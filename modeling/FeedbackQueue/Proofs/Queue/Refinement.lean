import FeedbackQueue.Proofs.Queue.Audit
import FeedbackQueue.Proofs.Queue.Moves

/-!
# Linked queues are plain queues

Every command does to linked queues what it does to sequences.  `Queues.StandsFor` is the invariant:
one command keeps it (`StandsFor.perform`), so that a whole run from vacant queues keeps it
(`StandsFor.performAll`), and what can be seen of the linked queues is what it says
(`StandsFor.looksLike`).

The main result is `performAll_looksLike`: no allowed run faults, the audit finds nothing wrong at
any point of it, and the queues look like the sequences throughout.
-/

namespace FeedbackQueue.Queues

variable {levels nproc : Nat} {q : Queues levels nproc} {refill : Int32} {p : PlainQueues nproc}

/-! ## Vacant queues -/

theorem standsFor_empty (hl : 0 < levels) (nproc : Nat) (refill : Int32) :
    (empty levels nproc refill).StandsFor refill (.empty nproc refill) where
  spells := spells_empty levels nproc refill
  homes slot := by simp [empty, link, Link.detached, PlainQueues.empty]
  homes_lt _ := hl
  ticks level h set := by
    refine quantum_eq_of_lane? _ _ _ (.vacant refill) ?_
    cases set <;> simp [empty, lane?, lanes, h]
  refill_eq := rfl

/-! ## Ticks -/

theorem StandsFor.adjustTicks (h : q.StandsFor refill p) (level : Nat) (set : QueueSet)
    (value : Int32) :
    (q.adjustLane level set fun lane => { lane with quantum := value }).StandsFor refill
      (p.setTicks level set value) where
  spells := h.spells.setTicks level set value
  homes slot := by
    rw [link_adjustLane]
    exact h.homes slot
  homes_lt := h.homes_lt
  ticks l hl t := by
    rw [quantum_adjustLane, h.ticks l hl t]
    simp only [PlainQueues.setTicks]
    split <;> rfl
  refill_eq := by cases set <;> exact h.refill_eq

theorem lane_of_lt (q : Queues levels nproc) {level : Nat} (hl : level < levels) (set : QueueSet) :
    ∃ lane, q.lane level set = .ok lane ∧ q.lane? level set = some lane :=
  ⟨_, by simp [lane, q.lane?_of_lt set hl], q.lane?_of_lt set hl⟩

/-! ## One command -/

theorem ok_bind {ε α β : Type} (a : α) (f : α → Except ε β) : (Except.ok a >>= f) = f a := rfl

theorem slotAt_of_lt {i : Nat} (h : i < nproc) :
    (slotAt i : Except Fault (Fin nproc)) = .ok ⟨i, h⟩ :=
  dif_pos h

theorem StandsFor.home_lt (h : q.StandsFor refill p) (slot : Fin nproc) :
    (q.link slot).home < levels :=
  h.homes slot ▸ h.homes_lt slot

/-- A move of slots between queues, as the sequences see it. -/
theorem StandsFor.of_move {q' : Queues levels nproc} {s : Sequences nproc}
    (h : q.StandsFor refill p) (hs : q'.Spells s)
    (hhome : ∀ slot, (q'.link slot).home = (q.link slot).home)
    (hticks : ∀ level set, q'.quantum level set = q.quantum level set)
    (hrefill : q'.refill = q.refill) : q'.StandsFor refill { p with lists := s } where
  spells := hs
  homes slot := (hhome slot).trans (h.homes slot)
  homes_lt := h.homes_lt
  ticks level hl set := (hticks level set).trans (h.ticks level hl set)
  refill_eq := hrefill.trans h.refill_eq

theorem StandsFor.reset (h : q.StandsFor refill p) {slot : Fin nproc} {home : Nat}
    (hhome : home < levels) (hfree : ∀ level < levels, ∀ set, slot ∉ p.lists level set) :
    q.reset slot home = .ok (q.adjustLink slot fun _ => .detached home) ∧
      (q.adjustLink slot fun _ => .detached home).StandsFor refill
        (p.perform refill (.reset slot.val home)) := by
  have hlinked : q.isLinked slot = false := by
    rw [Bool.eq_false_iff, ne_eq, h.spells.isLinked_iff]
    rintro ⟨level, hl, set, hin⟩
    exact hfree level hl set hin
  refine ⟨by simp [Queues.reset, Nat.not_le.mpr hhome, hlinked], ?_⟩
  constructor
  case spells => exact h.spells.detach hfree home
  case homes =>
    intro y
    rw [link_adjustLink]
    by_cases hy : y = slot
    · simp [hy, PlainQueues.perform, Link.detached]
    · simp [hy, PlainQueues.perform, Fin.val_ne_of_ne hy, h.homes y]
  case homes_lt =>
    intro y
    simp only [PlainQueues.perform]
    split
    · exact hhome
    · exact h.homes_lt y
  case ticks =>
    intro level hl set
    exact (quantum_congr level set rfl).trans (h.ticks level hl set)
  case refill_eq => exact h.refill_eq

theorem StandsFor.relink (h : q.StandsFor refill p) (slot : Fin nproc) {level : Nat}
    (hl : level < levels) (set : QueueSet) :
    (q.relink slot level set).StandsFor refill (p.perform refill (.enqueue slot level set)) := by
  have hs := h.of_move (h.spells.relink slot hl set) (home_relink _ _ · _ _)
    (fun _ _ => quantum_relink ..) (refill_relink ..)
  simpa [PlainQueues.perform] using hs

theorem StandsFor.remove (h : q.StandsFor refill p) (slot : Fin nproc) :
    (q.remove slot).StandsFor refill (p.perform refill (.dequeue slot)) := by
  have hs := h.of_move (h.spells.remove slot) (home_remove _ _ ·) (fun _ _ => quantum_remove ..)
    (refill_remove ..)
  simpa [PlainQueues.perform] using hs

theorem StandsFor.swap (h : q.StandsFor refill p) (isLive : Fin nproc → Bool) (live : List Nat) :
    (q.swap isLive).StandsFor refill (p.perform refill (.swap live)) where
  spells := h.spells.swap isLive
  homes slot := (home_swap ..).trans (h.homes slot)
  homes_lt := h.homes_lt
  ticks level hl set := by
    rw [quantum_swap]
    cases set with
    | active =>
      rw [h.ticks level hl .expired, h.refill_eq]
      rfl
    | expired => exact h.ticks level hl .active
  refill_eq := h.refill_eq

theorem StandsFor.drain (h : q.StandsFor refill p) {source target : Nat} {set : QueueSet}
    (hsource : source < levels) (ht : target < levels) (hne : set = .expired ∨ source ≠ target)
    (skip : Option Nat) :
    ∃ q', q.drain source target set skip = .ok ((p.lists.movers source skip).length, q') ∧
      q'.StandsFor refill (p.perform refill (.drain source target set skip)) := by
  refine ⟨_, h.spells.drain_eq hsource ht ?_ h.home_lt skip, ?_⟩
  · rintro rfl
    simpa [eq_comm] using hne
  · have hs := h.spells.relinkAll set ht h.home_lt (p.lists.movers source skip)
    rw [show q.homes = p.homes from funext h.homes] at hs
    exact h.of_move hs (home_relinkAll ·) quantum_relinkAll refill_relinkAll

/-- One allowed command is answered, as the sequences say, and does to the queues what it does to
the sequences. -/
theorem StandsFor.perform (h : q.StandsFor refill p) {command : QueueCommand}
    (hc : p.Allows levels command) :
    ∃ answer q', q.perform command = .ok (answer, q') ∧
      q'.StandsFor refill (p.perform refill command) ∧ p.Answers levels command answer := by
  cases command with
  | reset slot home =>
    obtain ⟨hhome, hslot, hfree⟩ := hc
    obtain ⟨hreset, hstands⟩ := h.reset hhome hfree
    refine ⟨.done, _, ?_, hstands, rfl⟩
    simp only [Queues.perform, if_neg (Nat.not_le.mpr hhome), slotAt_of_lt hslot, ok_bind, hreset]
    rfl
  | enqueue slot level set =>
    obtain ⟨hl, hslot⟩ := hc
    refine ⟨.done, _, ?_, h.relink ⟨slot, hslot⟩ hl set, rfl⟩
    simp only [Queues.perform, if_neg (Nat.not_le.mpr hl), slotAt_of_lt hslot, enqueue, if_pos hl]
    rfl
  | dequeue slot =>
    have hslot : slot < nproc := hc
    refine ⟨.done, _, ?_, h.remove ⟨slot, hslot⟩, rfl⟩
    simp only [Queues.perform, slotAt_of_lt hslot]
    rfl
  | drain source target set skip =>
    obtain ⟨hsource, ht, hne⟩ := hc
    obtain ⟨q', hdrain, hstands⟩ := h.drain hsource ht hne skip
    refine ⟨_, q', ?_, hstands, rfl⟩
    simp only [Queues.perform, hdrain]
    rfl
  | swap live => exact ⟨.done, _, rfl, h.swap _ live, rfl⟩
  | setQuantum level set value =>
    obtain ⟨lane, hlane, -⟩ := q.lane_of_lt hc set
    refine ⟨.done, _, ?_, h.adjustTicks level set value, rfl⟩
    simp only [Queues.perform, setQuantum, hlane]
    rfl
  | charge level set =>
    obtain ⟨hl, hmin⟩ := hc
    obtain ⟨lane, hlane, hlane?⟩ := q.lane_of_lt hl set
    have hticks : lane.quantum = p.ticks level set :=
      Except.ok.inj ((quantum_eq_of_lane? _ _ _ _ hlane?).symm.trans (h.ticks level hl set))
    refine ⟨_, _, ?_, h.adjustTicks level set (p.ticks level set - 1), rfl⟩
    simp only [Queues.perform, charge, hlane, hticks, if_neg hmin]
    rfl
  | quantum level set =>
    refine ⟨_, q, ?_, h, rfl⟩
    simp only [Queues.perform, h.ticks level hc set]
    rfl
  | linked slot =>
    have hslot : slot < nproc := hc
    refine ⟨.flag (q.isLinked ⟨slot, hslot⟩), q, ?_, h, _, rfl, ?_⟩
    · simp only [Queues.perform, slotAt_of_lt hslot]
      rfl
    · rw [h.spells.isLinked_iff]
      simp [Fin.exists_iff, hslot]
  | location slot =>
    have hslot : slot < nproc := hc
    refine ⟨.location (q.location ⟨slot, hslot⟩), q, ?_, h, _, rfl, fun level set => ?_⟩
    · simp only [Queues.perform, slotAt_of_lt hslot]
      rfl
    · rw [h.spells.location_eq_some_iff]
      simp [Fin.exists_iff, hslot]
  | link slot =>
    have hslot : slot < nproc := hc
    refine ⟨.link (q.link ⟨slot, hslot⟩), q, ?_, h, trivial⟩
    simp only [Queues.perform, slotAt_of_lt hslot]
    rfl
  | ends level set =>
    obtain ⟨lane, hlane, hlane?⟩ := q.lane_of_lt hc set
    obtain ⟨hhead, htail⟩ := h.spells.ends level hc set lane hlane?
    refine ⟨.ends lane.head lane.tail, q, ?_, h, by rw [hhead, htail]; rfl⟩
    simp only [Queues.perform, hlane]
    rfl
  | members level set =>
    obtain ⟨lane, hlane, -⟩ := q.lane_of_lt hc set
    refine ⟨.members (q.members level set), q, ?_, h, ?_⟩
    · simp only [Queues.perform, hlane]
      rfl
    · rw [h.spells.members hc]
      rfl
  | decision level home left =>
    have hl : level < levels := hc
    obtain ⟨lane, hlane, -⟩ := q.lane_of_lt hl .active
    obtain ⟨decision, hdecision⟩ : ∃ d, q.decision level home left = .ok d := by
      simp only [Queues.decision, Queues.quantum, hlane, Except.map]
      exact ⟨_, rfl⟩
    refine ⟨.decision decision, q, ?_, h, trivial⟩
    simp only [Queues.perform, hdecision]
    rfl

/-! ## A whole run -/

theorem StandsFor.performAll {commands : List QueueCommand} (h : q.StandsFor refill p)
    (hc : p.AllowsAll levels refill commands) :
    ∃ answers q', q.performAll commands = .ok (answers, q') ∧
      q'.StandsFor refill (p.performAll refill commands) ∧
      p.AnswersAll levels refill commands answers := by
  induction commands generalizing q p with
  | nil => exact ⟨[], q, rfl, h, rfl⟩
  | cons command rest ih =>
    obtain ⟨hfirst, hrest⟩ := hc
    obtain ⟨answer, q₁, hone, hstands₁, hanswer⟩ := h.perform hfirst
    obtain ⟨answers, q₂, hall, hstands₂, hanswers⟩ := ih hstands₁ hrest
    refine ⟨answer :: answers, q₂, ?_, hstands₂, answer, answers, rfl, hanswer, hanswers⟩
    simp only [Queues.performAll, hone, ok_bind, hall]
    rfl

theorem StandsFor.looksLike (h : q.StandsFor refill p) : q.LooksLike p where
  members level hl set := h.spells.members hl set
  ends level hl set := by
    obtain ⟨lane, hlane, hlane?⟩ := q.lane_of_lt hl set
    obtain ⟨hhead, htail⟩ := h.spells.ends level hl set lane hlane?
    rw [hlane, ← hhead, ← htail]
    rfl
  ticks := h.ticks
  location := h.spells.location_eq_some_iff

end FeedbackQueue.Queues

namespace FeedbackQueue

theorem PlainQueues.AllowsAll.of_append {nproc levels : Nat} {refill : Int32}
    {p : PlainQueues nproc} {done rest : List QueueCommand}
    (h : p.AllowsAll levels refill (done ++ rest)) : p.AllowsAll levels refill done := by
  induction done generalizing p with
  | nil => trivial
  | cons command done ih => exact ⟨h.1, ih h.2⟩

/-- Linked queues are plain queues: at every point of a run of allowed commands from vacant queues
no command has faulted, the answers are those of the sequences, the audit finds no flaw, and the
queues look like the sequences. -/
theorem performAll_looksLike {levels : Nat} (hl : 0 < levels) (nproc : Nat) (refill : Int32)
    (commands : List QueueCommand)
    (allowed : (PlainQueues.empty nproc refill).AllowsAll levels refill commands)
    (done : List QueueCommand) (hdone : done <+: commands) :
    ∃ answers q, (Queues.empty levels nproc refill).performAll done = .ok (answers, q) ∧
      (PlainQueues.empty nproc refill).AnswersAll levels refill done answers ∧
      q.audit = .ok () ∧
      q.LooksLike ((PlainQueues.empty nproc refill).performAll refill done) := by
  obtain ⟨rest, rfl⟩ := hdone
  obtain ⟨answers, q, hall, hstands, hanswers⟩ :=
    (Queues.standsFor_empty hl nproc refill).performAll allowed.of_append
  exact ⟨answers, q, hall, hanswers, hstands.spells.audit_eq_ok, hstands.looksLike⟩

/-- A run that queues three processes, drains a level into the expired set, exchanges the sets and
takes the middle of a queue out. -/
def drainAndSwap : List QueueCommand :=
  [.reset 0 1, .enqueue 0 0 .active, .enqueue 1 0 .active, .enqueue 2 0 .active, .charge 0 .active,
    .drain 0 1 .expired (some 1), .swap [0, 1, 2], .enqueue 1 1 .active, .dequeue 2, .location 0]

theorem performAll_drainAndSwap_looksLike :
    ∃ answers q, (Queues.empty 2 3 10).performAll drainAndSwap = .ok (answers, q) ∧
      (PlainQueues.empty 3 10).AnswersAll 2 10 drainAndSwap answers ∧
      q.audit = .ok () ∧ q.LooksLike ((PlainQueues.empty 3 10).performAll 10 drainAndSwap) :=
  performAll_looksLike (by decide) 3 10 drainAndSwap (by decide) drainAndSwap (List.prefix_refl _)

end FeedbackQueue
