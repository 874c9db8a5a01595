import FeedbackQueue.Proofs.Queue.Spelling

/-!
# The audit accepts exactly the well-formed queues

The audit marks slots while it walks the queues.  On queues that spell out some sequences every walk
meets exactly the members of its queue, none of them before, and in the end a slot is marked exactly
if it is in a queue; so no test of the audit fails (`Spells.audit_eq_ok`).

Conversely a walk that fails no test has come to the end of its queue, along a chain of slots that
no walk has met before (`Walked`).  So however the links of an arena cross, queues that pass the
audit spell out the sequences of their members (`audit_eq_ok_iff`).
-/

namespace FeedbackQueue.Queues

variable {levels nproc : Nat}

/-! ## Marks -/

namespace Met

/-- Marks several slots. -/
def markAll (met : Met nproc) (slots : List (Fin nproc)) : Met nproc :=
  slots.foldl mark met

theorem has_mark (met : Met nproc) (slot y : Fin nproc) :
    (met.mark slot).has y = (met.has y || y == slot) := by
  simp only [has, mark, Vector.getElem_set]
  by_cases h : y = slot
  · simp [h]
  · simp [h, Fin.val_ne_of_ne (Ne.symm h)]

theorem has_markAll (met : Met nproc) (slots : List (Fin nproc)) (y : Fin nproc) :
    (met.markAll slots).has y = (met.has y || slots.contains y) := by
  induction slots generalizing met with
  | nil => simp [markAll]
  | cons slot rest ih =>
    refine (ih (met.mark slot)).trans ?_
    rw [has_mark, List.contains_cons, Bool.or_assoc]

theorem has_none (slot : Fin nproc) : (Met.none nproc).has slot = false := by
  simp [has, Met.none]

end Met

/-! ## Walks -/

variable {q : Queues levels nproc} {s : Sequences nproc}

/-- A walk along a chain meets its slots and fails no test. -/
theorem Chained.auditFrom_eq {level : Nat} {set : QueueSet} {slots : List (Fin nproc)}
    {prev : Option (Fin nproc)} {met : Met nproc} {fuel : Nat}
    (hc : q.Chained level set prev slots .none) (hn : slots.Nodup) (hf : slots.length ≤ fuel)
    (hm : ∀ slot ∈ slots, met.has slot = false) :
    q.auditFrom level set (slots.getLast?.or prev) fuel slots.head? prev met
      = .ok (met.markAll slots) := by
  induction slots generalizing prev met fuel with
  | nil => cases fuel <;> simp [auditFrom, Met.markAll]
  | cons slot rest ih =>
    obtain ⟨⟨hlevel, hset, hprev, hnext⟩, hrest⟩ := hc
    obtain ⟨hnot, hnodup⟩ := List.nodup_cons.mp hn
    obtain ⟨fuel, rfl⟩ : ∃ n, fuel = n + 1 := ⟨fuel - 1, by simp at hf; omega⟩
    have hunmet : ∀ y ∈ rest, (met.mark slot).has y = false := by
      intro y hy
      have hne : y ≠ slot := fun heq => hnot (heq ▸ hy)
      simp [Met.has_mark, hm y (List.mem_cons_of_mem _ hy), hne]
    have hwalk := ih hrest hnodup (by simpa using hf) hunmet
    simp only [List.head?_cons, auditFrom, hm slot List.mem_cons_self, hlevel, hset, hprev, hnext,
      Option.or_none, ne_eq, not_true_eq_false, Bool.false_eq_true, if_false, getLast?_cons_or,
      hwalk]
    rfl

theorem Spells.auditLane_eq (h : q.Spells s) {level : Nat} (hl : level < levels) (set : QueueSet)
    {met : Met nproc} (hm : ∀ slot ∈ s level set, met.has slot = false) :
    q.auditLane met (level, set) = .ok (met.markAll (s level set)) := by
  obtain ⟨lane, hlane, hhead, htail⟩ := h.lane_eq hl set
  have hwalk := (h.chained level hl set).auditFrom_eq (h.nodup level hl set) (h.length_le hl set) hm
  simpa only [auditLane, hlane, hhead, htail, Option.or_none] using hwalk

/-- Walking different queues marks exactly their members. -/
theorem Spells.auditLanes_eq (h : q.Spells s) {queues : List (Nat × QueueSet)} {met : Met nproc}
    (hl : ∀ queue ∈ queues, queue.1 < levels) (hn : queues.Nodup)
    (hm : ∀ queue ∈ queues, ∀ slot ∈ s queue.1 queue.2, met.has slot = false) :
    ∃ met', queues.foldlM q.auditLane met = .ok met' ∧ ∀ slot, met'.has slot = true ↔
      met.has slot = true ∨ ∃ queue ∈ queues, slot ∈ s queue.1 queue.2 := by
  induction queues generalizing met with
  | nil => exact ⟨met, rfl, by simp⟩
  | cons queue rest ih =>
    obtain ⟨level, set⟩ := queue
    obtain ⟨hnot, hnodup⟩ := List.nodup_cons.mp hn
    have hlevel : level < levels := hl _ List.mem_cons_self
    have hlane := h.auditLane_eq hlevel set (hm _ List.mem_cons_self)
    have hunmet : ∀ queue ∈ rest, ∀ slot ∈ s queue.1 queue.2,
        (met.markAll (s level set)).has slot = false := by
      intro queue hq slot hslot
      have hout : slot ∉ s level set := fun hin => by
        obtain ⟨h1, h2⟩ := h.disjoint _ (hl queue (List.mem_cons_of_mem _ hq)) level hlevel _ set
          slot hslot hin
        exact hnot (by rwa [← h1, ← h2])
      simp [Met.has_markAll, hm queue (List.mem_cons_of_mem _ hq) slot hslot, hout]
    obtain ⟨met', hfold, hhas⟩ :=
      ih (fun queue hq => hl queue (List.mem_cons_of_mem _ hq)) hnodup hunmet
    refine ⟨met', ?_, fun slot => ?_⟩
    · rw [List.foldlM_cons, hlane]
      exact hfold
    · simp [hhas slot, Met.has_markAll, or_assoc]

theorem nodup_allQueues : (allQueues levels).Nodup := by
  have hinj : ∀ set : QueueSet, Function.Injective fun level : Nat => (level, set) := by
    intro set a b hab
    exact congrArg Prod.fst hab
  refine List.nodup_append.mpr ⟨List.nodup_range.map (hinj _), List.nodup_range.map (hinj _), ?_⟩
  simp

theorem mem_allQueues {level : Nat} {set : QueueSet} :
    (level, set) ∈ allQueues levels ↔ level < levels := by
  cases set <;> simp [allQueues]

/-- No slot occurs twice in all sequences together. -/
theorem Spells.nodup_flatMap (h : q.Spells s) :
    ((allQueues levels).flatMap fun queue => s queue.1 queue.2).Nodup := by
  rw [List.nodup_flatMap]
  constructor
  · intro queue hqueue
    exact h.nodup queue.1 (mem_allQueues.mp hqueue) queue.2
  · refine List.Pairwise.imp_of_mem ?_ nodup_allQueues
    intro queue queue' hqueue hqueue' hne slot hmem hmem'
    obtain ⟨hlevel, hset⟩ := h.disjoint queue.1 (mem_allQueues.mp hqueue) queue'.1
      (mem_allQueues.mp hqueue') queue.2 queue'.2 slot hmem hmem'
    exact hne (Prod.ext hlevel hset)

theorem forM_eq_ok_iff {ε α : Type} {f : α → Except ε Unit} {xs : List α} :
    xs.forM f = .ok () ↔ ∀ x ∈ xs, f x = .ok () := by
  induction xs with
  | nil => exact ⟨fun _ _ hx => absurd hx List.not_mem_nil, fun _ => rfl⟩
  | cons x rest ih =>
    rw [List.forall_mem_cons, ← ih]
    change (f x >>= fun _ => rest.forM f) = .ok () ↔ _
    cases f x with
    | error flaw => exact iff_of_false nofun fun h => nomatch h.1
    | ok => exact ⟨fun h => ⟨rfl, h⟩, fun h => h.2⟩

/-- Queues that spell out some sequences have no flaw. -/
theorem Spells.audit_eq_ok (h : q.Spells s) : q.audit = .ok () := by
  obtain ⟨met, hfold, hhas⟩ := h.auditLanes_eq
    (fun queue (hq : queue ∈ allQueues levels) => mem_allQueues.mp hq) nodup_allQueues
    (fun _ _ _ _ => Met.has_none _)
  have hmet : ∀ slot, met.has slot = q.isLinked slot := by
    intro slot
    rw [Bool.eq_iff_iff, hhas, h.isLinked_iff]
    simp only [Met.has_none, Bool.false_eq_true, false_or, Prod.exists, mem_allQueues]
    exact ⟨fun ⟨level, set, hl, hin⟩ => ⟨level, hl, set, hin⟩,
      fun ⟨level, hl, set, hin⟩ => ⟨level, set, hl, hin⟩⟩
  have hlinks : ∀ slot ∈ List.finRange nproc, q.auditLink met slot = .ok () := by
    intro slot _
    have hlink : (q.link slot).isLinked = q.isLinked slot := rfl
    cases hlinked : q.isLinked slot with
    | true => simp [auditLink, hmet, hlink, hlinked]
    | false =>
      obtain ⟨-, hprev, hnext⟩ := h.detached slot fun level hl set => h.not_linked hlinked hl set
      simp [auditLink, hmet, hlink, hlinked, hprev, hnext]
  rw [audit, hfold]
  exact forM_eq_ok_iff.mpr hlinks

/-! ## Queues that pass -/

/-- What a walk has found that came from `prev` and failed no test: a chain of slots up to the tail,
each of them met for the first time. -/
structure Walked (q : Queues levels nproc) (level : Nat) (set : QueueSet)
    (tail prev : Option (Fin nproc)) (met : Met nproc) (slots : List (Fin nproc)) : Prop where
  chained : q.Chained level set prev slots none
  nodup : slots.Nodup
  tail_eq : tail = slots.getLast?.or prev
  unmet : ∀ slot ∈ slots, met.has slot = false

theorem auditFrom_none {level fuel : Nat} {set : QueueSet} {tail prev : Option (Fin nproc)}
    {met : Met nproc} : q.auditFrom level set tail fuel none prev met
      = if tail = prev then .ok met else .error .wrongTail := by
  cases fuel <;> rfl

/-- A walk that fails no test follows its queue to the end. -/
theorem walked_of_auditFrom {level fuel : Nat} {set : QueueSet}
    {tail cursor prev : Option (Fin nproc)} {met met' : Met nproc}
    (h : q.auditFrom level set tail fuel cursor prev met = .ok met') :
    (q.walk fuel cursor).head? = cursor ∧ met' = met.markAll (q.walk fuel cursor) ∧
      q.Walked level set tail prev met (q.walk fuel cursor) := by
  induction fuel generalizing cursor prev met with
  | zero =>
    cases cursor with
    | none =>
      rw [auditFrom_none] at h
      split_ifs at h with htail
      exact ⟨rfl, (Except.ok.inj h).symm, trivial, List.nodup_nil, htail, by simp [walk]⟩
    | some slot => cases h
  | succ fuel ih =>
    cases cursor with
    | none =>
      rw [auditFrom_none] at h
      split_ifs at h with htail
      exact ⟨rfl, (Except.ok.inj h).symm, trivial, List.nodup_nil, htail, by simp [walk]⟩
    | some slot =>
      simp only [auditFrom] at h
      split_ifs at h with hmet hlevel hset hprev
      obtain ⟨hnext, rfl, hrest⟩ := ih h
      rw [walk]
      generalize q.walk fuel (q.link slot).next = rest at hnext hrest
      have hunmet : ∀ y ∈ rest, met.has y = false ∧ y ≠ slot := fun y hy => by
        simpa [Met.has_mark] using hrest.unmet y hy
      refine ⟨rfl, rfl, ⟨⟨?_, ?_, ?_, ?_⟩, hrest.chained⟩, ?_, ?_, ?_⟩
      · simpa using hlevel
      · simpa using hset
      · simpa using hprev
      · rw [Option.or_none, hnext]
      · exact List.nodup_cons.mpr ⟨fun hmem => (hunmet slot hmem).2 rfl, hrest.nodup⟩
      · rw [getLast?_cons_or]
        exact hrest.tail_eq
      · exact List.forall_mem_cons.mpr ⟨by simpa using hmet, fun y hy => (hunmet y hy).1⟩

/-- A walk of one queue that fails no test has met the members of the queue. -/
theorem walked_of_auditLane {queue : Nat × QueueSet} {met met' : Met nproc}
    (hl : queue.1 < levels) (h : q.auditLane met queue = .ok met') :
    ∃ lane, q.lane? queue.1 queue.2 = some lane ∧
      lane.head = (q.members queue.1 queue.2).head? ∧
      met' = met.markAll (q.members queue.1 queue.2) ∧
      q.Walked queue.1 queue.2 lane.tail none met (q.members queue.1 queue.2) := by
  obtain ⟨lane, hlane⟩ : ∃ lane, q.lane? queue.1 queue.2 = some lane :=
    ⟨_, q.lane?_of_lt queue.2 hl⟩
  simp only [auditLane, hlane] at h
  obtain ⟨hhead, hmet, hwalked⟩ := walked_of_auditFrom h
  rw [members, hlane]
  exact ⟨lane, rfl, hhead.symm, hmet, hwalked⟩

/-- What the walks of several queues have found that failed no test: every queue is a chain from its
head to its tail, and no slot was met twice. -/
structure WalkedAll (q : Queues levels nproc) (queues : List (Nat × QueueSet))
    (met met' : Met nproc) : Prop where
  ends : ∀ queue ∈ queues, ∀ lane, q.lane? queue.1 queue.2 = some lane →
    lane.head = (q.members queue.1 queue.2).head? ∧
      lane.tail = (q.members queue.1 queue.2).getLast?
  chained : ∀ queue ∈ queues, q.Chained queue.1 queue.2 none (q.members queue.1 queue.2) none
  nodup : ∀ queue ∈ queues, (q.members queue.1 queue.2).Nodup
  apart : ∀ queue ∈ queues, ∀ other ∈ queues, ∀ slot ∈ q.members queue.1 queue.2,
    slot ∈ q.members other.1 other.2 → queue = other
  unmet : ∀ queue ∈ queues, ∀ slot ∈ q.members queue.1 queue.2, met.has slot = false
  has_iff : ∀ slot, met'.has slot = true ↔
    met.has slot = true ∨ ∃ queue ∈ queues, slot ∈ q.members queue.1 queue.2

theorem walkedAll_of_auditLanes {queues : List (Nat × QueueSet)} {met met' : Met nproc}
    (hl : ∀ queue ∈ queues, queue.1 < levels) (h : queues.foldlM q.auditLane met = .ok met') :
    q.WalkedAll queues met met' := by
  induction queues generalizing met with
  | nil =>
    obtain rfl : met = met' := Except.ok.inj h
    constructor <;> simp
  | cons queue rest ih =>
    rw [List.foldlM_cons] at h
    cases hfirst : q.auditLane met queue with
    | error flaw =>
      rw [hfirst] at h
      cases h
    | ok between =>
      rw [hfirst] at h
      obtain ⟨lane, hlane, hhead, rfl, hwalked⟩ :=
        walked_of_auditLane (hl queue List.mem_cons_self) hfirst
      have hrest := ih (fun other hmem => hl other (List.mem_cons_of_mem _ hmem)) h
      -- the first walk has marked its slots, and the walks after it meet no marked slot
      have hunmet : ∀ other ∈ rest, ∀ slot ∈ q.members other.1 other.2,
          met.has slot = false ∧ slot ∉ q.members queue.1 queue.2 := fun other hmem slot hslot => by
        simpa [Met.has_markAll] using hrest.unmet other hmem slot hslot
      constructor
      case ends =>
        refine List.forall_mem_cons.mpr ⟨fun lane' hlane' => ?_, hrest.ends⟩
        obtain rfl : lane = lane' := Option.some.inj (hlane.symm.trans hlane')
        exact ⟨hhead, by simpa using hwalked.tail_eq⟩
      case chained => exact List.forall_mem_cons.mpr ⟨hwalked.chained, hrest.chained⟩
      case nodup => exact List.forall_mem_cons.mpr ⟨hwalked.nodup, hrest.nodup⟩
      case apart =>
        intro a hmema b hmemb slot ha hb
        rw [List.mem_cons] at hmema hmemb
        obtain rfl | hmema := hmema <;> obtain rfl | hmemb := hmemb
        · rfl
        · exact absurd ha (hunmet b hmemb slot hb).2
        · exact absurd hb (hunmet a hmema slot ha).2
        · exact hrest.apart a hmema b hmemb slot ha hb
      case unmet =>
        exact List.forall_mem_cons.mpr
          ⟨hwalked.unmet, fun other hmem slot hslot => (hunmet other hmem slot hslot).1⟩
      case has_iff =>
        intro slot
        simp [hrest.has_iff, Met.has_markAll, or_assoc]

/-- Once all queues have been walked, a link that fails no test is that of a slot that was met, or
of one that names no place and no neighbours. -/
theorem link_of_auditLink {met : Met nproc} {slot : Fin nproc}
    (h : q.auditLink met slot = .ok ()) (hunmet : met.has slot = false) :
    (q.link slot).level? = none ∧ (q.link slot).prev = none ∧ (q.link slot).next = none := by
  simp only [auditLink, hunmet] at h
  split_ifs at h with hlinked hstale
  simp_all [Link.isLinked]

/-- Queues that pass the audit spell out the sequences of their members. -/
theorem spells_of_audit (h : q.audit = .ok ()) : q.Spells q.sequences := by
  rw [audit] at h
  cases hlanes : (allQueues levels).foldlM q.auditLane (.none nproc) with
  | error flaw =>
    rw [hlanes] at h
    cases h
  | ok met =>
    rw [hlanes] at h
    have hlinks := forM_eq_ok_iff.mp h
    have hwalked := walkedAll_of_auditLanes (fun _ hmem => mem_allQueues.mp hmem) hlanes
    constructor
    case ends => exact fun level hl set => hwalked.ends (level, set) (mem_allQueues.mpr hl)
    case chained => exact fun level hl set => hwalked.chained (level, set) (mem_allQueues.mpr hl)
    case nodup => exact fun level hl set => hwalked.nodup (level, set) (mem_allQueues.mpr hl)
    case disjoint =>
      intro level hl level' hl' set set' slot hmem hmem'
      exact Prod.mk.inj (hwalked.apart (level, set) (mem_allQueues.mpr hl) (level', set')
        (mem_allQueues.mpr hl') slot hmem hmem')
    case detached =>
      intro slot hnowhere
      refine link_of_auditLink (hlinks slot (List.mem_finRange slot)) ?_
      rw [← Bool.not_eq_true, hwalked.has_iff, Met.has_none]
      rintro (hno | ⟨queue, hqueue, hmem⟩)
      · cases hno
      · exact hnowhere queue.1 (mem_allQueues.mp hqueue) queue.2 hmem

/-- The audit finds no flaw exactly if the queues are well-formed, whatever their links and lanes
hold: there are sequences without repetition, no two of them with a slot in common, such that every
queue begins and ends as its sequence does, the link of every member names its queue and its
neighbours there, and the link of a slot in no sequence names nothing. -/
theorem audit_eq_ok_iff (q : Queues levels nproc) : q.audit = .ok () ↔ q.WellFormed := by
  constructor
  · exact fun h => ⟨q.sequences, spells_of_audit h⟩
  · rintro ⟨s, hs⟩
    exact hs.audit_eq_ok

end FeedbackQueue.Queues
