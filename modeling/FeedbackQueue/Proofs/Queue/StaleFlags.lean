import FeedbackQueue.Proofs.Queue.Links
import FeedbackQueue.Queue.Audit
import FeedbackQueue.Queue.Command
import Mathlib.Data.List.Forall2

/-!
# The flags of slots in no queue

The link of a slot keeps the flag of its last set when the slot leaves its queue, and an exchange of
the sets turns the flags of some of these slots over and of others not.  Such a flag is stale: it
means nothing until the slot is in a queue again, and by then it has been written anew.

`Queues.Alike` relates queues that differ in stale flags only.  Every move keeps it
(`Alike.perform`), even an exchange that is told different slots to hold a process, and all that can
be seen of the queues is the same in both (`Alike.looksAlike`).  So no run can tell the two apart
(`Alike.performAll`).
-/

namespace FeedbackQueue

/-- Two results are the same fault, or two values in relation. -/
inductive Matches {α β : Type} (R : α → β → Prop) : Except Fault α → Except Fault β → Prop
  | fault (fault : Fault) : Matches R (.error fault) (.error fault)
  | value {a : α} {b : β} (related : R a b) : Matches R (.ok a) (.ok b)

namespace Matches

variable {α β γ δ : Type} {R : α → β → Prop} {S : γ → δ → Prop}

theorem bind {x : Except Fault α} {y : Except Fault β} {f : α → Except Fault γ}
    {g : β → Except Fault δ} (h : Matches R x y) (hfg : ∀ a b, R a b → Matches S (f a) (g b)) :
    Matches S (x >>= f) (y >>= g) := by
  cases h with
  | fault fault => exact .fault fault
  | value related => exact hfg _ _ related

theorem mono {R' : α → β → Prop} {x : Except Fault α} {y : Except Fault β} (h : Matches R x y)
    (hR : ∀ a b, R a b → R' a b) : Matches R' x y := by
  cases h with
  | fault fault => exact .fault fault
  | value related => exact .value (hR _ _ related)

theorem refl (x : Except Fault α) : Matches Eq x x := by
  cases x with
  | error fault => exact .fault fault
  | ok a => exact .value rfl

/-- Two values in relation, under the same guard. -/
theorem guard {p : Prop} [Decidable p] {a : α} {b : β} (h : R a b) (fault : Fault) :
    Matches R (if p then .ok a else .error fault) (if p then .ok b else .error fault) := by
  split
  · exact .value h
  · exact .fault fault

end Matches

/-- One command, or two exchanges that are told different slots to hold a process.  A look at the
link of a slot is left out: it shows the flag even of a slot in no queue. -/
inductive QueueCommand.Counterpart : QueueCommand → QueueCommand → Prop
  | same {command : QueueCommand} (h : ∀ slot, command ≠ .link slot) : Counterpart command command
  | swap (live live' : List Nat) : Counterpart (.swap live) (.swap live')

/-! ## Links and queues that are alike -/

/-- Two links that are equal but for the flag, and in the flag too if the slot is in a queue. -/
structure Link.Alike {nproc : Nat} (link link' : Link nproc) : Prop where
  level? : link.level? = link'.level?
  home : link.home = link'.home
  prev : link.prev = link'.prev
  next : link.next = link'.next
  inExpired : link.isLinked = true → link.inExpired = link'.inExpired

namespace Link.Alike

variable {nproc : Nat} {link link' : Link nproc}

theorem refl (link : Link nproc) : link.Alike link :=
  ⟨rfl, rfl, rfl, rfl, fun _ => rfl⟩

theorem isLinked (h : link.Alike link') : link.isLinked = link'.isLinked := by
  simp only [Link.isLinked, h.level?]

theorem eq (h : link.Alike link') (hlinked : link.isLinked = true) : link = link' := by
  obtain ⟨level?, home, prev, next, inExpired⟩ := h
  cases link
  cases link'
  simp_all

theorem location (h : link.Alike link') : link.location = link'.location := by
  cases hlevel : link.level? with
  | none =>
    have hlevel' : link'.level? = none := h.level?.symm.trans hlevel
    simp only [Link.location, hlevel, hlevel', Option.map_none]
  | some level =>
    have hlinked : link.isLinked = true := by simp [Link.isLinked, hlevel]
    rw [h.eq hlinked]

end Link.Alike

namespace Queues

variable {levels nproc : Nat}

/-- Queues that are equal but for the flags of slots in no queue. -/
structure Alike (q q' : Queues levels nproc) : Prop where
  refill : q.refill = q'.refill
  active : q.active = q'.active
  expired : q.expired = q'.expired
  links : ∀ slot, (q.link slot).Alike (q'.link slot)

/-- Two outcomes of a command: the same answer, and queues that are alike. -/
def AnsweredAlike {α : Type} (x y : α × Queues levels nproc) : Prop :=
  x.1 = y.1 ∧ x.2.Alike y.2

namespace Alike

variable {q q' : Queues levels nproc}

theorem refl (q : Queues levels nproc) : q.Alike q :=
  ⟨rfl, rfl, rfl, fun _ => .refl _⟩

/-! ## What can be seen -/

section Seen

variable (h : q.Alike q') (level : Nat) (set : QueueSet) (slot : Fin nproc)
include h

theorem lane?_eq : q.lane? level set = q'.lane? level set := by
  cases set
  case active => simp only [lane?, lanes, h.active]
  case expired => simp only [lane?, lanes, h.expired]

theorem lane_eq : q.lane level set = q'.lane level set := by
  simp only [lane, h.lane?_eq]

theorem quantum_eq : q.quantum level set = q'.quantum level set := by
  simp only [quantum, h.lane_eq]

theorem isLinked_eq : q.isLinked slot = q'.isLinked slot :=
  (h.links slot).isLinked

theorem location_eq : q.location slot = q'.location slot :=
  (h.links slot).location

theorem link_eq (hlinked : q.isLinked slot = true) : q.link slot = q'.link slot :=
  (h.links slot).eq hlinked

theorem walk_eq (fuel : Nat) (cursor : Option (Fin nproc)) :
    q.walk fuel cursor = q'.walk fuel cursor := by
  induction fuel generalizing cursor with
  | zero => rfl
  | succ fuel ih =>
    cases cursor with
    | none => rfl
    | some slot => simp only [walk, (h.links slot).next, ih]

theorem members_eq : q.members level set = q'.members level set := by
  simp only [members, h.lane?_eq, h.walk_eq]

theorem decision_eq (home : Nat) (left : Int32) :
    q.decision level home left = q'.decision level home left := by
  simp only [decision, lowerLevel?, hasTicks, h.quantum_eq, h.lane?_eq]

/-- A walk of the audit reads the flag of a slot after its level, and a slot in no queue fails
there. -/
theorem auditFrom_eq (tail : Option (Fin nproc)) (fuel : Nat) (cursor prev : Option (Fin nproc))
    (met : Met nproc) :
    q.auditFrom level set tail fuel cursor prev met
      = q'.auditFrom level set tail fuel cursor prev met := by
  induction fuel generalizing cursor prev met with
  | zero => cases cursor <;> simp only [auditFrom]
  | succ fuel ih =>
    cases cursor with
    | none => simp only [auditFrom]
    | some slot =>
      by_cases hlevel : (q.link slot).level? = some level
      · have hlinked : q.isLinked slot = true := by simp [isLinked, Link.isLinked, hlevel]
        simp only [auditFrom, ih, h.link_eq slot hlinked]
      · have hlevel' : (q'.link slot).level? ≠ some level := (h.links slot).level? ▸ hlevel
        simp only [auditFrom, ne_eq, hlevel, hlevel', not_false_eq_true, if_true]

theorem auditLane_eq (met : Met nproc) (queue : Nat × QueueSet) :
    q.auditLane met queue = q'.auditLane met queue := by
  simp only [auditLane, h.lane?_eq, h.auditFrom_eq]

theorem auditLink_eq (met : Met nproc) : q.auditLink met slot = q'.auditLink met slot := by
  obtain ⟨-, -, hprev, hnext, -⟩ := h.links slot
  simp only [auditLink, (h.links slot).isLinked, hprev, hnext]

theorem audit_eq : q.audit = q'.audit := by
  have hlane : q.auditLane = q'.auditLane := funext fun met => funext (h.auditLane_eq met)
  have hlink : q.auditLink = q'.auditLink := funext fun met => funext (h.auditLink_eq · met)
  simp only [audit, hlane, hlink]

end Seen

/-! ## One lane, one link -/

theorem adjustLane (h : q.Alike q') (level : Nat) (set : QueueSet) (f : Lane nproc → Lane nproc) :
    (q.adjustLane level set f).Alike (q'.adjustLane level set f) := by
  obtain ⟨hrefill, hactive, hexpired, hlinks⟩ := h
  cases set with
  | active => exact ⟨hrefill, congrArg (adjustAt · level f) hactive, hexpired, hlinks⟩
  | expired => exact ⟨hrefill, hactive, congrArg (adjustAt · level f) hexpired, hlinks⟩

theorem adjustLink (h : q.Alike q') (slot : Fin nproc) {f : Link nproc → Link nproc}
    (hf : (f (q.link slot)).Alike (f (q'.link slot))) :
    (q.adjustLink slot f).Alike (q'.adjustLink slot f) where
  refill := h.refill
  active := h.active
  expired := h.expired
  links y := by
    rw [link_adjustLink, link_adjustLink]
    by_cases hy : y = slot
    · rw [if_pos hy, if_pos hy, hy]
      exact hf
    · rw [if_neg hy, if_neg hy]
      exact h.links y

/-! ## Moves -/

theorem setNext (h : q.Alike q') (slot : Fin nproc) (next : Option (Fin nproc)) :
    (q.adjustLink slot fun link => { link with next := next }).Alike
      (q'.adjustLink slot fun link => { link with next := next }) := by
  obtain ⟨hlevel, hhome, hprev, -, hflag⟩ := h.links slot
  exact h.adjustLink slot ⟨hlevel, hhome, hprev, rfl, hflag⟩

theorem setPrev (h : q.Alike q') (slot : Fin nproc) (prev : Option (Fin nproc)) :
    (q.adjustLink slot fun link => { link with prev := prev }).Alike
      (q'.adjustLink slot fun link => { link with prev := prev }) := by
  obtain ⟨hlevel, hhome, -, hnext, hflag⟩ := h.links slot
  exact h.adjustLink slot ⟨hlevel, hhome, rfl, hnext, hflag⟩

/-- Whatever the flag was, it is written when the slot is put at a tail. -/
theorem append (h : q.Alike q') (slot : Fin nproc) (level : Nat) (set : QueueSet) :
    (q.append slot level set).Alike (q'.append slot level set) := by
  unfold Queues.append
  rw [h.lane?_eq]
  generalize (q'.lane? level set).bind Lane.tail = tail
  let put : Link nproc → Link nproc := fun link =>
    { link with level? := some level, inExpired := set.isExpired, prev := tail, next := none }
  have hput : (q.adjustLink slot put).Alike (q'.adjustLink slot put) :=
    h.adjustLink slot ⟨rfl, (h.links slot).home, rfl, rfl, fun _ => rfl⟩
  cases tail with
  | none => exact (hput.adjustLane ..).adjustLane ..
  | some last => exact (hput.setNext ..).adjustLane ..

/-- The flag names the queue to take a slot out of only if the slot is in one. -/
theorem remove (h : q.Alike q') (slot : Fin nproc) : (q.remove slot).Alike (q'.remove slot) := by
  unfold Queues.remove
  simp only [← (h.links slot).location, ← (h.links slot).prev, ← (h.links slot).next]
  cases (q.link slot).location with
  | none => exact h
  | some place =>
    obtain ⟨level, set⟩ := place
    have hcut : ∀ p p' : Queues levels nproc, p.Alike p' →
        (p.adjustLink slot cut).Alike (p'.adjustLink slot cut) := fun p p' hp =>
      hp.adjustLink slot ⟨rfl, (hp.links slot).home, rfl, rfl, fun hlinked => nomatch hlinked⟩
    refine hcut _ _ ?_
    cases (q.link slot).prev with
    | none =>
      cases (q.link slot).next with
      | none => exact (h.adjustLane ..).adjustLane ..
      | some after => exact (h.adjustLane ..).setPrev ..
    | some before =>
      cases (q.link slot).next with
      | none => exact (h.setNext ..).adjustLane ..
      | some after => exact (h.setNext ..).setPrev ..

theorem relink (h : q.Alike q') (slot : Fin nproc) (level : Nat) (set : QueueSet) :
    (q.relink slot level set).Alike (q'.relink slot level set) :=
  (h.remove slot).append slot level set

/-- An exchange turns over the flags of all slots in a queue.  It may ask of other slots whether
they hold a process, and be told different things. -/
theorem swap (h : q.Alike q') (isLive isLive' : Fin nproc → Bool) :
    (q.swap isLive).Alike (q'.swap isLive') where
  refill := h.refill
  active := by simp only [Queues.swap, h.expired, h.refill]
  expired := h.active
  links slot := by
    rw [link_swap, link_swap]
    cases hlinked : (q.link slot).isLinked with
    | true =>
      rw [← h.link_eq slot hlinked, hlinked, Bool.true_or, Bool.true_or]
      exact .refl _
    | false =>
      have hlinked' : (q'.link slot).isLinked = false := (h.links slot).isLinked ▸ hlinked
      obtain ⟨hlevel, hhome, hprev, hnext, -⟩ := h.links slot
      rw [hlinked', Bool.false_or, Bool.false_or]
      -- the flags may come to differ, but they are still those of slots in no queue
      have hunlinked : (q.link slot).isLinked ≠ true := by simp [hlinked]
      split <;> split <;>
        exact ⟨hlevel, hhome, hprev, hnext, fun h => absurd h hunlinked⟩

/-! ## Moves that may fault -/

theorem enqueue (h : q.Alike q') (slot : Fin nproc) (level : Nat) (set : QueueSet) :
    Matches Alike (q.enqueue slot level set) (q'.enqueue slot level set) :=
  .guard (h.relink slot level set) _

theorem reset (h : q.Alike q') (slot : Fin nproc) (home : Nat) :
    Matches Alike (q.reset slot home) (q'.reset slot home) := by
  unfold Queues.reset
  rw [h.isLinked_eq]
  split
  · exact .fault _
  · split
    · exact .fault _
    · exact .value (h.adjustLink slot (.refl _))

theorem follow (h : q.Alike q') (target : Nat) (set : QueueSet) (slot : Fin nproc) :
    Matches Alike (Queues.follow target set q slot) (Queues.follow target set q' slot) := by
  unfold Queues.follow
  rw [(h.links slot).home]
  exact .guard (h.relink slot _ set) _

theorem drainFrom (h : q.Alike q') (target : Nat) (set : QueueSet) (skip : Option Nat) (fuel : Nat)
    (cursor : Option (Fin nproc)) (moved : Nat) :
    Matches AnsweredAlike (Queues.drainFrom target set skip fuel cursor moved q)
      (Queues.drainFrom target set skip fuel cursor moved q') := by
  induction fuel generalizing cursor moved q q' with
  | zero => exact .value ⟨rfl, h⟩
  | succ fuel ih =>
    cases cursor with
    | none => exact .value ⟨rfl, h⟩
    | some slot =>
      simp only [Queues.drainFrom, (h.links slot).next]
      by_cases hskip : skip = some slot.val
      · rw [if_pos hskip, if_pos hskip]
        exact ih h ..
      · rw [if_neg hskip, if_neg hskip]
        have hmoved := h.follow target set slot
        revert hmoved
        generalize Queues.follow target set q slot = x
        generalize Queues.follow target set q' slot = y
        rintro (_ | hmoved)
        · exact .fault _
        · exact ih hmoved ..

theorem drain (h : q.Alike q') (source target : Nat) (set : QueueSet) (skip : Option Nat) :
    Matches AnsweredAlike (q.drain source target set skip) (q'.drain source target set skip) := by
  unfold Queues.drain
  rw [h.lane?_eq]
  split
  · exact .fault _
  split
  · exact .fault _
  split
  · exact .fault _
  · exact h.drainFrom ..

theorem setQuantum (h : q.Alike q') (level : Nat) (set : QueueSet) (value : Int32) :
    Matches Alike (q.setQuantum level set value) (q'.setQuantum level set value) := by
  unfold Queues.setQuantum
  rw [h.lane_eq]
  cases q'.lane level set with
  | error fault => exact .fault fault
  | ok lane => exact .value (h.adjustLane ..)

theorem charge (h : q.Alike q') (level : Nat) (set : QueueSet) :
    Matches AnsweredAlike (q.charge level set) (q'.charge level set) := by
  unfold Queues.charge
  rw [h.lane_eq]
  cases q'.lane level set with
  | error fault => exact .fault fault
  | ok lane =>
    dsimp only
    split
    · exact .fault _
    · exact .value ⟨rfl, h.adjustLane ..⟩

/-! ## Commands -/

theorem perform (h : q.Alike q') {command command' : QueueCommand}
    (hc : command.Counterpart command') :
    Matches AnsweredAlike (q.perform command) (q'.perform command') := by
  have answered : ∀ (answer : QueueAnswer nproc) (p p' : Queues levels nproc), p.Alike p' →
      Matches AnsweredAlike (pure (answer, p)) (pure (answer, p')) :=
    fun _ _ _ hp => .value ⟨rfl, hp⟩
  -- numbers are looked up first, without the queues
  have looked : ∀ (i : Nat)
      {f g : Fin nproc → Except Fault (QueueAnswer nproc × Queues levels nproc)},
      (∀ slot, Matches AnsweredAlike (f slot) (g slot)) →
      Matches AnsweredAlike (slotAt i >>= f) (slotAt i >>= g) := fun i _ _ hfg =>
    (Matches.refl (slotAt i)).bind fun slot _ heq => heq ▸ hfg slot
  cases hc with
  | swap live live' => exact .value ⟨rfl, h.swap _ _⟩
  | same hlink =>
    cases command with
    | link slot => exact absurd rfl (hlink slot)
    | swap live => exact .value ⟨rfl, h.swap _ _⟩
    | reset slot home =>
      simp only [Queues.perform]
      split
      · exact .fault _
      · exact looked slot fun slot =>
          (h.reset slot home).bind fun p p' hp => answered .done p p' hp
    | enqueue slot level set =>
      simp only [Queues.perform]
      split
      · exact .fault _
      · exact looked slot fun slot =>
          (h.enqueue slot level set).bind fun p p' hp => answered .done p p' hp
    | dequeue slot => exact looked slot fun slot => answered .done _ _ (h.remove slot)
    | drain source target set skip =>
      refine (h.drain source target set skip).bind ?_
      rintro ⟨count, p⟩ ⟨count', p'⟩ ⟨rfl, hp⟩
      exact answered (.count count) p p' hp
    | setQuantum level set value =>
      exact (h.setQuantum level set value).bind fun p p' hp => answered .done p p' hp
    | charge level set =>
      refine (h.charge level set).bind ?_
      rintro ⟨left, p⟩ ⟨left', p'⟩ ⟨rfl, hp⟩
      exact answered (.ticks left) p p' hp
    | quantum level set =>
      simp only [Queues.perform, h.quantum_eq]
      exact (Matches.refl _).bind fun left _ heq => heq ▸ answered (.ticks left) q q' h
    | linked slot =>
      refine looked slot fun slot => ?_
      rw [h.isLinked_eq]
      exact answered _ q q' h
    | location slot =>
      refine looked slot fun slot => ?_
      rw [h.location_eq]
      exact answered _ q q' h
    | ends level set =>
      simp only [Queues.perform, h.lane_eq]
      exact (Matches.refl _).bind fun lane _ heq => heq ▸ answered _ q q' h
    | members level set =>
      simp only [Queues.perform, h.lane_eq, h.members_eq]
      exact (Matches.refl _).bind fun _ _ _ => answered _ q q' h
    | decision level home left =>
      simp only [Queues.perform, h.decision_eq]
      exact (Matches.refl _).bind fun decision _ heq => heq ▸ answered (.decision decision) q q' h

/-- No run tells the queues apart: it faults in both or in neither, and is answered the same. -/
theorem performAll (h : q.Alike q') {commands commands' : List QueueCommand}
    (hc : List.Forall₂ QueueCommand.Counterpart commands commands') :
    Matches AnsweredAlike (q.performAll commands) (q'.performAll commands') := by
  induction hc generalizing q q' with
  | nil => exact .value ⟨rfl, h⟩
  | cons hone _ ih =>
    refine (h.perform hone).bind ?_
    rintro ⟨answer, p⟩ ⟨answer', p'⟩ ⟨rfl, hp⟩
    refine (ih hp).bind ?_
    rintro ⟨answers, r⟩ ⟨answers', r'⟩ ⟨rfl, hr⟩
    exact .value ⟨rfl, hr⟩

end Alike

/-- Nothing that can be seen of some queues tells them from others: not their members, ends and
ticks, not the place of any slot, not the link of a slot in a queue, not the audit, and not where a
yielding process is sent. -/
structure LooksAlike (q q' : Queues levels nproc) : Prop where
  members : ∀ level set, q.members level set = q'.members level set
  lane : ∀ level set, q.lane level set = q'.lane level set
  quantum : ∀ level set, q.quantum level set = q'.quantum level set
  location : ∀ slot, q.location slot = q'.location slot
  isLinked : ∀ slot, q.isLinked slot = q'.isLinked slot
  link : ∀ slot, q.isLinked slot = true → q.link slot = q'.link slot
  audit : q.audit = q'.audit
  decision : ∀ level home left, q.decision level home left = q'.decision level home left

theorem Alike.looksAlike {q q' : Queues levels nproc} (h : q.Alike q') : q.LooksAlike q' where
  members := h.members_eq
  lane := h.lane_eq
  quantum := h.quantum_eq
  location := h.location_eq
  isLinked := h.isLinked_eq
  link := h.link_eq
  audit := h.audit_eq
  decision := h.decision_eq

/-- Stale flags cannot be observed.  Of two queues that differ in the flags of slots in no queue
only, well-formed or not, let the same commands be asked, but for what an exchange is told of the
slots that hold a process.  After any number of them both have met the same fault, or both have
given the same answers and look the same. -/
theorem performAll_ignores_stale_flags {q q' : Queues levels nproc} (halike : q.Alike q')
    {commands commands' : List QueueCommand}
    (hsame : List.Forall₂ QueueCommand.Counterpart commands commands') (n : Nat) :
    Matches (fun x y => x.1 = y.1 ∧ x.2.LooksAlike y.2)
      (q.performAll (commands.take n)) (q'.performAll (commands'.take n)) :=
  (halike.performAll (List.forall₂_take n hsame)).mono fun _ _ hxy => ⟨hxy.1, hxy.2.looksAlike⟩

/-- A process whose flag is stale is queued again, sinks with its level, and leaves. -/
def queuedAgain (live : List Nat) : List QueueCommand :=
  [.swap live, .enqueue 0 1 .active, .charge 1 .active, .drain 1 0 .expired none, .swap live,
    .dequeue 0, .reset 0 1]

theorem queuedAgain_ignores_stale_flags :
    (empty 2 2 10).swap (fun _ => true) ≠ (empty 2 2 10).swap (fun _ => false) ∧
      Matches (fun x y => x.1 = y.1 ∧ x.2.LooksAlike y.2)
        (((empty 2 2 10).swap fun _ => true).performAll ((queuedAgain [0, 1]).take 6))
        (((empty 2 2 10).swap fun _ => false).performAll ((queuedAgain []).take 6)) := by
  have hsame : List.Forall₂ QueueCommand.Counterpart (queuedAgain [0, 1]) (queuedAgain []) :=
    .cons (.swap ..) (.cons (.same nofun) (.cons (.same nofun) (.cons (.same nofun)
      (.cons (.swap ..) (.cons (.same nofun) (.cons (.same nofun) .nil))))))
  exact ⟨by decide +kernel, performAll_ignores_stale_flags ((Alike.refl _).swap _ _) hsame 6⟩

end Queues

end FeedbackQueue
