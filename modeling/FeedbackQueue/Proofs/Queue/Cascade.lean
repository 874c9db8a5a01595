import FeedbackQueue.Proofs.Queue.Decision
import FeedbackQueue.Proofs.Queue.Sound
import Mathlib.Order.Bounds.Defs

/-!
# Queues after a yield

What a yield leaves in each queue, as a list.  A slot that is moved leaves the others in their order
and comes last (`Sequences.relink_eq`); slots that are moved one after another come last in their
own order (`Sequences.relinkAll_eq`).
-/

namespace FeedbackQueue

/-! ## Sequences -/

/-- Who joins a queue first stands in front of those who join after. -/
theorem filter_append_filter_cons {α : Type} [DecidableEq α] (members : List α) {x : α}
    {rest : List α} (h : x ∉ rest) (joins : α → Prop) [DecidablePred joins] :
    (members.filter (· != x) ++ if joins x then [x] else []).filter (· ∉ rest)
        ++ rest.filter (joins ·)
      = members.filter (· ∉ x :: rest) ++ (x :: rest).filter (joins ·) := by
  rw [List.filter_append, List.filter_filter, List.append_assoc, List.filter_cons]
  congr 1
  · refine List.filter_congr fun y _ => ?_
    simp [Bool.and_comm, Bool.decide_and, bne, beq_eq_decide]
  · by_cases hjoins : joins x <;> simp [hjoins, h]

namespace Sequences

variable {nproc : Nat} (s : Sequences nproc) (l : Nat) (t : QueueSet)

theorem relink_eq (slot : Fin nproc) (level : Nat) (set : QueueSet) :
    s.relink slot level set l t
      = (s l t).filter (· != slot) ++ if (level, set) = (l, t) then [slot] else [] := by
  by_cases hhere : l = level ∧ t = set
  · obtain ⟨rfl, rfl⟩ := hhere
    rw [if_pos rfl]
    exact append_self _
  · have hplace : (level, set) ≠ (l, t) := fun h => hhere (by simpa [eq_comm] using h)
    rw [if_neg hplace, List.append_nil]
    exact append_of_ne _ hhere

theorem relinkAll_eq (homes : Fin nproc → Nat) (target : Nat) (set : QueueSet)
    {slots : List (Fin nproc)} (hnodup : slots.Nodup) :
    s.relinkAll homes target set slots l t = (s l t).filter (· ∉ slots) ++
      slots.filter fun slot => (if set = .active then target else homes slot, set) = (l, t) := by
  induction slots generalizing s with
  | nil => simp [relinkAll]
  | cons slot rest ih =>
    -- the first slot is in its place before the others move, so it stays in front of them
    obtain ⟨hslot, hrest⟩ := List.nodup_cons.mp hnodup
    refine (ih _ hrest).trans ?_
    dsimp only
    rw [relink_eq]
    exact filter_append_filter_cons _ hslot
      fun y => (if set = .active then target else homes y, set) = (l, t)

end Sequences

namespace Queues

variable {levels nproc : Nat} {q : Queues levels nproc} {level : Nat} {slot : Fin nproc}

/-! ## Moves -/

theorem members_of_le (q : Queues levels nproc) {l : Nat} (hl : levels ≤ l) (t : QueueSet) :
    q.members l t = [] := by
  rw [members, lane?_eq_none q t hl]

namespace Sound

variable (hq : q.Sound) (slot : Fin nproc) (hlevel : level < levels) (l : Nat) (t : QueueSet)
include hq hlevel

theorem members_relink (set : QueueSet) :
    (q.relink slot level set).members l t
      = (q.members l t).filter (· != slot) ++ if (level, set) = (l, t) then [slot] else [] := by
  by_cases hl : l < levels
  · exact ((hq.spells.relink slot hlevel set).members hl t).trans (Sequences.relink_eq ..)
  · have hl := Nat.not_lt.mp hl
    have hplace : (level, set) ≠ (l, t) := fun h =>
      absurd hlevel (Nat.not_lt.mpr ((Prod.mk.inj h).1 ▸ hl))
    simp [members_of_le _ hl, hplace]

/-- A drain that leaves one slot behind takes all others along. -/
theorem members_drained {target : Nat} (htarget : target < levels) (set : QueueSet) :
    (q.relinkAll target set (q.sequences.movers level (some slot.val))).members l t
      = (if (l, t) = (level, .active) then (q.members l t).filter (· == slot) else q.members l t) ++
        ((q.members level .active).filter (· != slot)).filter fun y =>
          (q.destination target set y, set) = (l, t) := by
  by_cases hl : l < levels
  case neg =>
    have hl := Nat.not_lt.mp hl
    have hplace : ∀ y, (q.destination target set y, set) ≠ (l, t) := by
      intro y h
      have hd := destination_lt (q := q) set htarget hq.home_lt y
      have hlevel : q.destination target set y = l := (Prod.mk.inj h).1
      omega
    simp [members_of_le _ hl, hplace]
  have hmovers : q.sequences.movers level (some slot.val)
      = (q.members level .active).filter (· != slot) :=
    List.filter_congr fun y _ => by simp [bne, beq_eq_decide, eq_comm, Fin.ext_iff]
  have hnodup : ((q.members level .active).filter (· != slot)).Nodup :=
    (hq.spells.nodup level hlevel .active).filter _
  refine ((hq.spells.relinkAll set htarget hq.home_lt _).members hl t).trans ?_
  rw [hmovers, Sequences.relinkAll_eq _ _ _ _ _ _ hnodup]
  congr 1
  split
  case isTrue hhere =>
    obtain ⟨rfl, rfl⟩ := Prod.mk.inj hhere
    refine List.filter_congr fun y hmem => ?_
    have hmember : y ∈ q.members l .active := hmem
    simp [hmember, beq_eq_decide]
  case isFalse hhere =>
    -- who moves was in the drained queue, and nobody is in two queues
    refine List.filter_eq_self.mpr fun y hmem => decide_eq_true fun hmover => hhere ?_
    have hmover : y ∈ q.members level .active := (List.mem_filter.mp hmover).1
    obtain ⟨rfl, rfl⟩ := hq.spells.disjoint l hl level hlevel t .active y hmem hmover
    rfl

end Sound

/-! ## Where slots go -/

/-- Where a slot goes that has to leave a level: to the least lower level whose active queue has
ticks left, or home to the expired set when there is none. -/
def SinksTo (q : Queues levels nproc) (level : Nat) (slot : Fin nproc) (place : Nat × QueueSet) :
    Prop :=
  (∃ lower, IsLeast {l | level < l ∧ l < levels ∧ q.hasTicks l = true} lower ∧
      place = (lower, .active)) ∨
    (∀ l, level < l → l < levels → q.hasTicks l = false) ∧ place = ((q.link slot).home, .expired)

/-- The queue to which a slot sinks. -/
def sink (q : Queues levels nproc) (level : Nat) (slot : Fin nproc) : Nat × QueueSet :=
  match q.lowerLevel? level with
  | some lower => (lower, .active)
  | none => ((q.link slot).home, .expired)

theorem sinksTo_sink (q : Queues levels nproc) (level : Nat) (slot : Fin nproc) :
    q.SinksTo level slot (q.sink level slot) := by
  unfold sink SinksTo
  cases hlower : q.lowerLevel? level with
  | none =>
    refine .inr ⟨fun l hbelow hl => ?_, rfl⟩
    have hnone := List.find?_eq_none.mp hlower l (List.mem_range.mpr hl)
    simpa [hbelow] using hnone
  | some lower =>
    refine .inl ⟨lower, ⟨⟨?_, ?_, ?_⟩, ?_⟩, rfl⟩
    · exact (lowerLevel?_eq_some hlower).1
    · exact (lowerLevel?_eq_some hlower).2
    · have htest := List.find?_some hlower
      simp only [Bool.and_eq_true] at htest
      exact htest.2
    · rintro l ⟨hbelow, hl, hticks⟩
      refine Nat.le_of_not_lt fun hlt => ?_
      have hno := (List.find?_range_eq_some.mp hlower).2.2 l hlt
      simp [hbelow, hticks] at hno

/-- No slot sinks to where it is. -/
theorem sink_ne (q : Queues levels nproc) (level : Nat) (slot : Fin nproc) :
    q.sink level slot ≠ (level, .active) := by
  unfold sink
  cases hlower : q.lowerLevel? level with
  | none => simp
  | some lower =>
    have hbelow := (lowerLevel?_eq_some hlower).1
    simp [Nat.ne_of_gt hbelow]

/-- All slots of a drained level sink to where the slot sinks that yields. -/
theorem destination_sink (q : Queues levels nproc) (level : Nat) (slot y : Fin nproc) :
    (q.destination (q.sink level slot).1 (q.sink level slot).2 y, (q.sink level slot).2)
      = q.sink level y := by
  unfold sink destination
  cases q.lowerLevel? level <;> rfl

/-- A decision follows from the ticks of the active queue and the budget. -/
theorem decision_eq (hl : level < levels) (slot : Fin nproc) (left : Int32) :
    q.decision level (q.link slot).home left
      = .ok (if q.hasTicks level = true ∧ 0 < left then
          { level, set := .active, replenish := false, cascade := false }
        else
          { level := (q.sink level slot).1, set := (q.sink level slot).2, replenish := true,
            cascade := !q.hasTicks level }) := by
  obtain ⟨lane, hlane⟩ : ∃ lane, q.lane? level .active = some lane :=
    ⟨_, q.lane?_of_lt .active hl⟩
  rw [decision, quantum_eq_of_lane? _ _ _ _ hlane, hasTicks, hlane, sink]
  simp only [Except.map, Option.any_some, Except.ok.injEq]
  generalize lane.quantum = shared
  have hspent : decide (shared ≤ 0) = !decide (0 < shared) := by
    rw [← decide_not, decide_eq_decide, Int32.not_lt]
  rw [hspent, Bool.not_not, ← Bool.decide_and]
  by_cases hstays : 0 < shared ∧ 0 < left
  · simp [hstays]
  · rw [if_neg (by simpa using hstays), if_neg (by simpa using hstays)]
    cases q.lowerLevel? level <;> rfl

/-! ## The queues after a yield -/

/-- The queues once a slot has yielded from a level with a budget of `left` ticks, when `sink` is
where slots go that have to leave the level.  The slots that stay in a queue keep their order. -/
structure YieldsTo (q q' : Queues levels nproc) (slot : Fin nproc) (level : Nat) (left : Int32)
    (sink : Fin nproc → Nat × QueueSet) : Prop where
  /-- While slot and level have ticks left, the slot goes to the tail of the level. -/
  stays : q.hasTicks level = true → 0 < left → ∀ l t, q'.members l t
    = (q.members l t).filter (· != slot) ++ if (level, .active) = (l, t) then [slot] else []
  /-- A slot without budget leaves the level. -/
  leaves : q.hasTicks level = true → left ≤ 0 → ∀ l t, q'.members l t
    = (q.members l t).filter (· != slot) ++ if sink slot = (l, t) then [slot] else []
  /-- A level without ticks is left by all. -/
  empties : q.hasTicks level = false → q'.members level .active = []
  /-- Each of the others goes where it has to, in order and before the slot that yields. -/
  drains : q.hasTicks level = false → ∀ l t, (l, t) ≠ (level, .active) → q'.members l t
    = (q.members l t).filter (· != slot) ++
      (((q.members level .active).filter (· != slot)).filter fun y => sink y = (l, t)) ++
      if sink slot = (l, t) then [slot] else []
  ticks : ∀ l t, q'.quantum l t = q.quantum l t
  homes : ∀ y, (q'.link y).home = (q.link y).home

namespace Sound

variable (hq : q.Sound) (slot : Fin nproc) (hl : level < levels)
include hq hl

/-- A level is drained, and the slot that yields follows. -/
theorem members_drained_relink (hsink : (q.sink level slot).1 < levels) (l : Nat) (t : QueueSet) :
    let place := q.sink level slot
    ((q.relinkAll place.1 place.2 (q.sequences.movers level (some slot.val))).relink slot place.1
        place.2).members l t
      = if (l, t) = (level, .active) then [] else (q.members l t).filter (· != slot) ++
          (((q.members level .active).filter (· != slot)).filter fun y =>
            q.sink level y = (l, t)) ++ if place = (l, t) then [slot] else [] := by
  intro place
  have hdrained := hq.relinkAll place.2 hsink (q.sequences.movers level (some slot.val))
  rw [hdrained.members_relink slot hsink l t, hq.members_drained slot hl l t hsink]
  simp only [place, destination_sink, Prod.mk.eta]
  split
  case isTrue hhere =>
    have hnot : ∀ y, q.sink level y ≠ (l, t) := fun y => hhere ▸ q.sink_ne level y
    simp [hnot, List.filter_filter]
  case isFalse hhere =>
    rw [List.filter_append]
    congr 2
    exact List.filter_eq_self.mpr fun y hmem =>
      (List.mem_filter.mp (List.mem_filter.mp hmem).1).2

/-- What is decided on when a slot yields leads to the queues that a yield should leave. -/
theorem yieldsTo {left : Int32} {d : Decision}
    (hd : q.decision level (q.link slot).home left = .ok d) :
    q.YieldsTo ((if d.cascade then
          q.relinkAll d.level d.set (q.sequences.movers level (some slot.val))
        else q).relink slot d.level d.set) slot level left (q.sink level) := by
  have hdl : d.level < levels := decision_level_lt hd hl (hq.home_lt slot)
  have hdecision := hd
  rw [decision_eq hl, Except.ok.injEq] at hdecision
  refine ⟨fun hticks hleft => ?_, fun hticks hleft => ?_, fun hspent => ?_,
    fun hspent l t hne => ?_, fun l t => ?_, fun y => ?_⟩
  · rw [if_pos ⟨hticks, hleft⟩] at hdecision
    subst hdecision
    exact fun l t => hq.members_relink slot hl l t .active
  · rw [if_neg (fun h => absurd h.2 (Int32.not_lt.mpr hleft)), hticks] at hdecision
    subst hdecision
    exact fun l t => hq.members_relink slot hdl l t _
  · rw [if_neg (by simp [hspent]), hspent] at hdecision
    subst hdecision
    exact (hq.members_drained_relink slot hl hdl level .active).trans (if_pos rfl)
  · rw [if_neg (by simp [hspent]), hspent] at hdecision
    subst hdecision
    exact (hq.members_drained_relink slot hl hdl l t).trans (if_neg hne)
  · split <;> simp
  · split <;> simp

end Sound

end Queues

end FeedbackQueue
