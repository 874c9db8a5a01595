import FeedbackQueue.Proofs.Queue.Moves
import FeedbackQueue.Queue.Decision

/-!
# What a decision promises

A process of an existing level is always sent to an existing level, and the processes that follow it
are never sent back to the queue that they leave.
-/

namespace FeedbackQueue.Queues

variable {levels nproc : Nat} {q : Queues levels nproc} {level home : Nat} {left : Int32}

/-- The level that takes a process over lies below, and exists. -/
theorem lowerLevel?_eq_some {lower : Nat} (h : q.lowerLevel? level = some lower) :
    level < lower ∧ lower < levels := by
  have htest := List.find?_some h
  have hmem := List.mem_of_find?_eq_some h
  simp only [Bool.and_eq_true, decide_eq_true_eq] at htest
  exact ⟨htest.1, List.mem_range.mp hmem⟩

/-- A decision is made for every existing level. -/
theorem exists_decision (hl : level < levels) (home : Nat) (left : Int32) :
    ∃ d, q.decision level home left = .ok d := by
  rw [decision, quantum_eq_of_lane? _ _ _ _ (q.lane?_of_lt .active hl)]
  exact ⟨_, rfl⟩

/-- A decision stays, moves to a lower level that has ticks left, or moves home to the expired
set. -/
theorem decision_cases {d : Decision} (h : q.decision level home left = .ok d) :
    (d.level = level ∧ d.set = .active ∧ d.replenish = false ∧ d.cascade = false) ∨
      (q.lowerLevel? level = some d.level ∧ d.set = .active ∧ d.replenish = true) ∨
      (q.lowerLevel? level = none ∧ d.level = home ∧ d.set = .expired ∧ d.replenish = true) := by
  unfold decision at h
  cases hq : q.quantum level .active with
  | error fault =>
    rw [hq] at h
    cases h
  | ok shared =>
    rw [hq] at h
    simp only [Except.map, Except.ok.injEq] at h
    split at h
    · subst h
      exact .inl ⟨rfl, rfl, rfl, rfl⟩
    · cases hlower : q.lowerLevel? level with
      | some lower =>
        rw [hlower] at h
        subst h
        exact .inr (.inl ⟨rfl, rfl, rfl⟩)
      | none =>
        rw [hlower] at h
        subst h
        exact .inr (.inr ⟨rfl, rfl, rfl, rfl⟩)

/-- Whether the ticks of a queue are used up. -/
def isSpent (q : Queues levels nproc) (level : Nat) (set : QueueSet) : Bool :=
  (q.lane? level set).any fun lane => lane.quantum ≤ 0

/-- The budget is filled exactly when it is used up, or the ticks of the active queue are. -/
theorem decision_replenish_iff {d : Decision} (h : q.decision level home left = .ok d)
    (hl : level < levels) :
    d.replenish = true ↔ left ≤ 0 ∨ q.isSpent level .active = true := by
  have hlane := q.lane?_of_lt .active hl
  simp only [decision, quantum_eq_of_lane? _ _ _ _ hlane, Except.map, Except.ok.injEq] at h
  rw [isSpent, hlane, Option.any_some, decide_eq_true_eq]
  split at h
  case isTrue hstays =>
    simp only [Bool.and_eq_true, Bool.not_eq_true', decide_eq_false_iff_not, decide_eq_true_eq]
      at hstays
    subst h
    simp [Int32.not_le.mpr hstays.2, hstays.1]
  case isFalse hleaves =>
    simp only [Bool.and_eq_true, Bool.not_eq_true', decide_eq_false_iff_not, decide_eq_true_eq,
      not_and_or, not_not, Int32.not_lt] at hleaves
    cases hlower : q.lowerLevel? level with
    | some lower =>
      rw [hlower] at h
      subst h
      exact iff_of_true rfl hleaves.symm
    | none =>
      rw [hlower] at h
      subst h
      exact iff_of_true rfl hleaves.symm

theorem decision_level_lt {d : Decision} (h : q.decision level home left = .ok d)
    (hl : level < levels) (hhome : home < levels) : d.level < levels := by
  obtain ⟨hlevel, -⟩ | ⟨hlower, -⟩ | ⟨-, hlevel, -⟩ := decision_cases h
  · exact hlevel ▸ hl
  · exact (lowerLevel?_eq_some hlower).2
  · exact hlevel ▸ hhome

/-- A level that is drained into the active set is not drained onto itself. -/
theorem decision_level_ne {d : Decision} (h : q.decision level home left = .ok d)
    (hcascade : d.cascade = true) (hset : d.set = .active) : d.level ≠ level := by
  obtain ⟨-, -, -, hno⟩ | ⟨hlower, -⟩ | ⟨-, -, hexpired, -⟩ := decision_cases h
  · rw [hno] at hcascade
    cases hcascade
  · exact Nat.ne_of_gt (lowerLevel?_eq_some hlower).1
  · rw [hexpired] at hset
    cases hset

end FeedbackQueue.Queues
