import FeedbackQueue.Config
import Mathlib.Tactic.SplitIfs

/-!
# Valid configurations

What a configuration without a flaw promises.
-/

namespace FeedbackQueue.Config

variable {c : Config}

theorem isValid_iff : c.IsValid ↔ 0 < c.levels ∧ 0 < c.levelQuantum ∧ 0 < c.procQuantum ∧
    c.startLevel < c.levels ∧ 0 < c.maxProcs ∧ 0 < c.ncpu ∧
    (c.policy = .roundRobin → c.levels = 1) := by
  unfold IsValid flaw?
  constructor
  · intro h
    split_ifs at h with h₁ h₂ h₃ h₄ h₅ h₆ h₇
    exact ⟨Nat.pos_of_ne_zero h₁, Int32.not_le.mp h₂, Int32.not_le.mp h₃, Nat.lt_of_not_le h₄,
      Nat.pos_of_ne_zero h₅, Nat.pos_of_ne_zero h₆, by simpa using h₇⟩
  · rintro ⟨h₁, h₂, h₃, h₄, h₅, h₆, h₇⟩
    rw [if_neg (Nat.ne_of_gt h₁), if_neg (Int32.not_le.mpr h₂), if_neg (Int32.not_le.mpr h₃),
      if_neg (Nat.not_le.mpr h₄), if_neg (Nat.ne_of_gt h₅), if_neg (Nat.ne_of_gt h₆),
      if_neg (by simpa using h₇)]

/-- Only the table scan keeps no queues: feedback on a single level still keeps one. -/
theorem usesQueues_iff : c.effectivePolicy.usesQueues = true ↔ c.policy ≠ .fifo := by
  unfold effectivePolicy
  split_ifs with h
  · simp [h.1, Policy.usesQueues]
  · cases c.policy <;> simp [Policy.usesQueues]

namespace IsValid

variable (h : c.IsValid)
include h

theorem levels_pos : 0 < c.levels :=
  (isValid_iff.mp h).1

theorem procQuantum_pos : 0 < c.procQuantum :=
  (isValid_iff.mp h).2.2.1

theorem startLevel_lt : c.startLevel < c.levels :=
  (isValid_iff.mp h).2.2.2.1

theorem maxProcs_pos : 0 < c.maxProcs :=
  (isValid_iff.mp h).2.2.2.2.1

/-- Round robin has a single level, whether it was asked for or not. -/
theorem levels_of_roundRobin (hp : c.effectivePolicy = .roundRobin) : c.levels = 1 := by
  unfold effectivePolicy at hp
  split_ifs at hp with hone
  · exact hone.2
  · exact (isValid_iff.mp h).2.2.2.2.2.2 hp

end IsValid

/-- The smallest configuration with feedback.  Its processes start on the lower level, and one tick
uses up their budget. -/
def smallest : Config where
  policy := .feedback
  levels := 2
  levelQuantum := 10
  procQuantum := 1
  startLevel := 1
  maxProcs := 1
  ncpu := 1

/-- The slot of the smallest configuration. -/
def onlySlot : Fin smallest.maxProcs :=
  ⟨0, by decide⟩

/-- Two processes on two CPUs, with feedback.  One tick uses up a level, and two use up a budget. -/
def paired : Config where
  policy := .feedback
  levels := 2
  levelQuantum := 1
  procQuantum := 2
  startLevel := 0
  maxProcs := 2
  ncpu := 2

/-- The first slot of the paired configuration. -/
def firstSlot : Fin paired.maxProcs :=
  ⟨0, by decide⟩

/-- The second slot of the paired configuration. -/
def secondSlot : Fin paired.maxProcs :=
  ⟨1, by decide⟩

/-- Two processes on a CPU, without queues. -/
def tabled : Config where
  policy := .fifo
  levels := 1
  levelQuantum := 1
  procQuantum := 1
  startLevel := 0
  maxProcs := 2
  ncpu := 1

/-- The slot of a table of two that a scan comes to first. -/
def leftSlot : Fin tabled.maxProcs :=
  ⟨0, by decide⟩

/-- The other slot of a table of two. -/
def rightSlot : Fin tabled.maxProcs :=
  ⟨1, by decide⟩

theorem isValid_tabled : tabled.IsValid := by
  decide

theorem left_ne_right : leftSlot ≠ rightSlot := by
  decide

theorem eq_left_or_right (slot : Fin tabled.maxProcs) : slot = leftSlot ∨ slot = rightSlot := by
  decide +revert

end FeedbackQueue.Config
