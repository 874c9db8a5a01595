import FeedbackQueue.Policy
import FeedbackQueue.Refusal

/-!
# Configurations

A configuration is fixed at boot.  `Config.flaw?` names the first thing wrong with one, in a fixed
order, and `Config.effectivePolicy` is the policy that is carried out.
-/

namespace FeedbackQueue

/-- The constants of a scheduler. -/
structure Config where
  /-- The policy asked for. -/
  policy : Policy
  /-- Number of priority levels. -/
  levels : Nat
  /-- Ticks shared by the processes of one active queue. -/
  levelQuantum : Int32
  /-- Ticks of one process. -/
  procQuantum : Int32
  /-- Home level of processes created without a priority. -/
  startLevel : Nat
  /-- Number of slots of the process table. -/
  maxProcs : Nat
  /-- Number of CPUs. -/
  ncpu : Nat
  deriving DecidableEq, Repr

namespace Config

/-- The defaults of multi-level feedback. -/
def feedback : Config where
  policy := .feedback
  levels := 3
  levelQuantum := 10
  procQuantum := 4
  startLevel := 0
  maxProcs := 64
  ncpu := 8

/-- The defaults of round robin. -/
def roundRobin : Config :=
  { feedback with policy := .roundRobin, levels := 1 }

/-- The defaults of the table scan. -/
def fifo : Config :=
  { feedback with policy := .fifo, levels := 1 }

/-- The policy that is carried out: feedback on a single level has nowhere to sink to and is round
robin. -/
def effectivePolicy (c : Config) : Policy :=
  if c.policy = .feedback ∧ c.levels = 1 then .roundRobin else c.policy

/-- The first flaw of a configuration. -/
def flaw? (c : Config) : Option ConfigFlaw :=
  if c.levels = 0 then some .noLevels
  else if c.levelQuantum ≤ 0 then some .levelQuantum
  else if c.procQuantum ≤ 0 then some .procQuantum
  else if c.levels ≤ c.startLevel then some .startLevel
  else if c.maxProcs = 0 then some .noSlots
  else if c.ncpu = 0 then some .noCpus
  else if c.policy = .roundRobin ∧ c.levels ≠ 1 then some .roundRobinLevels
  else none

/-- A configuration that can be booted. -/
def IsValid (c : Config) : Prop :=
  c.flaw? = none

instance (c : Config) : Decidable c.IsValid :=
  inferInstanceAs (Decidable (_ = _))

/-- The configuration itself, or the refusal that names its first flaw. -/
def validate (c : Config) : Except Refusal Config :=
  match c.flaw? with
  | none => .ok c
  | some flaw => .error (.invalidConfig flaw)

end Config

end FeedbackQueue
