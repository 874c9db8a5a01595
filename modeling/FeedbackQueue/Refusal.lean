import FeedbackQueue.Process.Record

/-!
# Refusals

A refusal is a failure that the caller can deal with.  It leaves the scheduler as it was.

`Refusal.message` says what failed and `Refusal.hint` what to do about it; every refusal but that of
a configuration is recoverable.
-/

namespace FeedbackQueue

/-- What can be wrong with a configuration. -/
inductive ConfigFlaw
  /-- A number in the boot line is malformed or out of range. -/
  | malformedNumber
  /-- There is no level. -/
  | noLevels
  /-- The budget of a level is not positive. -/
  | levelQuantum
  /-- The budget of a process is not positive. -/
  | procQuantum
  /-- The starting level does not exist. -/
  | startLevel
  /-- The process table has no slot. -/
  | noSlots
  /-- There is no CPU. -/
  | noCpus
  /-- Round robin has one level only. -/
  | roundRobinLevels
  /-- A reason stated by whoever refuses the configuration. -/
  | stated (reason : String)
  deriving DecidableEq, Repr

/-- The wording of a flaw. -/
def ConfigFlaw.reason : ConfigFlaw → String
  | malformedNumber => "malformed number in boot arguments"
  | noLevels => "levels must be at least 1"
  | levelQuantum => "level quantum must be positive"
  | procQuantum => "process quantum must be positive"
  | startLevel => "starting level must be below levels"
  | noSlots => "process table cannot be empty"
  | noCpus => "at least one CPU is required"
  | roundRobinLevels => "round robin runs on a single level"
  | stated reason => reason

/-- A failure that is reported to the caller. -/
inductive Refusal
  /-- Every slot of the table is taken. -/
  | tableFull (slots : Nat)
  /-- No live process carries the pid. -/
  | noSuchProcess (pid : Pid)
  /-- The process has not exited. -/
  | notZombie (pid : Pid)
  /-- The priority names no level. -/
  | invalidPriority (value levels : Nat)
  /-- The configuration cannot be used. -/
  | invalidConfig (flaw : ConfigFlaw)
  deriving DecidableEq, Repr

namespace Refusal

/-- What failed. -/
def message : Refusal → String
  | tableFull slots => s!"Process table full: {slots} slots in use"
  | noSuchProcess pid => s!"Process {pid} not found"
  | notZombie pid => s!"Process {pid} has not exited"
  | invalidPriority value levels => s!"Invalid priority {value}: must be below {levels}"
  | invalidConfig flaw => "Invalid scheduler config: " ++ flaw.reason

/-- What the caller can do about it. -/
def hint : Refusal → String
  | tableFull _ => "Wait for processes to exit and be reaped"
  | noSuchProcess _ => "Process may have already been reaped"
  | notZombie _ => "Wait for the process to exit first"
  | invalidPriority _ _ => "Pick a level below the configured level count"
  | invalidConfig _ => "Check the sched= boot arguments"

/-- A scheduler without a configuration cannot go on; all else can be tried again. -/
def isRecoverable : Refusal → Bool
  | invalidConfig _ => false
  | _ => true

end Refusal

end FeedbackQueue
