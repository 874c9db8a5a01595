import FeedbackQueue.Process.State

/-!
# Faults

A fault is a broken contract: the caller, or the scheduler itself, did what must never be done, and
the operation does not return.  Recoverable failures are refusals (`FeedbackQueue.Refusal`).

A fault carries its cause; `Fault.message` is the only place where the wording is decided.
-/

namespace FeedbackQueue

/-- The calls that act on behalf of the process that has a CPU. -/
inductive TurnCall
  | yield
  | sleep
  | exit
  deriving DecidableEq, Repr

/-- The name of a call in messages. -/
def TurnCall.word : TurnCall → String
  | .yield => "yield"
  | .sleep => "sleep"
  | .exit => "exit"

/-- The checked operations of machine arithmetic. -/
inductive Arithmetic
  | add
  | subtract
  | multiply
  deriving DecidableEq, Repr

/-- The name of an arithmetic operation in messages. -/
def Arithmetic.word : Arithmetic → String
  | .add => "add"
  | .subtract => "subtract"
  | .multiply => "multiply"

/-- Causes of a fault. -/
inductive Fault
  /-- A process was to be queued at a level that does not exist. -/
  | enqueueLevel (level : Nat)
  /-- A drain named a level that does not exist. -/
  | drainLevel (level : Nat)
  /-- A drain named one active queue as both source and target. -/
  | drainOntoItself (level : Nat)
  /-- A home level that does not exist. -/
  | homeLevel (level : Nat)
  /-- The link of a queued process was to be reset. -/
  | resetLinked
  /-- A slot outside the process table. -/
  | noSuchSlot (slot : Nat)
  /-- A CPU that does not exist. -/
  | noSuchCpu (cpu : Nat)
  /-- Only a freshly created process may be activated. -/
  | notFresh (pid : UInt32) (state : ProcState)
  /-- The pick returned a process that is not runnable. -/
  | picked (pid : UInt32) (state : ProcState)
  /-- A process gives up the CPU while it is still marked running. -/
  | suspendRunning (pid : UInt32)
  /-- A process gives up the CPU while holding more or less than its own lock. -/
  | suspendHolding (locks : Nat)
  /-- A process gives up the CPU with interrupts on. -/
  | suspendInterruptible
  /-- A turn call on a CPU that runs nothing. -/
  | noCurrent (call : TurnCall) (cpu : Nat)
  /-- A yielding process is in no queue. -/
  | notQueued (pid : UInt32)
  /-- A change of state that is not allowed. -/
  | illegalTransition (pid : UInt32) (source target : ProcState)
  /-- An index beyond the end of an array. -/
  | outOfBounds (length index : Nat)
  /-- A result outside the range of its machine type. -/
  | overflow (operation : Arithmetic)
  /-- A lock is taken by a CPU that already holds it, which waits for ever. -/
  | deadlock
  deriving DecidableEq, Repr

namespace Fault

/-- The text that introduces a broken contract of the scheduler. -/
def critical (text : String) : String :=
  "[SCHED CRITICAL] " ++ text

/-- The text that introduces a failed assertion of the scheduler. -/
def violated (text : String) : String :=
  critical ("Invariant violated: " ++ text)

/-- The message of a fault. -/
def message : Fault → String
  | enqueueLevel level => violated s!"enqueue: invalid level {level}"
  | drainLevel level => violated s!"move: invalid level {level}"
  | drainOntoItself level => violated s!"move: level {level} onto itself"
  | homeLevel level => violated s!"original level {level} out of range"
  | resetLinked => violated "reinitializing a linked process"
  | noSuchSlot slot => violated s!"process handle #{slot} out of range"
  | noSuchCpu cpu => violated s!"cpu {cpu} out of range"
  | notFresh pid state =>
    let word := state.word
    violated s!"activate: pid {pid} is {word}, not freshly created"
  | picked pid state =>
    let word := state.word
    violated s!"dispatch: picked pid {pid} in state {word}"
  | suspendRunning pid => violated s!"suspend: pid {pid} still running"
  | suspendHolding locks => violated s!"suspend: {locks} locks held"
  | suspendInterruptible => violated "suspend: interrupts enabled"
  | noCurrent call cpu =>
    let word := call.word
    critical s!"{word}: no current process on cpu {cpu}"
  | notQueued pid => critical s!"yield: pid {pid} is not queued"
  | illegalTransition pid source target =>
    let before := source.word
    let after := target.word
    s!"pid {pid}: illegal transition {before} -> {after}"
  | outOfBounds length index =>
    s!"index out of bounds: the len is {length} but the index is {index}"
  | overflow operation =>
    let word := operation.word
    s!"attempt to {word} with overflow"
  | deadlock => critical "lock taken twice"

end Fault

end FeedbackQueue
