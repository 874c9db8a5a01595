/-!
# Process states

The life of a table slot as the scheduler sees it.  A slot is claimed, made runnable, dispatched,
and from the CPU it goes back to runnable, to sleep, or to its end; a slot that has ended, or whose
creation was abandoned, is free again.

* `ProcState.number`, `ProcState.word` — the two written forms;
* `ProcState.mayBecome` — the changes of state that are allowed.
-/

namespace FeedbackQueue

/-- State of a table slot. -/
inductive ProcState
  /-- The slot is free. -/
  | unused
  /-- The slot is claimed and its process is not yet runnable. -/
  | used
  /-- The process waits on a channel. -/
  | sleeping
  /-- The process waits for a CPU. -/
  | runnable
  /-- The process has a CPU. -/
  | running
  /-- The process has exited and waits to be reaped. -/
  | zombie
  deriving DecidableEq, Repr

namespace ProcState

/-- The number of a state in queue dumps. -/
def number : ProcState → Nat
  | unused => 0
  | used => 1
  | sleeping => 2
  | runnable => 3
  | running => 4
  | zombie => 5

/-- The state with a given number. -/
def ofNumber? : Nat → Option ProcState
  | 0 => some unused
  | 1 => some used
  | 2 => some sleeping
  | 3 => some runnable
  | 4 => some running
  | 5 => some zombie
  | _ => none

/-- The word for a state, at most six characters so that listings line up. -/
def word : ProcState → String
  | unused => "unused"
  | used => "used"
  | sleeping => "sleep"
  | runnable => "runble"
  | running => "run"
  | zombie => "zombie"

/-- Only a runnable process may be picked. -/
def isSchedulable : ProcState → Bool
  | runnable => true
  | _ => false

/-- A slot holds a process in every state but `unused`. -/
def isLive : ProcState → Bool
  | unused => false
  | _ => true

/-- The allowed changes of state: claim, first activation, dispatch, yield, sleep, exit, wakeup,
reaping, and a creation that is rolled back. -/
def mayBecome : ProcState → ProcState → Bool
  | unused, used => true
  | used, runnable => true
  | runnable, running => true
  | running, runnable => true
  | running, sleeping => true
  | running, zombie => true
  | sleeping, runnable => true
  | zombie, unused => true
  | used, unused => true
  | _, _ => false

end ProcState

end FeedbackQueue
