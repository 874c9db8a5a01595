import FeedbackQueue.Kernel.Machine

/-!
# The timer

A tick is charged to the process that a CPU runs and, under feedback, to the queue it is in.  The
answer says whether the process should yield now; a CPU that runs nothing never should.
-/

namespace FeedbackQueue.Kernel

variable {cfg : Config}

/-- Charges a tick to the budget of a process and answers what is left. -/
def chargeProcess (slot : Fin cfg.maxProcs) : Kernel cfg Int32 :=
  locked (.process slot) do
    adjust slot Record.charge
    return (← record slot).quantum

/-- Charges a tick to the queue that a process is in and answers what is left; a process in no queue
has a tick left. -/
def chargeQueue (slot : Fin cfg.maxProcs) : Kernel cfg Int32 :=
  withQueues fun q =>
    match q.location slot with
    | some (level, set) => q.charge level set
    | none => .ok (1, q)

/-- Charges a tick to the process that a CPU runs. -/
def chargeTick (cpu : Nat) : Kernel cfg Bool := do
  match ← current cpu with
  | none => return false
  | some slot =>
    let left ← chargeProcess slot
    match cfg.effectivePolicy with
    | .fifo => return true
    | .roundRobin => return left ≤ 0
    | .feedback =>
      let shared ← chargeQueue slot
      return left ≤ 0 || shared ≤ 0

/-- Lets the timer go on by one tick and charges it to a CPU. -/
def tick (cpu : Nat) : Kernel cfg Bool := do
  modifyHardware fun m => { m with ticks := m.ticks + 1 }
  chargeTick cpu

end FeedbackQueue.Kernel
