import FeedbackQueue.Kernel.Machine
import FeedbackQueue.Queue.Decision

/-!
# The end of a turn

A process gives the CPU back by yielding, by going to sleep or by exiting.  Each of the three moves
it out of the running state under its own lock and then suspends it; a process is suspended with
exactly that lock held and interrupts off.

* `yieldNow` — requeues the process and makes it runnable again;
* `sleep` — waits on a channel, and stays in its queue;
* `exit` — leaves the queues and becomes a zombie.
-/

namespace FeedbackQueue

/-- How a turn ends. -/
inductive Ending
  | yield
  | sleep (channel : Nat)
  | exit (status : Int32)
  deriving DecidableEq, Repr

namespace Kernel

variable {cfg : Config}

/-- The process that a CPU runs; a turn call on any other CPU is a fault. -/
def expectCurrent (cpu : Nat) (call : TurnCall) : Kernel cfg (Fin cfg.maxProcs) := do
  match ← current cpu with
  | some slot => return slot
  | none => throw (.noCurrent call cpu)

/-- Gives the CPU back to the dispatch loop.  The caller holds the lock of the process and has moved
it out of the running state. -/
def suspend (slot : Fin cfg.maxProcs) : Kernel cfg Unit := do
  let r ← record slot
  if r.state = .running then throw (.suspendRunning r.pid)
  let locks := (← get).locks
  if locks.depth ≠ 1 then throw (.suspendHolding locks.depth)
  if locks.interrupts.enabled then throw .suspendInterruptible

/-! ## Yield -/

/-- Drains the level of a yielding process, if the decision says so. -/
def cascade (slot : Fin cfg.maxProcs) (pid : Pid) (level : Nat) (decision : Decision) :
    Kernel cfg Unit := do
  if decision.cascade then
    let (moved, drained) ← ofExcept
      ((← queues).drain level decision.level decision.set (some slot.val))
    setQueues drained
    count (.cascade moved)
    note (.cascaded level moved pid decision.set decision.level)

/-- Counts a yield that moves the process away from its level. -/
def countMove (level : Nat) (decision : Decision) : Kernel cfg Unit :=
  if decision.set = .expired then count .expiration
  else if decision.level ≠ level then count .demotion
  else return ()

/-- Requeues a yielding process under feedback.  Answers whether its budget is filled again. -/
def requeueYielding (slot : Fin cfg.maxProcs) : Kernel cfg Bool := do
  let r ← peek slot
  locked .queues do
    let q ← queues
    match q.location slot with
    | none => throw (.notQueued r.pid)
    | some (level, _) =>
      let decision ← ofExcept (q.decision level (q.link slot).home r.quantum)
      cascade slot r.pid level decision
      countMove level decision
      setQueues (← ofExcept ((← queues).enqueue slot decision.level decision.set))
      return decision.replenish

/-- Requeues a yielding process.  Answers whether its budget is filled again; the table scan keeps
no queues and fills no budget. -/
def requeue (slot : Fin cfg.maxProcs) : Kernel cfg Bool :=
  match cfg.effectivePolicy with
  | .fifo => return false
  | .roundRobin => do
    queueAtHome slot
    return true
  | .feedback => requeueYielding slot

/-- Makes a process that yields runnable again and suspends it. -/
def standBy (slot : Fin cfg.maxProcs) (replenish : Bool) : Kernel cfg Unit := do
  if replenish then adjust slot fun r => { r with quantum := cfg.procQuantum }
  enter slot .runnable
  suspend slot

/-- The process that a CPU runs yields. -/
def yieldNow (cpu : Nat) : Kernel cfg Unit := do
  let slot ← expectCurrent cpu .yield
  count .yield
  let replenish ← requeue slot
  locked (.process slot) (standBy slot replenish)

/-! ## Sleep -/

/-- Puts a process to sleep on a channel and suspends it. -/
def fallAsleep (slot : Fin cfg.maxProcs) (channel : Nat) : Kernel cfg Unit := do
  adjust slot fun r => { r with channel := some channel }
  enter slot .sleeping
  note (.slept (← record slot).pid channel)
  suspend slot

/-- The process that a CPU runs goes to sleep on a channel.  The caller holds `guard`, the lock of
the condition; it is released once the process is locked, so that no wakeup is missed, and taken
again afterwards. -/
def sleep (cpu channel : Nat) (guard : LockName) : Kernel cfg Unit := do
  let slot ← expectCurrent cpu .sleep
  locked (.process slot) do
    release guard
    fallAsleep slot channel
  acquire guard

/-- Goes to sleep on a channel with a condition lock of its own. -/
def sleepOn (cpu channel : Nat) : Kernel cfg Unit :=
  locked .condition (sleep cpu channel .condition)

/-! ## Exit -/

/-- Makes a process a zombie with a status and suspends it. -/
def becomeZombie (slot : Fin cfg.maxProcs) (status : Int32) : Kernel cfg Unit := do
  adjust slot fun r => { r with exitStatus := status }
  enter slot .zombie
  count .exit
  note (.exited (← record slot).pid status)
  suspend slot

/-- The process that a CPU runs exits.  It leaves the queues before it becomes a zombie. -/
def exit (cpu : Nat) (status : Int32) : Kernel cfg Unit := do
  let slot ← expectCurrent cpu .exit
  if cfg.effectivePolicy.usesQueues then
    withQueues fun q => .ok ((), q.remove slot)
  locked (.process slot) (becomeZombie slot status)

/-- Ends the turn of the process that a CPU runs. -/
def endTurn (cpu : Nat) : Ending → Kernel cfg Unit
  | .yield => yieldNow cpu
  | .sleep channel => sleepOn cpu channel
  | .exit status => exit cpu status

end Kernel

end FeedbackQueue
