import FeedbackQueue.Kernel.Machine

/-!
# Waking and killing

A sleeper is woken in two steps: it is made runnable under its own lock, and then it is put at the
tail of the active queue of its level.  Between the two its lock is free.  Other CPUs may act in
that *window*; they may even dispatch the process, let it exit and reap it.  So the second step
looks at pid and state again, and does nothing for a process that no longer waits for a CPU.  Under
the table scan there is no queue to put it in, but the window is there all the same.

`wakeup` and `kill` are written for an arbitrary activity in the window.
-/

namespace FeedbackQueue.Kernel

variable {cfg : Config}

/-- Whether a record is that of a sleeper on a channel. -/
def sleepsOn (channel : Nat) (r : Record) : Bool :=
  r.state = .sleeping && r.channel = some channel

/-- Makes a sleeper runnable, with its lock held.  Round robin fills its budget. -/
def makeRunnable (slot : Fin cfg.maxProcs) : Kernel cfg Unit := do
  enter slot .runnable
  adjust slot fun r => { r with channel := none }
  if cfg.effectivePolicy = .roundRobin then
    adjust slot fun r => { r with quantum := cfg.procQuantum }
  count .wakeup

/-- Puts a woken process at the tail of the active queue of its level, which is its home level when
it is in no queue.  Does nothing when there are no queues, or when the slot no longer holds the
process waiting for a CPU. -/
def requeueWoken (slot : Fin cfg.maxProcs) (pid : Pid) : Kernel cfg Unit := do
  if cfg.effectivePolicy.usesQueues then
    locked .queues do
      locked (.process slot) do
        let r ← record slot
        if r.pid ≠ pid ∨ (r.state ≠ .runnable ∧ r.state ≠ .sleeping) then
          note (.left pid r.state)
        else
          let q ← queues
          let link := q.link slot
          setQueues (← ofExcept (q.enqueue slot (link.level?.getD link.home) .active))

/-- The first step of waking one slot.  Answers the pid of the process that was woken, or nothing
when the slot holds no sleeper on the channel. -/
def wakeSleeper (channel : Nat) (slot : Fin cfg.maxProcs) : Kernel cfg (Option Pid) :=
  locked (.process slot) do
    let r ← record slot
    if sleepsOn channel r then
      makeRunnable slot
      return some r.pid
    else
      return none

/-- Asks a process to end, with its lock held, and wakes it if it sleeps.  Answers whether it
did. -/
def killLocked (slot : Fin cfg.maxProcs) (pid : Pid) : Kernel cfg Bool := do
  adjust slot fun r => { r with killed := true }
  count .kill
  let r ← record slot
  note (.killed pid r.state)
  let woken := r.state = .sleeping
  if woken then makeRunnable slot
  return woken

/-- The first step of a kill: sets the flag and makes a sleeper runnable.  Answers the slot, and
whether the process was woken. -/
def markKilled (pid : Pid) : Kernel cfg (Except Refusal (Fin cfg.maxProcs × Bool)) := do
  match ← seize (Table.answersTo pid) (allSlots cfg) with
  | none => return .error (.noSuchProcess pid)
  | some slot =>
    let woken ← killLocked slot pid
    release (.process slot)
    return .ok (slot, woken)

variable {m : Type → Type} [Monad m]

/-- Wakes the sleepers among some slots, of which `woken` are woken already. -/
def wakeAmong (cfg : Config) [MonadLiftT (Kernel cfg) m] (channel : Nat) (window : Nat → m Unit) :
    Nat → List (Fin cfg.maxProcs) → m Nat
  | woken, [] => return woken
  | woken, slot :: rest => do
    match ← (wakeSleeper channel slot : Kernel cfg _) with
    | none => wakeAmong cfg channel window woken rest
    | some pid =>
      window woken
      (requeueWoken slot pid : Kernel cfg Unit)
      wakeAmong cfg channel window (woken + 1) rest

/-- Wakes every process that sleeps on a channel and answers how many there were.  The activity in
the window of a process may depend on how many were woken before it. -/
def wakeup (cfg : Config) [MonadLiftT (Kernel cfg) m] (channel : Nat) (window : Nat → m Unit) :
    m Nat :=
  wakeAmong cfg channel window 0 (allSlots cfg)

/-- Asks the process with a pid to end, and wakes it if it sleeps. -/
def kill (cfg : Config) [MonadLiftT (Kernel cfg) m] (pid : Pid) (window : m Unit) :
    m (Except Refusal Unit) := do
  match ← (markKilled pid : Kernel cfg _) with
  | .error refusal => return .error refusal
  | .ok (slot, woken) =>
    if woken then
      window
      (requeueWoken slot pid : Kernel cfg Unit)
    return .ok ()

end FeedbackQueue.Kernel
