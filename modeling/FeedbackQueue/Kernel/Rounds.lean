import FeedbackQueue.Kernel.Pick
import FeedbackQueue.Kernel.Report

/-!
# Rounds of the dispatch loop

A round turns interrupts on, picks a process, marks it running, lets it have its turn and takes the
CPU back.  When nothing is runnable the round is idle and the CPU waits for an interrupt.

The lock of the process crosses the switch: the loop takes it and forgets the guard, the process
releases it when its turn starts, takes it again before it gives the CPU back, and the loop releases
it.  `beginRound` and `endRound` are the loop's share, `startTurn` and `finishTurn` that of the
process; what happens in between is the turn, and `dispatchOnce` puts the four around it.
-/

namespace FeedbackQueue.Kernel

variable {cfg : Config}

/-- Waits for an interrupt, which takes until the next tick. -/
def waitForInterrupt : Kernel cfg Unit :=
  modifyHardware fun m => { m with ticks := m.ticks + 1, idleWaits := m.idleWaits + 1 }

/-- Marks the process that was picked as running, and releases the lock it came with. -/
def assign (cpu : Nat) (slot : Fin cfg.maxProcs) : Kernel cfg Unit := do
  let picked ← record slot
  if picked.state ≠ .runnable then throw (.picked picked.pid picked.state)
  enter slot .running
  setCurrent cpu (some slot)
  count .pick
  note (.dispatched cpu picked.pid)
  release (.process slot)

/-- Switches a CPU to a process, whose lock stays held without a guard. -/
def switchTo (cpu : Nat) (slot : Fin cfg.maxProcs) : Kernel cfg Unit := do
  acquire (.process slot)
  modifyHardware fun m => { m with switches := m.switches.push (cpu, slot) }
  modify fun s => { s with locks := s.locks.forget (.process slot) }

/-- The first half of a round: picks a process and hands the CPU to it.  Answers nothing when the
round is idle. -/
def beginRound (cpu : Nat) : Kernel cfg (Option (Fin cfg.maxProcs)) := do
  modify fun s => { s with locks := s.locks.enable }
  match ← pick cpu with
  | none =>
    count .idle
    waitForInterrupt
    return none
  | some slot =>
    assign cpu slot
    reportDispatch
    switchTo cpu slot
    return some slot

/-- The process starts its turn by releasing the lock that was handed to it. -/
def startTurn (slot : Fin cfg.maxProcs) : Kernel cfg Unit :=
  modify fun s => { s with locks := s.locks.forceRelease (.process slot) }

/-- The process finishes its turn with its lock held, and nobody to drop the guard. -/
def finishTurn (slot : Fin cfg.maxProcs) : Kernel cfg Unit := do
  acquire (.process slot)
  modify fun s => { s with locks := s.locks.forget (.process slot) }

/-- The second half of a round: the CPU runs nothing, and the lock of the process is released. -/
def endRound (cpu : Nat) (slot : Fin cfg.maxProcs) : Kernel cfg Unit := do
  setCurrent cpu none
  modify fun s => { s with locks := s.locks.forceRelease (.process slot) }

variable {m : Type → Type} [Monad m] [MonadLiftT (Kernel cfg) m]

/-- One round.  Answers the process that had its turn, or nothing when the round was idle. -/
def dispatchOnce (cpu : Nat) (turn : Fin cfg.maxProcs → m Unit) :
    m (Option (Fin cfg.maxProcs)) := do
  match ← (beginRound cpu : Kernel cfg _) with
  | none => return none
  | some slot =>
    (startTurn slot : Kernel cfg Unit)
    turn slot
    (finishTurn slot : Kernel cfg Unit)
    (endRound cpu slot : Kernel cfg Unit)
    return some slot

/-- Rounds one after another. -/
def dispatchMany (cpu : Nat) (turn : Fin cfg.maxProcs → m Unit) :
    Nat → m (List (Option (Fin cfg.maxProcs)))
  | 0 => return []
  | rounds + 1 => do
    let first ← dispatchOnce cpu turn
    return first :: (← dispatchMany cpu turn rounds)

/-- The dispatch loop, for so many rounds. -/
def dispatchLoop (cpu : Nat) (turn : Fin cfg.maxProcs → m Unit) (rounds : Nat) : m Unit := do
  (note (.entered cpu) : Kernel cfg Unit)
  discard (dispatchMany cpu turn rounds)

end FeedbackQueue.Kernel
