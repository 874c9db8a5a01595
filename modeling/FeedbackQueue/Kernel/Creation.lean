import FeedbackQueue.Kernel.Machine

/-!
# Creating and reaping processes

A process is created in a free slot, becomes runnable when it is activated, and leaves its slot when
it is reaped after its exit.  A creation or reaping that cannot be done is refused and changes
nothing.
-/

namespace FeedbackQueue.Kernel

variable {cfg : Config}

/-- The level that a priority names; without a priority it is the starting level. -/
def homeLevel (cfg : Config) (priority : Option Nat) : Except Refusal Nat :=
  match priority with
  | none => .ok cfg.startLevel
  | some level =>
    if level < cfg.levels then .ok level else .error (.invalidPriority level cfg.levels)

/-- Claims the first free slot for a fresh process, whose lock stays held. -/
def claim : Kernel cfg (Option (Fin cfg.maxProcs)) := do
  let found ← seize Table.isFree (allSlots cfg)
  if let some slot := found then
    modifyScheduler fun s => { s with table := s.table.claim slot }
  return found

/-- Gives a slot a fresh link with a home level. -/
def resetLink (slot : Fin cfg.maxProcs) (home : Nat) : Kernel cfg Unit :=
  withQueues fun q => (q.reset slot home).map fun q => ((), q)

/-- Makes a fresh process runnable, under its lock. -/
def makeFirstRunnable (slot : Fin cfg.maxProcs) : Kernel cfg Unit :=
  locked (.process slot) do
    let fresh ← record slot
    if fresh.state ≠ .used then throw (.notFresh fresh.pid fresh.state)
    enter slot .runnable

/-- Creates a process, which is not runnable before it is activated. -/
def create (name : String) (priority : Option Nat) (parent : Option Pid) :
    Kernel cfg (Except Refusal (Fin cfg.maxProcs)) := do
  match homeLevel cfg priority with
  | .error refusal => return .error refusal
  | .ok level =>
    match ← claim with
    | none => return .error (.tableFull cfg.maxProcs)
    | some slot =>
      adjust slot fun r => { r with name, quantum := cfg.procQuantum, parent }
      let pid := (← record slot).pid
      release (.process slot)
      resetLink slot level
      note (.created pid name level)
      return .ok slot

/-- Makes a freshly created process runnable and queues it at its home level. -/
def activate (slot : Nat) : Kernel cfg Unit := do
  let slot ← slotAt slot
  makeFirstRunnable slot
  if cfg.effectivePolicy.usesQueues then queueAtHome slot
  count .fork

/-- Creates a process and makes it runnable. -/
def fork (name : String) (priority : Option Nat) (parent : Option Pid) :
    Kernel cfg (Except Refusal (Fin cfg.maxProcs)) := do
  match ← create name priority parent with
  | .error refusal => return .error refusal
  | .ok slot =>
    activate slot
    return .ok slot

/-- Frees the slot of a process that has exited, and answers its pid and status. -/
def reap (slot : Nat) : Kernel cfg (Except Refusal (Pid × Int32)) := do
  let slot ← slotAt slot
  locked (.process slot) do
    let r ← record slot
    if r.state ≠ .zombie then
      return .error (.notZombie r.pid)
    adjust slot fun _ => .vacant
    return .ok (r.pid, r.exitStatus)

/-- Asks the process in a slot to end. -/
def setKilled (slot : Nat) : Kernel cfg Unit := do
  let slot ← slotAt slot
  locked (.process slot) (adjust slot fun r => { r with killed := true })

end FeedbackQueue.Kernel
