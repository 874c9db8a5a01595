import FeedbackQueue.Kernel.Creation

/-!
# Requests to the process table

The process table on its own: slots are claimed, looked at, moved from state to state and freed by
hand, each under the lock of the slot.  `SlotRequest.perform` carries out one request.
-/

namespace FeedbackQueue

/-- What can be asked of the process table. -/
inductive SlotRequest
  /-- Claim the first free slot, and name the process if a name is given. -/
  | claim (name : Option String)
  /-- Move the process in a slot to another state. -/
  | enter (slot : Nat) (target : ProcState)
  /-- Free a slot, whatever it holds. -/
  | vacate (slot : Nat)
  /-- Look at a slot. -/
  | look (slot : Nat)
  /-- Look for the slot of a live process. -/
  | find (pid : Pid)
  /-- Ask for the number of slots. -/
  | size
  deriving DecidableEq, Repr

/-- The answer to a request. -/
inductive SlotAnswer (nproc : Nat)
  /-- There is no free slot. -/
  | full
  /-- A slot was claimed; its lock and the number of masks are as they were with its guard alive. -/
  | claimed (slot : Fin nproc) (record : Record) (held : Bool) (depth : Nat)
  | record (record : Record)
  | looked (slot : Fin nproc) (record : Record)
  /-- A slot was freed; the flag says whether its record is that of a free slot. -/
  | vacated (vacant : Bool)
  | found (slot : Option (Fin nproc))
  | size (slots : Nat)
  deriving DecidableEq, Repr

namespace SlotRequest

open Kernel

variable {cfg : Config}

/-- Carries out a request. -/
def perform : SlotRequest → Kernel cfg (SlotAnswer cfg.maxProcs)
  | .claim name => do
    match ← Kernel.claim with
    | none => return .full
    | some slot =>
      if let some name := name then adjust slot fun r => { r with name }
      let claimed ← Kernel.record slot
      let locks := (← get).locks
      release (.process slot)
      return .claimed slot claimed (locks.isHeld (.process slot)) locks.depth
  | .enter slot target => do
    let slot ← slotAt slot
    locked (.process slot) do
      Kernel.enter slot target
      return .record (← Kernel.record slot)
  | .vacate slot => do
    let slot ← slotAt slot
    locked (.process slot) do
      adjust slot fun _ => .vacant
      return .vacated ((← Kernel.record slot) = .vacant)
  | .look slot => do
    let slot ← slotAt slot
    return .looked slot (← peek slot)
  | .find pid => return .found (← Kernel.find pid)
  | .size => return .size cfg.maxProcs

end SlotRequest

end FeedbackQueue
