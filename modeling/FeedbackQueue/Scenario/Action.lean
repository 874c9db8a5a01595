import FeedbackQueue.Kernel.Creation
import FeedbackQueue.Kernel.Rounds
import FeedbackQueue.Kernel.Timer
import FeedbackQueue.Kernel.Turn
import FeedbackQueue.Kernel.Waking
import FeedbackQueue.Queue.Command

/-!
# Actions of a scenario

An *action* is one request to a machine during which nothing else happens: the operations of the
scheduler, a look at its data, and edits that an operator could make by hand.  `Action.perform`
carries one out and answers it.
-/

namespace FeedbackQueue

/-- The answer to a step of a scenario. -/
inductive Reply (nproc : Nat)
  | done
  /-- A process was created in a slot. -/
  | created (slot : Fin nproc) (pid : Pid)
  /-- The step was refused. -/
  | refused (refusal : Refusal)
  /-- What each round of a dispatch did; an idle round ran nothing. -/
  | rounds (outcomes : List (Option (Fin nproc)))
  /-- The switches that were made, each with its CPU. -/
  | switches (made : List (Nat × Fin nproc))
  | slot (slot : Option (Fin nproc))
  | count (n : Nat)
  | flag (flag : Bool)
  | flags (flags : List Bool)
  /-- Pid and status of a process that was reaped. -/
  | reaped (pid : Pid) (status : Int32)
  | state (state : ProcState)
  | quantum (left : Int32)
  | record (record : Record)
  | queues (answer : QueueAnswer nproc)
  /-- The counters, and the share of rounds that ran a process. -/
  | statistics (stats : Statistics) (utilization : Nat)
  /-- As much of a report as was accepted, and whether that was all of it. -/
  | report (fits : Bool) (text : String)
  | console (text : String)
  deriving DecidableEq, Repr

/-- A request that is carried out in one go. -/
inductive Action
  | create (name : String) (priority : Option Nat) (parent : Option Pid)
  | fork (name : String) (priority : Option Nat) (parent : Option Pid)
  | activate (slot : Nat)
  | pick (cpu : Nat)
  | yield (cpu : Nat)
  | sleep (cpu channel : Nat)
  | exit (cpu : Nat) (status : Int32)
  | setKilled (slot : Nat)
  | killed (slot : Nat)
  | reap (slot : Nat)
  | state (slot : Nat)
  | quantum (slot : Nat)
  | record (slot : Nat)
  | find (pid : Pid)
  | current (cpu : Nat)
  /-- So many ticks, each charged to the CPU. -/
  | tick (cpu count : Nat)
  /-- Suspend a process, with another lock held or with interrupts on if asked to. -/
  | suspend (slot : Nat) (extraLock interruptible : Bool)
  | setQuantum (slot : Nat) (value : Int32)
  | setState (slot : Nat) (state : ProcState)
  | queues (command : QueueCommand)
  | statistics
  /-- A dump to a writer that accepts so many characters, or any number. -/
  | dump (limit : Option Nat)
  /-- The listing, to a writer of the same kind. -/
  | listing (limit : Option Nat)
  | setTicks (value : UInt64)
  | openWindow (ticks : UInt64)
  | closeWindow
  | windowIsOpen
  | takeConsole
  deriving DecidableEq, Repr

namespace Reply

variable {nproc : Nat}

/-- The reply to a report, cut to what the writer accepts. -/
def ofReport (limit : Option Nat) (text : String) : Reply nproc :=
  match limit with
  | none => .report true text
  | some limit => .report (text.length ≤ limit) (Text.clip limit text)

end Reply

namespace Action

open Kernel

variable {cfg : Config}

/-- The reply to a creation. -/
def creation (outcome : Except Refusal (Fin cfg.maxProcs)) : Kernel cfg (Reply cfg.maxProcs) :=
  match outcome with
  | .error refusal => return .refused refusal
  | .ok slot => return .created slot (← peek slot).pid

/-- Looks at the record in a slot that is named by number. -/
def look (slot : Nat) : Kernel cfg Record := do
  peek (← slotAt slot)

/-- Suspends a process under its own lock. -/
def suspendProcess (slot : Nat) (interruptible : Bool) : Kernel cfg Unit := do
  let slot ← slotAt slot
  locked (.process slot) do
    if interruptible then modify fun s => { s with locks := s.locks.enable }
    Kernel.suspend slot

/-- Carries out an action. -/
def perform : Action → Kernel cfg (Reply cfg.maxProcs)
  | .create name priority parent => do creation (← Kernel.create name priority parent)
  | .fork name priority parent => do creation (← Kernel.fork name priority parent)
  | .activate slot => do
    Kernel.activate slot
    return .done
  | .pick cpu => return .slot (← pickAndDrop cpu)
  | .yield cpu => do
    yieldNow cpu
    return .done
  | .sleep cpu channel => do
    sleepOn cpu channel
    return .done
  | .exit cpu status => do
    Kernel.exit cpu status
    return .done
  | .setKilled slot => do
    Kernel.setKilled slot
    return .done
  | .killed slot => return .flag (← look slot).killed
  | .reap slot => do
    match ← Kernel.reap slot with
    | .error refusal => return .refused refusal
    | .ok (pid, status) => return .reaped pid status
  | .state slot => return .state (← look slot).state
  | .quantum slot => return .quantum (← look slot).quantum
  | .record slot => return .record (← look slot)
  | .find pid => return .slot (← Kernel.find pid)
  | .current cpu => return .slot (← Kernel.current cpu)
  | .tick cpu count => return .flags (← (List.replicate count cpu).mapM Kernel.tick)
  | .suspend slot extraLock interruptible => do
    if extraLock then locked .foreign (suspendProcess slot interruptible)
    else suspendProcess slot interruptible
    return .done
  | .setQuantum slot value => do
    let slot ← slotAt slot
    locked (.process slot) (adjust slot fun r => { r with quantum := value })
    return .done
  | .setState slot target => do
    let slot ← slotAt slot
    locked (.process slot) (enter slot target)
    return .done
  | .queues command => return .queues (← withQueues fun q => q.perform command)
  | .statistics => do
    let stats := (← get).scheduler.stats
    return .statistics stats (← ofExcept stats.utilization)
  | .dump limit => return .ofReport limit (← Kernel.dump)
  | .listing limit => return .ofReport limit (← Kernel.listing)
  | .setTicks value => do
    modifyHardware fun m => { m with ticks := value }
    return .done
  | .openWindow ticks => do
    Kernel.openWindow ticks
    return .done
  | .closeWindow => do
    Kernel.closeWindow
    return .done
  | .windowIsOpen => return .flag (← get).scheduler.window.isOpen
  | .takeConsole => do
    let text := (← get).hardware.console
    modifyHardware fun m => { m with console := "" }
    return .console text

end Action

end FeedbackQueue
