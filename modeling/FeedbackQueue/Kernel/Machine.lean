import FeedbackQueue.Kernel.Event
import FeedbackQueue.Lock.Bank
import FeedbackQueue.Process.Table
import FeedbackQueue.Queue.Moves
import FeedbackQueue.Statistics

/-!
# The machine and its operations

A *machine* is a scheduler on its hardware, with the locks that are held and the events that have
been reported.  An *operation* (`Kernel`) acts on a machine; it answers or faults, and when it
faults the machine is left as it was at that moment, so that the events before the fault are still
there.

Shared data is touched under its lock.  `Kernel.locked` takes a lock, acts and releases it; the
queue lock is taken before process locks, and the lock of a CPU record is taken last and alone.

This file has the state and the sections; the operations are in the other files of
`FeedbackQueue.Kernel`.
-/

namespace FeedbackQueue

/-! ## State -/

/-- The record of a CPU. -/
structure Cpu (nproc : Nat) where
  /-- The process that the CPU runs. -/
  current : Option (Fin nproc) := none
  /-- The slot that the next table scan starts with. -/
  cursor : Nat := 0
  deriving DecidableEq

/-- The window of ticks in which every dispatch dumps the queues. -/
structure Window where
  /-- The tick at which the window was opened. -/
  start : UInt64 := 0
  /-- The length of the window in ticks, zero when it is closed. -/
  duration : UInt64 := 0
  deriving DecidableEq

/-- Whether the window has a length. -/
def Window.isOpen (w : Window) : Bool :=
  0 < w.duration

/-- The scheduler proper. -/
structure Scheduler (cfg : Config) where
  table : Table cfg.maxProcs
  queues : Queues cfg.levels cfg.maxProcs
  cpus : Vector (Cpu cfg.maxProcs) cfg.ncpu
  stats : Statistics
  window : Window
  deriving DecidableEq

/-- The record of a CPU. -/
def Scheduler.cpu {cfg : Config} (s : Scheduler cfg) (cpu : Fin cfg.ncpu) : Cpu cfg.maxProcs :=
  getElem s.cpus cpu.val cpu.isLt

/-- The records of all CPUs, with another one for a CPU. -/
def Scheduler.replaceCpu {cfg : Config} (s : Scheduler cfg) (cpu : Fin cfg.ncpu)
    (changed : Cpu cfg.maxProcs) : Vector (Cpu cfg.maxProcs) cfg.ncpu :=
  s.cpus.set cpu changed cpu.isLt

/-- The names of locks. -/
inductive LockName
  /-- The lock of all queues and links. -/
  | queues
  /-- The lock of the record in a slot. -/
  | process (slot : Nat)
  /-- The lock of the record of a CPU. -/
  | cpu (cpu : Nat)
  /-- The lock of the condition that a process goes to sleep for. -/
  | condition
  /-- A lock of someone else. -/
  | foreign
  deriving DecidableEq, Repr

/-- What the scheduler needs of the hardware, and what it did to it. -/
structure Hardware (nproc : Nat) where
  /-- The timer. -/
  ticks : UInt64 := 0
  /-- How often a CPU waited for an interrupt. -/
  idleWaits : Nat := 0
  /-- The text written to the console and not yet taken. -/
  console : String := ""
  /-- The switches to a process so far, each with its CPU. -/
  switches : Array (Nat × Fin nproc) := #[]
  deriving DecidableEq

/-- A scheduler on its hardware. -/
structure Machine (cfg : Config) where
  scheduler : Scheduler cfg
  hardware : Hardware cfg.maxProcs
  locks : Lock.Bank LockName
  /-- The events reported since they were last collected. -/
  journal : Array Event
  deriving DecidableEq

/-- A scheduler with free slots, vacant queues and idle CPUs. -/
def Scheduler.fresh (cfg : Config) : Scheduler cfg where
  table := .empty cfg.maxProcs
  queues := .empty cfg.levels cfg.maxProcs cfg.levelQuantum
  cpus := Vector.replicate cfg.ncpu {}
  stats := {}
  window := {}

/-- A machine that has just been set up, with no lock held and interrupts off. -/
def Machine.fresh (cfg : Config) : Machine cfg where
  scheduler := .fresh cfg
  hardware := {}
  locks := { interrupts := { enabled := false } }
  journal := #[.booted cfg.effectivePolicy cfg]

/-- An operation on a machine. -/
abbrev Kernel (cfg : Config) := EStateM Fault (Machine cfg)

namespace Kernel

variable {cfg : Config} {α : Type}

/-- Every slot, in ascending order. -/
abbrev allSlots (cfg : Config) : List (Fin cfg.maxProcs) :=
  List.finRange cfg.maxProcs

/-! ## Locks -/

/-- Takes a lock.  The locks of a machine belong to one thread of control, so waiting for a lock
that is held would never end. -/
def acquire (lock : LockName) : Kernel cfg Unit := do
  match (← get).locks.acquire? lock with
  | some locks => modify fun s => { s with locks }
  | none => throw .deadlock

/-- Releases a lock by dropping its guard. -/
def release (lock : LockName) : Kernel cfg Unit :=
  modify fun s => { s with locks := s.locks.release lock }

/-- Acts with a lock held. -/
def locked (lock : LockName) (body : Kernel cfg α) : Kernel cfg α := do
  acquire lock
  let answer ← body
  release lock
  return answer

/-! ## Access without a lock of its own

The caller holds the lock, or the data has none. -/

/-- The slot with a number. -/
def slotAt (i : Nat) : Kernel cfg (Fin cfg.maxProcs) :=
  if h : i < cfg.maxProcs then return ⟨i, h⟩ else throw (.noSuchSlot i)

/-- The CPU with a number. -/
def cpuAt (i : Nat) : Kernel cfg (Fin cfg.ncpu) :=
  if h : i < cfg.ncpu then return ⟨i, h⟩ else throw (.noSuchCpu i)

/-- Changes the scheduler. -/
def modifyScheduler (f : Scheduler cfg → Scheduler cfg) : Kernel cfg Unit :=
  modify fun s => { s with scheduler := f s.scheduler }

/-- Changes the hardware. -/
def modifyHardware (f : Hardware cfg.maxProcs → Hardware cfg.maxProcs) : Kernel cfg Unit :=
  modify fun s => { s with hardware := f s.hardware }

/-- The record in a slot. -/
def record (slot : Fin cfg.maxProcs) : Kernel cfg Record :=
  return (← get).scheduler.table.record slot

/-- Changes the record in a slot. -/
def adjust (slot : Fin cfg.maxProcs) (f : Record → Record) : Kernel cfg Unit :=
  modifyScheduler fun s => { s with table := s.table.adjust slot f }

/-- Moves the process in a slot to another state. -/
def enter (slot : Fin cfg.maxProcs) (target : ProcState) : Kernel cfg Unit := do
  let changed ← ofExcept ((← record slot).enter target)
  adjust slot fun _ => changed

/-- The queues. -/
def queues : Kernel cfg (Queues cfg.levels cfg.maxProcs) :=
  return (← get).scheduler.queues

/-- Replaces the queues. -/
def setQueues (q : Queues cfg.levels cfg.maxProcs) : Kernel cfg Unit :=
  modifyScheduler fun s => { s with queues := q }

/-- Counts an occurrence. -/
def count (occurrence : Occurrence) : Kernel cfg Unit :=
  modifyScheduler fun s => { s with stats := s.stats.record occurrence }

/-- Reports an event. -/
def note (event : Event) : Kernel cfg Unit :=
  modify fun s => { s with journal := s.journal.push event }

/-! ## Sections -/

/-- Looks at the record in a slot. -/
def peek (slot : Fin cfg.maxProcs) : Kernel cfg Record :=
  locked (.process slot) (record slot)

/-- Looks at the record of a CPU and changes it. -/
def withCpu (cpu : Nat) (f : Cpu cfg.maxProcs → α × Cpu cfg.maxProcs) : Kernel cfg α := do
  let cpu ← cpuAt cpu
  locked (.cpu cpu) do
    let (answer, changed) := f ((← get).scheduler.cpu cpu)
    modifyScheduler fun s => { s with cpus := s.replaceCpu cpu changed }
    return answer

/-- The process that a CPU runs. -/
def current (cpu : Nat) : Kernel cfg (Option (Fin cfg.maxProcs)) :=
  withCpu cpu fun c => (c.current, c)

/-- Records the process that a CPU runs. -/
def setCurrent (cpu : Nat) (slot : Option (Fin cfg.maxProcs)) : Kernel cfg Unit :=
  withCpu cpu fun c => ((), { c with current := slot })

/-- Acts on the queues with their lock held. -/
def withQueues (f : Queues cfg.levels cfg.maxProcs →
    Except Fault (α × Queues cfg.levels cfg.maxProcs)) : Kernel cfg α :=
  locked .queues do
    let (answer, changed) ← ofExcept (f (← queues))
    setQueues changed
    return answer

/-- Puts a process at the tail of the active queue of its home level. -/
def queueAtHome (slot : Fin cfg.maxProcs) : Kernel cfg Unit :=
  withQueues fun q => (q.enqueue slot (q.link slot).home .active).map fun q => ((), q)

/-- Takes the lock of a slot, and keeps it if the record is wanted. -/
def grab (wanted : Record → Bool) (slot : Fin cfg.maxProcs) : Kernel cfg Bool := do
  acquire (.process slot)
  if wanted (← record slot) then
    return true
  release (.process slot)
  return false

/-- Looks for a slot whose record is wanted, taking the process locks one after another.  The lock
of the slot that is found stays held. -/
def seize (wanted : Record → Bool) :
    List (Fin cfg.maxProcs) → Kernel cfg (Option (Fin cfg.maxProcs))
  | [] => return none
  | slot :: rest => do
    if ← grab wanted slot then
      return some slot
    seize wanted rest

/-- The first slot whose record is wanted, with no lock held. -/
def locate (wanted : Record → Bool) (slots : List (Fin cfg.maxProcs)) :
    Kernel cfg (Option (Fin cfg.maxProcs)) :=
  slots.findM? fun slot => return wanted (← peek slot)

/-- The slot of the live process that carries a pid. -/
def find (pid : Pid) : Kernel cfg (Option (Fin cfg.maxProcs)) :=
  locate (Table.answersTo pid) (allSlots cfg)

end Kernel

end FeedbackQueue
