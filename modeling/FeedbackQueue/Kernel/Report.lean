import FeedbackQueue.Kernel.Machine
import FeedbackQueue.Queue.Audit
import FeedbackQueue.Text.Column

/-!
# Reports

The *dump* has one line per queue, active queues first: the tick, the set, the level with its ticks,
and the members in order.  Round robin has one queue and the table scan none; their single line
shows no ticks, and for the table scan it lists every live slot.

The *listing* has one line per live slot, below an empty line.

A *window* makes every dispatch within so many ticks dump to the console.
-/

namespace FeedbackQueue

/-- One line of a dump. -/
structure DumpLine where
  tick : UInt64
  set : QueueSet
  level : Nat
  /-- The ticks left to the queue, as shown. -/
  quantum : Int32
  /-- The processes of the line. -/
  entries : List Record
  deriving DecidableEq

/-- A process in a dump line. -/
def Record.entryText (r : Record) : String :=
  let pid := r.pid
  let name := r.name
  let state := r.state.number
  let quantum := r.quantum
  s!",[{pid}]{name}:{state}({quantum})"

/-- The text of a dump line. -/
def DumpLine.text (l : DumpLine) : String :=
  let tick := l.tick
  let set := l.set.name
  let level := l.level
  let quantum := l.quantum
  s!"{tick}|{set}|{level}({quantum})" ++ String.join (l.entries.map Record.entryText) ++ "\n"

/-- A process in the listing. -/
def Record.listingText (r : Record) : String :=
  let pid := r.pid
  let state := Text.column .left 6 none r.state.word
  let name := r.name
  s!"{pid} {state} {name}\n"

namespace Kernel

variable {cfg : Config}

/-- The records of the live slots, in ascending order. -/
def liveRecords : Kernel cfg (List Record) :=
  return (← (allSlots cfg).mapM peek).filter Record.isLive

/-- The dump line of a queue, showing the given ticks. -/
def dumpQueue (level : Nat) (set : QueueSet) (quantum : Int32) : Kernel cfg DumpLine := do
  let tick := (← get).hardware.ticks
  let entries ← ((← queues).members level set).mapM peek
  return { tick, set, level, quantum, entries }

/-- The lines of a dump. -/
def dumpLines : Kernel cfg (List DumpLine) :=
  match cfg.effectivePolicy with
  | .feedback => locked .queues do
    (Queues.allQueues cfg.levels).mapM fun (level, set) => do
      dumpQueue level set (← ofExcept ((← queues).quantum level set))
  | .roundRobin => locked .queues do
    return [← dumpQueue 0 .active 0]
  | .fifo => do
    let tick := (← get).hardware.ticks
    return [{ tick, set := .active, level := 0, quantum := 0, entries := ← liveRecords }]

/-- The text of a dump. -/
def dump : Kernel cfg String :=
  return String.join ((← dumpLines).map DumpLine.text)

/-- The text of the listing. -/
def listing : Kernel cfg String :=
  return "\n" ++ String.join ((← liveRecords).map Record.listingText)

/-! ## The window -/

/-- Opens the window for so many ticks. -/
def openWindow (duration : UInt64) : Kernel cfg Unit := do
  let start := (← get).hardware.ticks
  modifyScheduler fun s => { s with window := { start, duration } }
  note (.windowOpened duration)

/-- Closes the window. -/
def closeWindow : Kernel cfg Unit :=
  modifyScheduler fun s => { s with window := { s.window with duration := 0 } }

/-- Dumps to the console within the window, and closes a window that is over.  A timer that was set
back counts as no ticks since the start. -/
def reportDispatch : Kernel cfg Unit := do
  let s ← get
  let window := s.scheduler.window
  if window.isOpen then
    if s.hardware.ticks.toNat - window.start.toNat < window.duration.toNat then
      let text ← dump
      modifyHardware fun m => { m with console := m.console ++ text }
    else closeWindow

end Kernel

end FeedbackQueue
