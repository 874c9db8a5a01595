import FeedbackQueue.Config
import FeedbackQueue.Log.Line
import FeedbackQueue.Queue.Lanes
import FeedbackQueue.Text.Numeral

/-!
# Events

What the scheduler reports while it works.  An event is kept as a value; `Event.level` and
`Event.message` say how it reads in the log.
-/

namespace FeedbackQueue

/-- Something worth a log line. -/
inductive Event
  /-- A scheduler was set up. -/
  | booted (policy : Policy) (config : Config)
  /-- A process was created. -/
  | created (pid : Pid) (name : String) (level : Nat)
  /-- The sets were exchanged. -/
  | swapped
  /-- A level without ticks was drained. -/
  | cascaded (level moved : Nat) (pid : Pid) (set : QueueSet) (target : Nat)
  /-- A process went to sleep on a channel. -/
  | slept (pid : Pid) (channel : Nat)
  /-- A kill reached a process in some state. -/
  | killed (pid : Pid) (state : ProcState)
  /-- A woken process was gone, or busy, before it could be queued. -/
  | left (pid : Pid) (state : ProcState)
  /-- A process exited. -/
  | exited (pid : Pid) (status : Int32)
  /-- A CPU was given to a process. -/
  | dispatched (cpu : Nat) (pid : Pid)
  /-- A CPU entered its dispatch loop. -/
  | entered (cpu : Nat)
  /-- A window of queue dumps was opened. -/
  | windowOpened (ticks : UInt64)
  deriving DecidableEq, Repr

namespace Event

/-- The level of an event in the log. -/
def level : Event → Log.Level
  | booted .. | entered .. | windowOpened .. => .info
  | created .. | swapped | cascaded .. | killed .. | exited .. => .debug
  | slept .. | left .. | dispatched .. => .trace

/-- The text of an event after the tag of the scheduler. -/
def text : Event → String
  | booted policy config =>
    let name := policy.name
    let levels := config.levels
    let levelQuantum := config.levelQuantum
    let procQuantum := config.procQuantum
    let slots := config.maxProcs
    let cpus := config.ncpu
    s!"{name} scheduler: {levels} levels, level quantum {levelQuantum}, "
      ++ s!"proc quantum {procQuantum}, {slots} slots, {cpus} cpus"
  | created pid name level => s!"created pid {pid} '{name}' at level {level}"
  | swapped => "active set starved, swapped with expired set"
  | cascaded level moved pid set target =>
    let name := set.name
    s!"level {level} exhausted, {moved} processes follow pid {pid} to {name} level {target}"
  | slept pid channel =>
    let channel := Text.hexadecimal channel
    s!"pid {pid} sleeps on {channel}"
  | killed pid state =>
    let word := state.word
    s!"kill pid {pid} ({word})"
  | left pid state =>
    let word := state.word
    s!"pid {pid} left before its wakeup was queued ({word})"
  | exited pid status => s!"pid {pid} exits with status {status}"
  | dispatched cpu pid => s!"cpu {cpu} runs pid {pid}"
  | entered cpu => s!"cpu {cpu} entering dispatch loop"
  | windowOpened ticks => s!"schedlog enabled for {ticks} ticks"

/-- The message of an event. -/
def message (e : Event) : String :=
  "[SCHED] " ++ e.text

/-- The log line of an event, if the limit lets it through. -/
def line? (limit : Log.Limit) (e : Event) : Option String :=
  if e.level.within limit then some (Log.line e.level e.message) else none

/-- The log lines of events, in order. -/
def lines (limit : Log.Limit) (events : List Event) : List String :=
  events.filterMap (line? limit)

end Event

end FeedbackQueue
