import FeedbackQueue.Scenario.Command

/-!
# Playing a scenario

A scenario is played on a fresh machine by a single thread of control, so that CPUs interleave only
where a command is nested in another.  Every command is answered by an *entry* when it is complete,
nested commands before the one that contains them.

`play` gives the transcript: the entries, and how the scenario ended.
-/

namespace FeedbackQueue

/-- The answer to one command. -/
structure Entry (cfg : Config) where
  reply : Reply cfg.maxProcs
  /-- How deep the command is nested, zero for a command of the scenario itself. -/
  depth : Nat
  /-- The scheduler when the command was complete. -/
  scheduler : Scheduler cfg
  /-- The events since the entry before. -/
  events : List Event

/-- A machine on which a scenario is played, and what is left to play. -/
structure Stage (cfg : Config) where
  machine : Machine cfg
  /-- The turns that each slot has still to play. -/
  scripts : Vector (List (Turn Command)) cfg.maxProcs
  /-- The turn of a process whose script is over. -/
  fallback : Turn Command
  /-- The entries so far. -/
  entries : Array (Entry cfg)

/-- An activity on the stage. -/
abbrev Play (cfg : Config) := EStateM Fault (Stage cfg)

namespace Play

variable {cfg : Config}

/-- An operation on the machine is an activity on the stage. -/
def onMachine {α : Type} (operation : Kernel cfg α) : Play cfg α := fun stage =>
  match operation stage.machine with
  | .ok answer machine => .ok answer { stage with machine }
  | .error fault machine => .error fault { stage with machine }

instance : MonadLift (Kernel cfg) (Play cfg) where
  monadLift := onMachine

/-- Makes an entry, which takes the events out of the journal. -/
def enterReply (depth : Nat) (reply : Reply cfg.maxProcs) : Play cfg Unit :=
  modify fun stage =>
    let machine := stage.machine
    let entry := { reply, depth, scheduler := machine.scheduler, events := machine.journal.toList }
    { stage with machine := { machine with journal := #[] }, entries := stage.entries.push entry }

/-- Adds turns to the script of a slot; a slot outside the table never plays them. -/
def addTurns (slot : Nat) (turns : List (Turn Command)) : Play cfg Unit :=
  modify fun stage =>
    if h : slot < cfg.maxProcs then
      { stage with scripts := stage.scripts.set slot (stage.scripts[slot] ++ turns) }
    else stage

/-- Takes the next turn out of the script of a slot. -/
def nextTurn (slot : Fin cfg.maxProcs) : Play cfg (Turn Command) := do
  let stage ← get
  match getElem stage.scripts slot.val slot.isLt with
  | [] => return stage.fallback
  | turn :: rest =>
    set { stage with scripts := stage.scripts.set slot rest slot.isLt }
    return turn

/-- Plays the next turn of a slot on a CPU, given how a nested command is carried out. -/
def takeTurn (perform : Command → Play cfg Unit) (cpu : Nat) (slot : Fin cfg.maxProcs) :
    Play cfg Unit := do
  let turn ← nextTurn slot
  if let some count := turn.ticks then
    perform (.act (.tick cpu count))
  turn.body.forM perform
  (Kernel.endTurn cpu turn.ending : Kernel cfg Unit)

/-- Plays the gap of a wakeup or kill, given how a nested command is carried out.  A gap is played
when the lock of the queues is about to be taken, so it is skipped where there are none. -/
def playGap (perform : Command → Play cfg Unit) (gap : List Command) : Play cfg Unit :=
  if cfg.effectivePolicy.usesQueues then gap.forM perform else pure ()

/-- The switches made after the first `count`. -/
def switchesSince (count : Nat) : Kernel cfg (List (Nat × Fin cfg.maxProcs)) :=
  return (← get).hardware.switches.toList.drop count

/-- Carries out a command that is nested `depth` deep, with commands nested in it at most `fuel`
deep. -/
def perform : Nat → Nat → Command → Play cfg Unit
  | 0, _, _ => return
  | fuel + 1, depth, command => do
    let nested := perform fuel (depth + 1)
    let reply : Reply cfg.maxProcs ← match command with
      | .act action => (action.perform : Kernel cfg _)
      | .script slot turns => do
        addTurns slot turns
        pure .done
      | .fallback turn => do
        modify fun stage => { stage with fallback := turn }
        pure .done
      | .dispatch cpu rounds => do
        let outcomes ← Kernel.dispatchMany cpu (takeTurn nested cpu) rounds
        pure (.rounds outcomes)
      | .run cpu rounds => do
        let before := (← get).machine.hardware.switches.size
        Kernel.dispatchLoop cpu (takeTurn nested cpu) rounds
        pure (.switches (← (switchesSince before : Kernel cfg _)))
      | .wakeup channel gap => do
        let window (woken : Nat) := if woken = 0 then playGap nested gap else pure ()
        let woken ← Kernel.wakeup cfg channel window
        pure (.count woken)
      | .kill pid gap => do
        match ← Kernel.kill cfg pid (playGap nested gap) with
        | .ok () => pure .done
        | .error refusal => pure (.refused refusal)
    enterReply depth reply

/-- Carries out the commands of a scenario.  A command is nested only in other commands of the
scenario, and each of those is carried out at most once; below the deepest there may still be the
ticks at the start of a turn. -/
def performAll (commands : List Command) : Play cfg Unit :=
  commands.forM (perform (commandsSize commands + 1) 0)

end Play

/-- How a scenario ended. -/
inductive Outcome (cfg : Config)
  /-- All commands were carried out. -/
  | finished (machine : Machine cfg)
  /-- A command faulted; the events are those since the last entry. -/
  | failed (fault : Fault) (events : List Event)

/-- What a scenario did. -/
structure Transcript (cfg : Config) where
  /-- The events of setting the machine up. -/
  boot : List Event
  entries : List (Entry cfg)
  outcome : Outcome cfg

/-- The stage at the start of a scenario, once the events of setting up have been collected. -/
def Stage.fresh (cfg : Config) : Stage cfg where
  machine := { Machine.fresh cfg with journal := #[] }
  scripts := Vector.replicate cfg.maxProcs []
  fallback := .idle
  entries := #[]

/-- Plays a scenario. -/
def play (cfg : Config) (commands : List Command) : Transcript cfg :=
  let boot := (Machine.fresh cfg).journal.toList
  match Play.performAll commands (Stage.fresh cfg) with
  | .ok () stage =>
    { boot, entries := stage.entries.toList, outcome := .finished stage.machine }
  | .error fault stage =>
    { boot, entries := stage.entries.toList, outcome := .failed fault stage.machine.journal.toList }

/-! ## What a scheduler shows -/

/-- The slots worth showing: those that hold a process or are in a queue. -/
def Scheduler.shownSlots {cfg : Config} (s : Scheduler cfg) : List (Fin cfg.maxProcs) :=
  (List.finRange cfg.maxProcs).filter fun slot =>
    (s.table.record slot).isLive || s.queues.isLinked slot

end FeedbackQueue
