import FeedbackQueue.Scenario.Action

/-!
# Commands of a scenario

A *command* is an action, or a request during which other commands are carried out: a dispatch, in
which processes have their turns, or a wakeup or kill, in whose window other CPUs act.

A process has a script of *turns*.  A turn may let the timer go on, carry out commands and then
gives the CPU back in one of three ways.  A process whose script is over plays the fallback turn.
-/

namespace FeedbackQueue

/-- A turn of a process, with commands of some kind. -/
structure Turn (κ : Type) where
  /-- Ticks charged at the start of the turn, if the timer plays a part at all. -/
  ticks : Option Nat
  /-- Commands carried out during the turn. -/
  body : List κ
  ending : Ending

/-- A step of a scenario. -/
inductive Command
  | act (action : Action)
  /-- Add turns to the script of a slot. -/
  | script (slot : Nat) (turns : List (Turn Command))
  /-- Set the turn of every process whose script is over. -/
  | fallback (turn : Turn Command)
  /-- So many rounds on a CPU. -/
  | dispatch (cpu rounds : Nat)
  /-- The dispatch loop of a CPU, for so many rounds. -/
  | run (cpu rounds : Nat)
  /-- Wake the sleepers on a channel; the gap is carried out in the window of the first, if there
  are queues. -/
  | wakeup (channel : Nat) (gap : List Command)
  /-- Kill a process; the gap is carried out in its window if it is woken and there are queues. -/
  | kill (pid : Pid) (gap : List Command)

/-- A turn that yields at once. -/
def Turn.idle {κ : Type} : Turn κ where
  ticks := none
  body := []
  ending := .yield

/-! ## Number of commands

Every command is carried out at most once, so the number of commands in a scenario, nested ones
included, bounds how deep one can be nested in another. -/

mutual

/-- The number of commands in a command, itself included. -/
def Command.size : Command → Nat
  | .act _ | .dispatch _ _ | .run _ _ => 1
  | .script _ turns => 1 + turnsSize turns
  | .fallback turn => 1 + turnSize turn
  | .wakeup _ gap | .kill _ gap => 1 + commandsSize gap

/-- The number of commands in a list. -/
def commandsSize : List Command → Nat
  | [] => 0
  | command :: rest => command.size + commandsSize rest

/-- The number of commands in a turn. -/
def turnSize : Turn Command → Nat
  | ⟨_, body, _⟩ => commandsSize body

/-- The number of commands in a list of turns. -/
def turnsSize : List (Turn Command) → Nat
  | [] => 0
  | turn :: rest => turnSize turn + turnsSize rest

end

end FeedbackQueue
