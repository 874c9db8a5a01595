import FeedbackQueue.Scenario.Action
import FeedbackQueue.Scenario.Command

/-!
# Lifecycle runs

A run is what a set of CPUs can do with a scheduler when every caller keeps to the rules: processes
are created, activated and reaped, CPUs dispatch them, and every turn ends with exactly one yield,
sleep or exit.  Nothing reaches into records or queues behind the scheduler's back.

A run is made of *steps*.  Between two steps the machine is at a *moment*, where another step may
follow, and some activities may be open: the turn of a process on a CPU, or a wakeup or kill in the
window between making a process runnable and queueing it.  There are windows under every policy,
since the lock of the process is free before it is known whether there is a queue to put it in.  Any
open activity may be the next to go on, so that CPUs interleave in every order; when it is always
the latest one, steps nest.

* `Moment.Allows` — the rules that callers keep to;
* `Moment.next` — carries out one step;
* `Reachable` — the moments of all runs from a fresh machine, and `Path` the steps between two.
-/

namespace FeedbackQueue

/-- An activity that is open while other steps are taken. -/
inductive Activity (cfg : Config)
  /-- A process has its turn on a CPU. -/
  | turn (cpu : Nat) (slot : Fin cfg.maxProcs)
  /-- A wakeup on a channel is in the window of a process, and has still to look at some slots. -/
  | waking (channel : Nat) (slot : Fin cfg.maxProcs) (pid : Pid) (rest : List (Fin cfg.maxProcs))
  /-- A kill is in the window of the process that it woke. -/
  | killing (slot : Fin cfg.maxProcs) (pid : Pid)
  deriving DecidableEq

/-- Whether an activity is the turn of a process.  Every other activity is a window. -/
def Activity.isTurn {cfg : Config} : Activity cfg → Bool
  | .turn .. => true
  | _ => false

/-- Whether an activity is a window of a process. -/
def Activity.isWindowOf {cfg : Config} (slot : Fin cfg.maxProcs) (pid : Pid) : Activity cfg → Bool
  | .waking _ woken wokenPid _ | .killing woken wokenPid => woken = slot && wokenPid = pid
  | .turn .. => false

/-- A point of a run where another step may follow. -/
structure Moment (cfg : Config) where
  machine : Machine cfg
  /-- The activities that are open, latest first. -/
  activities : List (Activity cfg)
  deriving DecidableEq

/-- A step of a run. -/
inductive Step
  /-- An action that is carried out in one go. -/
  | act (action : Action)
  /-- A CPU begins a round; unless the round is idle, the turn of a process is then open. -/
  | begin (cpu : Nat)
  /-- The open turn at an index ends, and its round is over. -/
  | finish (index : Nat) (ending : Ending)
  /-- Wake the sleepers on a channel, up to the first window. -/
  | wakeup (channel : Nat)
  /-- Kill a process, up to its window. -/
  | kill (pid : Pid)
  /-- The open window at an index ends, and its wakeup or kill goes on. -/
  | resume (index : Nat)
  deriving DecidableEq

/-! ## Rules -/

/-- Whether an action belongs to the lifecycle.  Edits by hand do not, nor the evaluation of the
counters, nor the calls that end a turn, which are steps of their own. -/
def Action.isLifecycle : Action → Bool
  | .setQuantum .. | .setState .. | .queues .. | .setTicks .. | .suspend .. | .statistics => false
  | .yield .. | .sleep .. | .exit .. => false
  | _ => true

/-- The slot that an action names. -/
def Action.slot? : Action → Option Nat
  | .activate slot | .setKilled slot | .killed slot | .reap slot => some slot
  | .state slot | .quantum slot | .record slot => some slot
  | _ => none

/-- The slot in which an action needs a fresh process. -/
def Action.freshSlot? : Action → Option Nat
  | .activate slot => some slot
  | _ => none

/-- The CPU that an action names. -/
def Action.cpu? : Action → Option Nat
  | .pick cpu | .current cpu | .tick cpu _ => some cpu
  | _ => none

/-- Whether a slot holds a process that was created and not yet activated. -/
def Scheduler.isFresh {cfg : Config} (s : Scheduler cfg) (slot : Nat) : Bool :=
  if h : slot < cfg.maxProcs then (s.table.record ⟨slot, h⟩).state = .used else false

namespace Moment

variable {cfg : Config}

/-- Whether an action may be carried out: it belongs to the lifecycle, what it names exists, and
only a fresh process is activated. -/
def AllowsAction (m : Moment cfg) (action : Action) : Prop :=
  action.isLifecycle ∧ (∀ slot ∈ action.slot?, slot < cfg.maxProcs) ∧
    (∀ cpu ∈ action.cpu?, cpu < cfg.ncpu) ∧
    ∀ slot ∈ action.freshSlot?, m.machine.scheduler.isFresh slot

instance (m : Moment cfg) : DecidablePred m.AllowsAction :=
  fun _ => inferInstanceAs (Decidable (_ ∧ _))

/-- Whether a CPU is within a round. -/
def InTurn (m : Moment cfg) (cpu : Nat) : Prop :=
  ∃ slot, .turn cpu slot ∈ m.activities

instance (m : Moment cfg) : DecidablePred m.InTurn :=
  fun _ => inferInstanceAs (Decidable (∃ _, _))

/-- The rules that callers keep to.  A CPU begins no round within a round of its own, a turn is
ended where there is one, and so is a window. -/
def Allows (m : Moment cfg) : Step → Prop
  | .act action => m.AllowsAction action
  | .begin cpu => cpu < cfg.ncpu ∧ ¬m.InTurn cpu
  | .finish index _ => ∃ activity ∈ m.activities[index]?, activity.isTurn
  | .resume index => ∃ activity ∈ m.activities[index]?, activity.isTurn = false
  | .wakeup _ | .kill _ => True

instance (m : Moment cfg) : DecidablePred m.Allows
  | .act action => inferInstanceAs (Decidable (m.AllowsAction action))
  | .begin _ => inferInstanceAs (Decidable (_ ∧ _))
  | .finish .. | .resume _ => inferInstanceAs (Decidable (∃ _ ∈ _, _))
  | .wakeup _ | .kill _ => isTrue trivial

end Moment

/-! ## Steps -/

namespace Kernel

variable {cfg : Config}

/-- Wakes the first sleeper among some slots and leaves it in its window.  Answers its slot, its pid
and the slots that are still to be looked at. -/
def wakeUpTo (channel : Nat) :
    List (Fin cfg.maxProcs) → Kernel cfg (Option (Fin cfg.maxProcs × Pid × List (Fin cfg.maxProcs)))
  | [] => return none
  | slot :: rest => do
    match ← wakeSleeper channel slot with
    | some pid => return some (slot, pid, rest)
    | none => wakeUpTo channel rest

/-- Wakes sleepers among some slots and answers the window in which that stops. -/
def wakeActivity (channel : Nat) (slots : List (Fin cfg.maxProcs)) :
    Kernel cfg (List (Activity cfg)) :=
  return (← wakeUpTo channel slots).toList.map fun (slot, pid, rest) =>
    .waking channel slot pid rest

/-- Begins a round, up to the turn of the process that is picked. -/
def beginTurn (cpu : Nat) : Kernel cfg (Option (Fin cfg.maxProcs)) := do
  let picked ← beginRound cpu
  if let some slot := picked then startTurn slot
  return picked

/-- Ends the turn of a process on a CPU, and with it the round. -/
def endTurnAndRound (cpu : Nat) (slot : Fin cfg.maxProcs) (ending : Ending) : Kernel cfg Unit := do
  endTurn cpu ending
  finishTurn slot
  endRound cpu slot

/-- Kills a process and answers the window in which that stops. -/
def killActivity (pid : Pid) : Kernel cfg (List (Activity cfg)) := do
  match ← markKilled pid with
  | .ok (slot, woken) =>
    if woken then return [.killing slot pid] else return []
  | .error _ => return []

/-- Ends an open window and answers the window in which its wakeup or kill stops next.  A turn is no
window and is left as it is. -/
def leaveWindow : Activity cfg → Kernel cfg (List (Activity cfg))
  | .waking channel slot pid rest => do
    requeueWoken slot pid
    wakeActivity channel rest
  | .killing slot pid => do
    requeueWoken slot pid
    return []
  | .turn cpu slot => return [.turn cpu slot]

/-- Carries out a step and answers the activities that are open afterwards. -/
def take : Step → List (Activity cfg) → Kernel cfg (List (Activity cfg))
  | .act action, opened => do
    let _ ← action.perform
    return opened
  | .begin cpu, opened => return (← beginTurn cpu).toList.map (.turn cpu) ++ opened
  | .finish index ending, opened => do
    if let some (.turn cpu slot) := opened[index]? then
      endTurnAndRound cpu slot ending
      return opened.eraseIdx index
    return opened
  | .wakeup channel, opened => return (← wakeActivity channel (allSlots cfg)) ++ opened
  | .kill pid, opened => return (← killActivity pid) ++ opened
  | .resume index, opened => do
    if let some activity := opened[index]? then
      return (← leaveWindow activity) ++ opened.eraseIdx index
    return opened

end Kernel

/-- Carries out a step. -/
def Moment.next {cfg : Config} (m : Moment cfg) (step : Step) : Except Fault (Moment cfg) :=
  match Kernel.take step m.activities m.machine with
  | .ok activities machine => .ok { machine, activities }
  | .error fault _ => .error fault

/-! ## Runs -/

variable {cfg : Config}

/-- The moment before the first step. -/
def Moment.fresh (cfg : Config) : Moment cfg where
  machine := .fresh cfg
  activities := []

/-- The steps of a run between two moments. -/
inductive Path : Moment cfg → List Step → Moment cfg → Prop
  | refl (m : Moment cfg) : Path m [] m
  | tail {a b c : Moment cfg} {steps : List Step} {step : Step} :
    Path a steps b → b.Allows step → b.next step = .ok c → Path a (steps ++ [step]) c

/-- The moments of all runs. -/
def Reachable (m : Moment cfg) : Prop :=
  ∃ steps, Path (.fresh cfg) steps m

theorem Path.trans {a b c : Moment cfg} {first second : List Step} (hfirst : Path a first b)
    (hsecond : Path b second c) : Path a (first ++ second) c := by
  induction hsecond with
  | refl => rwa [List.append_nil]
  | tail _ hallows hnext ih =>
    rw [← List.append_assoc]
    exact ih.tail hallows hnext

/-- Carries out steps one after another, as long as they are allowed and do not fault. -/
def Moment.walk? (m : Moment cfg) : List Step → Option (Moment cfg)
  | [] => some m
  | step :: rest =>
    if m.Allows step then (m.next step).toOption.bind fun m => m.walk? rest else none

theorem next_of_mem_toOption {a b : Moment cfg} {step : Step} (h : b ∈ (a.next step).toOption) :
    a.next step = .ok b := by
  cases hnext : a.next step with
  | error fault => simp [hnext, Except.toOption] at h
  | ok m => simpa [hnext, Except.toOption] using h

theorem path_of_walk? {a b : Moment cfg} {steps : List Step} (h : a.walk? steps = some b) :
    Path a steps b := by
  induction steps generalizing a with
  | nil => exact Option.some.inj h ▸ .refl a
  | cons step rest ih =>
    rw [Moment.walk?] at h
    split at h
    case isTrue hallows =>
      obtain ⟨m, hnext, hrest⟩ := Option.bind_eq_some_iff.mp h
      exact ((Path.refl a).tail hallows (next_of_mem_toOption hnext)).trans (ih hrest)
    case isFalse => cases h

end FeedbackQueue
