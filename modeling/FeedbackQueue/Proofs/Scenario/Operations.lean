import FeedbackQueue.Scenario.Run

/-!
# Operations are made of steps

The operations that leave room for something else to happen are their steps with that in between: a
round is the beginning and the end of a turn with the turn between them, and a wakeup or a kill goes
from window to window.  So what holds at every moment of a run holds wherever one of these
operations lets another one in.
-/

namespace FeedbackQueue.Kernel

variable {cfg : Config}

/-- A round is the beginning of a turn, what the process does, and the end of the turn. -/
theorem dispatchOnce_eq (cpu : Nat) (body : Fin cfg.maxProcs → Kernel cfg Unit)
    (ending : Fin cfg.maxProcs → Ending) :
    dispatchOnce cpu (fun slot => do body slot; endTurn cpu (ending slot))
      = (do
        let picked ← beginTurn cpu
        if let some slot := picked then
          body slot
          endTurnAndRound cpu slot (ending slot)
        return picked : Kernel cfg (Option (Fin cfg.maxProcs))) := by
  simp only [dispatchOnce, beginTurn, bind_assoc]
  refine bind_congr fun picked => ?_
  cases picked with
  | none => simp
  | some slot => simp [endTurnAndRound]

/-- A wakeup goes from window to window. -/
theorem wakeAmong_eq (channel : Nat) (window : Nat → Kernel cfg Unit) (woken : Nat)
    (slots : List (Fin cfg.maxProcs)) :
    wakeAmong cfg channel window woken slots
      = (do
        match ← wakeUpTo channel slots with
        | none => return woken
        | some (slot, pid, rest) =>
          window woken
          requeueWoken slot pid
          wakeAmong cfg channel window (woken + 1) rest : Kernel cfg Nat) := by
  induction slots with
  | nil => simp [wakeAmong, wakeUpTo]
  | cons slot rest ih =>
    simp only [wakeAmong, wakeUpTo, bind_assoc]
    refine bind_congr fun found => ?_
    cases found with
    | none => exact ih
    | some pid => simp

/-- A kill goes through the window of its process, if it opens one. -/
theorem kill_eq (pid : Pid) (window : Kernel cfg Unit) :
    (do let _ ← kill cfg pid window : Kernel cfg Unit)
      = (do
        (← killActivity pid).forM fun activity => do
          window
          let _ ← leaveWindow activity : Kernel cfg Unit) := by
  simp only [kill, killActivity, bind_assoc]
  refine bind_congr fun outcome => ?_
  cases outcome with
  | error refusal => simp
  | ok found =>
    obtain ⟨slot, woken⟩ := found
    cases woken <;> simp [leaveWindow]

end FeedbackQueue.Kernel
