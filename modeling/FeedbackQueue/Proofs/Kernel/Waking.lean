import FeedbackQueue.Proofs.Kernel.Ensures
import FeedbackQueue.Scenario.Run

/-!
# What waking and killing do

The first step of waking a process touches its record alone, and the second step at most moves it
within the queues: `wakeSleeper_ensures`, `markKilled_ensures` and `requeueWoken_ensures`.
-/

namespace FeedbackQueue

namespace Effect

variable {cfg : Config} {s : Scheduler cfg}

/-- Whether a change is one that waking or killing makes before the window. -/
def isWaking : Effect cfg → Bool
  | mark _ | wake _ | count _ => true
  | _ => false

theorem isPlain_of_isWaking {effect : Effect cfg} (h : effect.isWaking = true) :
    effect.isPlain = true := by
  cases effect <;> first | rfl | cases h

theorem queues_applyAll_of_isWaking {effects : List (Effect cfg)}
    (h : ∀ effect ∈ effects, effect.isWaking = true) : (applyAll s effects).queues = s.queues := by
  refine applyAll_eq Scheduler.queues fun effect hmem t => ?_
  have hwaking := h effect hmem
  cases effect <;> first | rfl | cases hwaking

end Effect

/-- A turn is not a window. -/
theorem Activity.isWindowOf_of_isTurn {cfg : Config} {activity : Activity cfg}
    (h : activity.isTurn = true) (slot : Fin cfg.maxProcs) (pid : Pid) :
    activity.isWindowOf slot pid = false := by
  cases activity <;> first | rfl | cases h

namespace Kernel

open Lock (Bank)

variable {cfg : Config} {s : Scheduler cfg} {w : Hardware cfg.maxProcs} {e : Bool} {j : Array Event}
variable {slot : Fin cfg.maxProcs}

/-! ## The first step -/

/-- The effects of waking one sleeper. -/
def wakeEffects (slot : Fin cfg.maxProcs) : List (Effect cfg) :=
  [.wake slot, .count .wakeup]

theorem allowedAll_wakeEffects (h : (s.table.record slot).state = .sleeping) :
    Effect.AllowedAll s (wakeEffects slot) :=
  ⟨h, by simp [Effect.Allowed], trivial⟩

theorem makeRunnable_apply (h : (s.table.record slot).state = .sleeping) (b : Bank LockName) :
    makeRunnable slot ⟨s, w, b, j⟩ = .ok () ⟨Effect.applyAll s (wakeEffects slot), w, b, j⟩ := by
  rw [makeRunnable, bind_of_ok (enter_apply b slot (by rw [h]; rfl)), bind_of_ok (adjust_apply ..)]
  split
  case isTrue hp =>
    have hwoken : Record.woken cfg = fun r =>
        { r with state := .runnable, channel := none, quantum := cfg.procQuantum } := by
      funext r
      rw [Record.woken, if_pos hp]
    refine (bind_of_ok (adjust_apply ..)).trans ((count_apply ..).trans ?_)
    simp [wakeEffects, Effect.applyAll, Effect.apply, hwoken, Table.adjust_adjust]
  case isFalse hp =>
    have hwoken : Record.woken cfg = fun r => { r with state := .runnable, channel := none } := by
      funext r
      rw [Record.woken, if_neg hp]
    refine (count_apply ..).trans ?_
    simp [wakeEffects, Effect.applyAll, Effect.apply, hwoken, Table.adjust_adjust]

theorem state_of_sleepsOn {channel : Nat} {r : Record} (h : sleepsOn channel r = true) :
    r.state = .sleeping := by
  simpa using (Bool.and_eq_true_iff.mp h).1

theorem wakeSleeper_apply (channel : Nat) (slot : Fin cfg.maxProcs) :
    wakeSleeper channel slot ⟨s, w, .holding e [] [], j⟩
      = if sleepsOn channel (s.table.record slot) then
          .ok (some (s.table.record slot).pid)
            ⟨Effect.applyAll s (wakeEffects slot), w, .holding e [] [], j⟩
        else .ok none ⟨s, w, .holding e [] [], j⟩ := by
  split
  case isTrue hsleeps =>
    refine locked_apply List.not_mem_nil List.not_mem_nil ?_
    rw [bind_of_ok (record_apply ..), if_pos hsleeps,
      bind_of_ok (makeRunnable_apply (state_of_sleepsOn hsleeps) _), pure_apply]
  case isFalse hawake =>
    refine locked_apply List.not_mem_nil List.not_mem_nil ?_
    rw [bind_of_ok (record_apply ..), if_neg hawake, pure_apply]

/-- A sleeper on the channel is woken and its pid answered; any other slot is left alone. -/
theorem wakeSleeper_ensures (channel : Nat) (slot : Fin cfg.maxProcs) :
    Ensures (wakeSleeper channel slot) s fun woken effects =>
      if sleepsOn channel (s.table.record slot) then
        woken = some (s.table.record slot).pid ∧ effects = wakeEffects slot
      else woken = none ∧ effects = [] := by
  intro w e j
  rw [wakeSleeper_apply]
  split
  case isTrue hsleeps =>
    exact ⟨_, _, w, e, j, ⟨rfl, rfl⟩, allowedAll_wakeEffects (state_of_sleepsOn hsleeps), rfl⟩
  case isFalse => exact ⟨none, [], w, e, j, ⟨rfl, rfl⟩, trivial, rfl⟩

/-- The effects of asking a process to end. -/
def markEffects (slot : Fin cfg.maxProcs) : List (Effect cfg) :=
  [.mark slot, .count .kill]

/-- The effects of the first step of a kill. -/
def killEffects (s : Scheduler cfg) (slot : Fin cfg.maxProcs) : List (Effect cfg) :=
  markEffects slot ++ if (s.table.record slot).state = .sleeping then wakeEffects slot else []

theorem allowedAll_killEffects : Effect.AllowedAll s (killEffects s slot) := by
  refine Effect.allowedAll_append.mpr ⟨⟨trivial, by simp [Effect.Allowed], trivial⟩, ?_⟩
  split
  case isTrue hstate =>
    refine allowedAll_wakeEffects ?_
    simpa [markEffects, Effect.applyAll, Effect.apply] using hstate
  case isFalse => trivial

theorem killLocked_apply (pid : Pid) (b : Bank LockName) :
    killLocked slot pid ⟨s, w, b, j⟩
      = .ok (decide ((s.table.record slot).state = .sleeping))
          ⟨Effect.applyAll s (killEffects s slot), w, b,
            j.push (.killed pid (s.table.record slot).state)⟩ := by
  let t := Effect.applyAll s (markEffects slot)
  have hstate : (t.table.record slot).state = (s.table.record slot).state := by
    simp [t, markEffects, Effect.applyAll, Effect.apply]
  have hmarked : ∀ f : Record → Kernel cfg Bool,
      (do adjust slot (fun r => { r with killed := true }); count .kill; f (← record slot))
          ⟨s, w, b, j⟩ = f (t.table.record slot) ⟨t, w, b, j⟩ := fun f => by
    rw [bind_of_ok (adjust_apply ..), bind_of_ok (count_apply ..), bind_of_ok (record_apply ..)]
    rfl
  rw [killLocked, hmarked, bind_of_ok (note_apply ..), hstate, killEffects, Effect.applyAll_append]
  by_cases hsleeps : (s.table.record slot).state = .sleeping
  · simp only [hsleeps, decide_true, if_true]
    refine (bind_of_ok (makeRunnable_apply (hstate.trans hsleeps) b)).trans ?_
    rfl
  · simp only [hsleeps, decide_false, if_false]
    rfl

theorem markKilled_apply (pid : Pid) :
    markKilled pid ⟨s, w, .holding e [] [], j⟩
      = match s.table.find? pid with
        | none => .ok (.error (.noSuchProcess pid)) ⟨s, w, .holding e [] [], j⟩
        | some slot => .ok (.ok (slot, decide ((s.table.record slot).state = .sleeping)))
            ⟨Effect.applyAll s (killEffects s slot), w, .holding e [] [],
              j.push (.killed pid (s.table.record slot).state)⟩ := by
  have hseize : seize (Table.answersTo pid) (allSlots cfg) ⟨s, w, .holding e [] [], j⟩
      = .ok (s.table.find? pid) ⟨s, w, .holding e (lockOf (s.table.find? pid) ++ []) [], j⟩ :=
    seize_apply _ _ (fun _ => List.not_mem_nil) (fun _ => List.not_mem_nil)
  rw [markKilled, bind_of_ok hseize]
  cases s.table.find? pid with
  | none => rfl
  | some slot =>
    refine (bind_of_ok (killLocked_apply pid _)).trans ?_
    rw [lockOf_some, List.append_nil, bind_of_ok (release_apply List.mem_cons_self),
      List.erase_cons_head]
    rfl

theorem kill_of_find?_eq_none {pid : Pid} (h : s.table.find? pid = none)
    (window : Kernel cfg Unit) :
    (kill cfg pid window : Kernel cfg (Except Refusal Unit)) ⟨s, w, .holding e [] [], j⟩
      = .ok (.error (.noSuchProcess pid)) ⟨s, w, .holding e [] [], j⟩ := by
  have hmarked := markKilled_apply (s := s) (w := w) (e := e) (j := j) pid
  rw [h] at hmarked
  exact bind_of_ok hmarked

theorem kill_of_find?_eq_some {pid : Pid} (h : s.table.find? pid = some slot)
    (window : Kernel cfg Unit) :
    (kill cfg pid window : Kernel cfg (Except Refusal Unit)) ⟨s, w, .holding e [] [], j⟩
      = ((if (s.table.record slot).state = .sleeping then
            window >>= fun _ => requeueWoken slot pid
          else pure ()) >>= fun _ => pure (.ok ()))
        ⟨Effect.applyAll s (killEffects s slot), w, .holding e [] [],
          j.push (.killed pid (s.table.record slot).state)⟩ := by
  have hmarked := markKilled_apply (s := s) (w := w) (e := e) (j := j) pid
  rw [h] at hmarked
  refine (bind_of_ok hmarked).trans ?_
  by_cases hsleeps : (s.table.record slot).state = .sleeping
  · simp only [hsleeps, decide_true, if_true, bind_assoc]
    rfl
  · simp only [hsleeps, decide_false, if_false]
    rfl

/-- A kill acts on the live process that carries the pid. -/
theorem markKilled_ensures (pid : Pid) :
    Ensures (markKilled pid) s fun outcome effects =>
      match s.table.find? pid with
      | none => outcome = .error (.noSuchProcess pid) ∧ effects = []
      | some slot => outcome = .ok (slot, decide ((s.table.record slot).state = .sleeping)) ∧
        effects = killEffects s slot := by
  intro w e j
  rw [markKilled_apply]
  cases s.table.find? pid with
  | none => exact ⟨_, [], w, e, j, ⟨rfl, rfl⟩, trivial, rfl⟩
  | some slot => exact ⟨_, _, w, e, _, ⟨rfl, rfl⟩, allowedAll_killEffects, rfl⟩

/-! ## The second step -/

/-- The effects of the second step of waking a process: it is moved, unless there are no queues or
the slot no longer holds it waiting for a CPU. -/
def rejoinEffects (s : Scheduler cfg) (slot : Fin cfg.maxProcs) (pid : Pid) : List (Effect cfg) :=
  let r := s.table.record slot
  if cfg.effectivePolicy.usesQueues ∧ r.pid = pid ∧ (r.state = .runnable ∨ r.state = .sleeping) then
    [.rejoin slot pid]
  else []

theorem requeueWoken_of_not_usesQueues (hnone : ¬cfg.effectivePolicy.usesQueues) (pid : Pid)
    (m : Machine cfg) : requeueWoken slot pid m = .ok () m := by
  rw [requeueWoken, if_neg hnone, pure_apply]

theorem requeueWoken_apply (hq : s.queues.Sound) (huse : cfg.effectivePolicy.usesQueues = true)
    {pid : Pid} (hwaits : (s.table.record slot).pid = pid ∧
      ((s.table.record slot).state = .runnable ∨ (s.table.record slot).state = .sleeping)) :
    requeueWoken slot pid ⟨s, w, .holding e [] [], j⟩
      = .ok () ⟨(Effect.rejoin slot pid).apply s, w, .holding e [] [], j⟩ := by
  rw [requeueWoken, if_pos huse]
  refine locked_apply List.not_mem_nil List.not_mem_nil ?_
  refine locked_apply (by simp) List.not_mem_nil ?_
  rw [bind_of_ok (record_apply ..), if_neg (by tauto), bind_of_ok (queues_apply _),
    Queues.enqueue, if_pos (hq.levelOrHome_lt slot), bind_of_ok (ofExcept_ok_apply ..)]
  rfl

theorem requeueWoken_ensures (hs : s.Sound) (slot : Fin cfg.maxProcs) (pid : Pid) :
    Ensures (requeueWoken slot pid) s fun _ effects => effects = rejoinEffects s slot pid := by
  intro w e j
  by_cases huse : cfg.effectivePolicy.usesQueues = true
  · by_cases hwaits : (s.table.record slot).pid = pid ∧
        ((s.table.record slot).state = .runnable ∨ (s.table.record slot).state = .sleeping)
    · exact ⟨(), _, w, e, j, (if_pos ⟨huse, hwaits⟩).symm, ⟨⟨huse, hwaits⟩, trivial⟩,
        requeueWoken_apply hs.queues huse hwaits⟩
    · refine ⟨(), _, w, e, j.push (.left pid (s.table.record slot).state),
        (if_neg fun h => hwaits h.2).symm, trivial, ?_⟩
      rw [requeueWoken, if_pos huse]
      refine locked_apply List.not_mem_nil List.not_mem_nil ?_
      refine locked_apply (by simp) List.not_mem_nil ?_
      rw [bind_of_ok (record_apply ..), if_pos (by tauto)]
      rfl
  · exact ⟨(), _, w, e, j, (if_neg fun h => huse h.1).symm, trivial,
      requeueWoken_of_not_usesQueues huse pid _⟩

/-! ## Activities -/

/-- Waking stops at the first process that it wakes, and leaves that process in its window. -/
inductive StopsAt (s : Scheduler cfg) : List (Activity cfg) → List (Fin cfg.maxProcs) → Prop
  | nowhere : StopsAt s [] []
  | window {slot : Fin cfg.maxProcs} {activity : Activity cfg}
    (isWindow : activity.isWindowOf slot (s.table.record slot).pid = true) :
    StopsAt s [activity] [slot]

/-- What waking does up to the first window: it asks at most one process to end, and it stops in a
window exactly if it has made a sleeper runnable. -/
structure Wakes (s : Scheduler cfg) (opened : List (Activity cfg)) (effects : List (Effect cfg)) :
    Prop where
  effects_eq : ∃ (marked : Option (Fin cfg.maxProcs)) (woken : List (Fin cfg.maxProcs)),
    effects = marked.toList.flatMap markEffects ++ woken.flatMap wakeEffects ∧
      StopsAt s opened woken

theorem Wakes.windows {opened : List (Activity cfg)} {effects : List (Effect cfg)}
    (h : Wakes s opened effects) : ∀ activity ∈ opened, activity.isTurn = false := by
  obtain ⟨marked, woken, -, hstops⟩ := h.effects_eq
  cases hstops with
  | nowhere => simp
  | @window slot activity isWindow =>
    have hturn : activity.isTurn ≠ true := fun hturn =>
      Bool.false_ne_true ((Activity.isWindowOf_of_isTurn hturn ..).symm.trans isWindow)
    simpa using hturn

/-- Up to the first window records alone are touched. -/
theorem Wakes.waking {opened : List (Activity cfg)} {effects : List (Effect cfg)}
    (h : Wakes s opened effects) : ∀ effect ∈ effects, effect.isWaking = true := by
  obtain ⟨marked, woken, rfl, -⟩ := h.effects_eq
  intro effect hmem
  obtain hmem | hmem := List.mem_append.mp hmem
  · obtain ⟨slot, -, hmem⟩ := List.mem_flatMap.mp hmem
    obtain rfl | rfl : effect = .mark slot ∨ effect = .count .kill := by
      simpa [markEffects] using hmem
    all_goals rfl
  · obtain ⟨slot, -, hmem⟩ := List.mem_flatMap.mp hmem
    obtain rfl | rfl : effect = .wake slot ∨ effect = .count .wakeup := by
      simpa [wakeEffects] using hmem
    all_goals rfl

theorem Wakes.plain {opened : List (Activity cfg)} {effects : List (Effect cfg)}
    (h : Wakes s opened effects) : ∀ effect ∈ effects, effect.isPlain = true :=
  fun effect hmem => Effect.isPlain_of_isWaking (h.waking effect hmem)

theorem Wakes.not_isSwitch {opened : List (Activity cfg)} {effects : List (Effect cfg)}
    (h : Wakes s opened effects) : ∀ effect ∈ effects, effect.isSwitch = false :=
  fun effect hmem => Effect.isSwitch_of_isPlain (h.plain effect hmem)

theorem wakeUpTo_ensures (channel : Nat) (slots : List (Fin cfg.maxProcs)) :
    Ensures (wakeUpTo channel slots) s fun found effects =>
      ∃ woken : List (Fin cfg.maxProcs), effects = woken.flatMap wakeEffects ∧ StopsAt s
        (found.toList.map fun (slot, pid, rest) => .waking channel slot pid rest) woken := by
  induction slots generalizing s with
  | nil => exact .pure ⟨[], rfl, .nowhere⟩
  | cons slot rest ih =>
    refine (wakeSleeper_ensures channel slot).bind fun woken effects hwoken _ => ?_
    split at hwoken
    case isFalse =>
      obtain ⟨rfl, rfl⟩ := hwoken
      exact ih
    case isTrue =>
      obtain ⟨rfl, rfl⟩ := hwoken
      have hstops : StopsAt s [.waking channel slot (s.table.record slot).pid rest] [slot] :=
        .window (by simp [Activity.isWindowOf])
      exact .pure ⟨[slot], by simp, hstops⟩

theorem wakeActivity_ensures (channel : Nat) (slots : List (Fin cfg.maxProcs)) :
    Ensures (wakeActivity channel slots) s (Wakes s) := by
  refine (wakeUpTo_ensures channel slots).bind fun found effects hfound _ => .pure ?_
  obtain ⟨woken, rfl, hstops⟩ := hfound
  exact ⟨none, woken, List.append_nil _, hstops⟩

theorem killActivity_ensures (pid : Pid) : Ensures (killActivity pid) s (Wakes s) := by
  refine (markKilled_ensures pid).bind fun outcome effects houtcome _ => ?_
  cases hfound : s.table.find? pid with
  | none =>
    rw [hfound] at houtcome
    obtain ⟨rfl, rfl⟩ := houtcome
    exact .pure ⟨none, [], rfl, .nowhere⟩
  | some slot =>
    rw [hfound] at houtcome
    obtain ⟨rfl, rfl⟩ := houtcome
    have hanswers := List.find?_some hfound
    have hpid : (s.table.record slot).pid = pid := by
      simpa using (Bool.and_eq_true_iff.mp hanswers).2
    by_cases hsleeps : (s.table.record slot).state = .sleeping
    · have heffects : killEffects s slot ++ []
          = (some slot).toList.flatMap markEffects ++ [slot].flatMap wakeEffects := by
        simp [killEffects, hsleeps]
      have hstops : StopsAt s [.killing slot pid] [slot] :=
        .window (by simp [Activity.isWindowOf, hpid])
      simp only [hsleeps, decide_true, if_true]
      exact .pure ⟨_, _, heffects, hstops⟩
    · have heffects : killEffects s slot ++ []
          = (some slot).toList.flatMap markEffects ++ [].flatMap wakeEffects := by
        simp [killEffects, hsleeps]
      simp only [hsleeps, decide_false]
      exact .pure ⟨_, _, heffects, .nowhere⟩

/-- The effects of leaving a window. -/
inductive Leaves (s : Scheduler cfg) : Activity cfg → List (Activity cfg) → List (Effect cfg) → Prop
  | waking {channel : Nat} {slot : Fin cfg.maxProcs} {pid : Pid} {rest : List (Fin cfg.maxProcs)}
    {opened : List (Activity cfg)} {effects : List (Effect cfg)}
    (wakes : Wakes (Effect.applyAll s (rejoinEffects s slot pid)) opened effects) :
    Leaves s (.waking channel slot pid rest) opened (rejoinEffects s slot pid ++ effects)
  | killing {slot : Fin cfg.maxProcs} {pid : Pid} :
    Leaves s (.killing slot pid) [] (rejoinEffects s slot pid)

theorem eq_of_mem_rejoinEffects {pid : Pid} {effect : Effect cfg}
    (h : effect ∈ rejoinEffects s slot pid) :
    effect = .rejoin slot pid ∧ (s.table.record slot).pid = pid := by
  unfold rejoinEffects at h
  dsimp only at h
  split at h
  case isTrue hwaits => exact ⟨List.mem_singleton.mp h, hwaits.2.1⟩
  case isFalse => cases h

namespace Leaves

variable {activity : Activity cfg} {opened : List (Activity cfg)} {effects : List (Effect cfg)}

/-- Leaving a window goes on with waking, and at most moves the process of the window before. -/
theorem mem_cases (h : Leaves s activity opened effects) {effect : Effect cfg}
    (hmem : effect ∈ effects) :
    effect.isWaking = true ∨ ∃ slot pid, effect = .rejoin slot pid ∧
      activity.isWindowOf slot pid = true ∧ (s.table.record slot).pid = pid := by
  cases h with
  | @waking channel slot pid rest opened more wakes =>
    obtain hmem | hmem := List.mem_append.mp hmem
    · obtain ⟨rfl, hpid⟩ := eq_of_mem_rejoinEffects hmem
      exact .inr ⟨slot, pid, rfl, by simp [Activity.isWindowOf], hpid⟩
    · exact .inl (wakes.waking effect hmem)
  | @killing slot pid =>
    obtain ⟨rfl, hpid⟩ := eq_of_mem_rejoinEffects hmem
    exact .inr ⟨slot, pid, rfl, by simp [Activity.isWindowOf], hpid⟩

theorem not_isSwitch (h : Leaves s activity opened effects) :
    ∀ effect ∈ effects, effect.isSwitch = false := by
  intro effect hmem
  obtain hwaking | ⟨slot, pid, rfl, -⟩ := h.mem_cases hmem
  · exact Effect.isSwitch_of_isPlain (Effect.isPlain_of_isWaking hwaking)
  · rfl

theorem windows (h : Leaves s activity opened effects) :
    ∀ activity ∈ opened, activity.isTurn = false := by
  cases h with
  | waking wakes => exact wakes.windows
  | killing => simp

end Leaves

theorem leaveWindow_ensures (hs : s.Sound) {activity : Activity cfg}
    (hwindow : activity.isTurn = false) :
    Ensures (leaveWindow activity) s (Leaves s activity) := by
  cases activity with
  | turn cpu slot => cases hwindow
  | waking channel slot pid rest =>
    refine (requeueWoken_ensures hs slot pid).bind fun _ effects heffects _ => ?_
    subst heffects
    exact (wakeActivity_ensures channel rest).mono fun opened more hwakes _ => .waking hwakes
  | killing slot pid =>
    refine (requeueWoken_ensures hs slot pid).bind fun _ effects heffects _ => ?_
    subst heffects
    refine .pure ?_
    rw [List.append_nil]
    exact .killing

end Kernel

end FeedbackQueue
