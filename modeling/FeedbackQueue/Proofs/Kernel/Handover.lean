import FeedbackQueue.Proofs.Kernel.Locking
import FeedbackQueue.Proofs.Kernel.Turn

/-!
# Locks across the switch

A round does not take and release its locks one inside the other.  The lock of a process is taken on
one side of the switch and released on the other, the loop forgets its guard in between, and a
sleeper drops the lock of its condition while it holds its own.  Still a round that has begun
between operations holds no lock any more when the turn starts, and the end of the turn keeps the
locks.

The end of a turn is split where the process is suspended, into `approach` and `afterwards`, so that
one can say which locks are held there.
-/

namespace FeedbackQueue

open Lock (Bank)

/-- The call that ends a turn. -/
def Ending.call : Ending → TurnCall
  | .yield => .yield
  | .sleep _ => .sleep
  | .exit _ => .exit

/-- The locks that are held when the call is made: a process goes to sleep under the lock of a
condition. -/
def Ending.guards : Ending → List LockName
  | .sleep _ => [.condition]
  | .yield | .exit _ => []

namespace Kernel

variable {cfg : Config} {gs fs : List LockName}

/-! ## Locks out of order -/

/-- A lock is released while a later one stays held. -/
theorem relocks_release_below {lock later : LockName} (hne : later ≠ lock) :
    Relocks (release lock : Kernel cfg Unit) (later :: lock :: gs) fs (fun _ => later :: gs)
      (fun _ => fs) := by
  have h : Relocks (release lock : Kernel cfg Unit) (later :: lock :: gs) fs
      (fun _ => (later :: lock :: gs).erase lock) (fun _ => fs) :=
    relocks_release (List.mem_cons_of_mem later List.mem_cons_self)
  rwa [List.erase_cons_tail (by simpa using hne), List.erase_cons_head] at h

theorem relocks_forget (lock : LockName) :
    Relocks (modify fun m => { m with locks := m.locks.forget lock } : Kernel cfg Unit)
      (lock :: gs) fs (fun _ => gs) (fun _ => lock :: fs) := by
  rintro e ⟨s, w, b, j⟩ ⟨⟩ m' rfl hok
  cases hok
  exact (Bank.forget_holding List.mem_cons_self).trans (by rw [List.erase_cons_head])

theorem relocks_forceRelease (lock : LockName) :
    Relocks (modify fun m => { m with locks := m.locks.forceRelease lock } : Kernel cfg Unit)
      gs (lock :: fs) (fun _ => gs) (fun _ => fs) := by
  rintro e ⟨s, w, b, j⟩ ⟨⟩ m' rfl hok
  cases hok
  exact (Bank.forceRelease_holding List.mem_cons_self).trans (by rw [List.erase_cons_head])

/-! ## The two sides of a suspension -/

/-- What a process does in the call that ends its turn, up to where it is suspended. -/
def stepDown (slot : Fin cfg.maxProcs) : Ending → Kernel cfg Unit
  | .yield => do
    count .yield
    let replenish ← requeue slot
    acquire (.process slot)
    if replenish then adjust slot fun r => { r with quantum := cfg.procQuantum }
    enter slot .runnable
  | .sleep channel => do
    acquire (.process slot)
    release .condition
    adjust slot fun r => { r with channel := some channel }
    enter slot .sleeping
    note (.slept (← record slot).pid channel)
  | .exit status => do
    if cfg.effectivePolicy.usesQueues then
      withQueues fun q => .ok ((), q.remove slot)
    acquire (.process slot)
    adjust slot fun r => { r with exitStatus := status }
    enter slot .zombie
    count .exit
    note (.exited (← record slot).pid status)

/-- What a process does at the end of its turn up to where it is suspended.  Answers its slot. -/
def approach (cpu : Nat) (ending : Ending) : Kernel cfg (Fin cfg.maxProcs) := do
  ending.guards.forM acquire
  let slot ← expectCurrent cpu ending.call
  stepDown slot ending
  return slot

/-- What a process does with the locks once it is no longer suspended. -/
def afterwards (slot : Fin cfg.maxProcs) (ending : Ending) : Kernel cfg Unit := do
  release (.process slot)
  ending.guards.forM acquire
  ending.guards.forM release

theorem endTurn_eq (cpu : Nat) (ending : Ending) :
    (endTurn cpu ending : Kernel cfg Unit)
      = (do
        let slot ← approach cpu ending
        suspend slot
        afterwards slot ending) := by
  cases ending with
  | yield =>
    simp only [endTurn, yieldNow, locked, standBy, approach, stepDown, afterwards, bind_assoc]
    refine bind_congr fun slot => bind_congr fun _ => bind_congr fun replenish => ?_
    cases replenish <;> simp [Ending.guards]
  | sleep channel =>
    simp [endTurn, sleepOn, sleep, locked, fallAsleep, approach, stepDown, afterwards, Ending.call,
      Ending.guards]
  | exit status =>
    simp only [endTurn, exit, locked, becomeZombie, approach, stepDown, afterwards, bind_assoc]
    refine bind_congr fun slot => ?_
    cases cfg.effectivePolicy.usesQueues <;> simp [Ending.guards]

theorem keeps_expectCurrent (cpu : Nat) (call : TurnCall) :
    Keeps (expectCurrent cpu call : Kernel cfg _) := by
  refine (keeps_current cpu).bind fun found => ?_
  cases found with
  | none => exact .throw _
  | some slot => exact .pure slot

theorem keeps_suspend (slot : Fin cfg.maxProcs) : Keeps (suspend slot) := by
  refine (keeps_record slot).bind fun r => ?_
  have hrest : Keeps (do
      let locks := (← get : Machine cfg).locks
      if locks.depth ≠ 1 then throw (.suspendHolding locks.depth)
      if locks.interrupts.enabled then throw .suspendInterruptible : Kernel cfg Unit) := by
    refine Keeps.get.bind fun m => ?_
    dsimp only
    split
    · exact (Keeps.throw _).bind fun _ => by split <;> first | exact .throw _ | exact .pure _
    · split
      · exact .throw _
      · exact .pure _
  dsimp only
  split
  · exact (Keeps.throw _).bind fun _ => hrest
  · exact hrest

theorem keeps_cascade (slot : Fin cfg.maxProcs) (pid : Pid) (level : Nat) (d : Decision) :
    Keeps (cascade slot pid level d) := by
  unfold cascade
  split
  · exact keeps_queues.bind fun _ => (Keeps.ofExcept _).bind fun _ =>
      (keeps_setQueues _).bind fun _ => (keeps_count _).bind fun _ => .note _
  · exact .pure _

theorem keeps_countMove (level : Nat) (d : Decision) :
    Keeps (countMove level d : Kernel cfg Unit) := by
  unfold countMove
  split
  · exact keeps_count _
  · split
    · exact keeps_count _
    · exact .pure _

theorem keeps_requeue (slot : Fin cfg.maxProcs) : Keeps (requeue slot) := by
  unfold requeue
  cases cfg.effectivePolicy with
  | fifo => exact .pure _
  | roundRobin => exact (keeps_queueAtHome slot).bind fun _ => .pure _
  | feedback =>
    refine (keeps_peek slot).bind fun r => .locked _ (keeps_queues.bind fun q => ?_)
    split
    · exact .throw _
    · exact (Keeps.ofExcept _).bind fun d => (keeps_cascade slot _ _ d).bind fun _ =>
        (keeps_countMove _ d).bind fun _ => keeps_queues.bind fun _ =>
          (Keeps.ofExcept _).bind fun _ => (keeps_setQueues _).bind fun _ => .pure _

/-- A process that is called with just the locks of the call held reaches its suspension with just
its own lock held. -/
theorem relocks_stepDown (slot : Fin cfg.maxProcs) (ending : Ending) :
    Relocks (stepDown slot ending) (ending.guards ++ gs) fs (fun _ => .process slot :: gs)
      (fun _ => fs) := by
  cases ending with
  | yield =>
    refine (keeps_count _ _ _).bind fun _ => (keeps_requeue slot _ _).bind fun replenish => ?_
    refine (relocks_acquire _).bind fun _ => ?_
    cases replenish with
    | true => exact (keeps_adjust slot _ _ _).bind fun _ => keeps_enter slot _ _ _
    | false => exact keeps_enter slot _ _ _
  | sleep channel =>
    refine (relocks_acquire _).bind fun _ => (relocks_release_below (by simp)).bind fun _ => ?_
    refine (keeps_adjust slot _ _ _).bind fun _ => (keeps_enter slot _ _ _).bind fun _ => ?_
    exact (keeps_record slot _ _).bind fun _ => Keeps.note _ _ _
  | exit status =>
    have hzombie : Relocks (do
        acquire (.process slot)
        adjust slot fun r => { r with exitStatus := status }
        enter slot .zombie
        count .exit
        note (.exited (← record slot).pid status)) gs fs (fun _ => .process slot :: gs)
        (fun _ => fs) := by
      refine (relocks_acquire _).bind fun _ => (keeps_adjust slot _ _ _).bind fun _ => ?_
      refine (keeps_enter slot _ _ _).bind fun _ => (keeps_count _ _ _).bind fun _ => ?_
      exact (keeps_record slot _ _).bind fun _ => Keeps.note _ _ _
    dsimp only [stepDown]
    split
    · exact (keeps_withQueues _ _ _).bind fun _ => hzombie
    · exact hzombie

theorem relocks_guards (ending : Ending) :
    Relocks (ending.guards.forM acquire : Kernel cfg Unit) gs fs (fun _ => ending.guards ++ gs)
      (fun _ => fs) := by
  cases ending with
  | sleep channel => exact (relocks_acquire _).bind fun _ => .pure rfl rfl
  | _ => exact .pure rfl rfl

theorem relocks_approach (cpu : Nat) (ending : Ending) :
    Relocks (approach cpu ending : Kernel cfg _) gs fs (fun slot => .process slot :: gs)
      (fun _ => fs) :=
  (relocks_guards ending).bind fun _ => (keeps_expectCurrent cpu _ _ _).bind fun slot =>
    (relocks_stepDown slot ending).bind fun _ => .pure rfl rfl

theorem relocks_afterwards (slot : Fin cfg.maxProcs) (ending : Ending) :
    Relocks (afterwards slot ending) (.process slot :: gs) fs (fun _ => gs) (fun _ => fs) := by
  refine (relocks_release_head _).bind fun _ => (relocks_guards ending).bind fun _ => ?_
  cases ending with
  | sleep channel => exact (relocks_release_head _).bind fun _ => .pure rfl rfl
  | _ => exact .pure rfl rfl

/-- The process that a CPU runs reaches its suspension, with just its own lock held. -/
theorem approach_apply {s : Scheduler cfg} {w : Hardware cfg.maxProcs} {e : Bool} {j : Array Event}
    {cpu : Nat} {slot : Fin cfg.maxProcs} (hs : s.Sound) (hcpu : cpu < cfg.ncpu)
    (hcurrent : (s.cpu ⟨cpu, hcpu⟩).current = some slot) (ending : Ending) :
    ∃ t, approach cpu ending ⟨s, w, .holding e [] [], j⟩ = .ok slot t ∧
      t.locks = .holding e [.process slot] [] := by
  obtain ⟨_, _, _, _, _, -, -, hended⟩ := endTurnAndRound_ensures hcpu hcurrent hs ending w e j
  obtain ⟨_, _, hend, -⟩ := exists_ok_of_bind hended
  rw [endTurn_eq] at hend
  obtain ⟨found, t, happroach, -⟩ := exists_ok_of_bind hend
  have hguards : ending.guards.forM acquire ⟨s, w, .holding e [] [], j⟩
      = .ok () ⟨s, w, .holding e ending.guards [], j⟩ := by
    cases ending with
    | sleep channel => exact bind_of_ok (acquire_apply List.not_mem_nil List.not_mem_nil)
    | _ => rfl
  have hcpuLock : LockName.cpu cpu ∉ ending.guards := by cases ending <;> simp [Ending.guards]
  -- the process that steps down is the one that the CPU runs, so it is the one that is answered
  have hrest := happroach
  rw [approach, bind_of_ok hguards,
    bind_of_ok (expectCurrent_apply hcpu hcpuLock ending.call hcurrent)] at hrest
  obtain ⟨_, _, -, hanswer⟩ := exists_ok_of_bind hrest
  cases hanswer
  exact ⟨t, happroach, relocks_approach cpu ending e _ slot t rfl happroach⟩

theorem keeps_endTurn (cpu : Nat) (ending : Ending) :
    Keeps (endTurn cpu ending : Kernel cfg Unit) := fun _ _ => by
  rw [endTurn_eq]
  exact (relocks_approach cpu ending).bind fun slot => (keeps_suspend slot _ _).bind fun _ =>
    relocks_afterwards slot ending

/-- A sleep that is called with the lock of its condition held has it held again afterwards. -/
theorem relocks_sleep (cpu channel : Nat) :
    Relocks (sleep cpu channel .condition : Kernel cfg Unit) (.condition :: gs) fs
      (fun _ => .condition :: gs) (fun _ => fs) := by
  refine (keeps_expectCurrent cpu _ _ _).bind fun slot => ?_
  have hfall : Keeps (fallAsleep slot channel) :=
    (keeps_adjust slot _).bind fun _ => (keeps_enter slot _).bind fun _ =>
      (keeps_record slot).bind fun _ => (Keeps.note _).bind fun _ => keeps_suspend slot
  have hsection : Relocks (locked (.process slot) do release .condition; fallAsleep slot channel)
      (.condition :: gs) fs (fun _ => (.process slot :: gs : List LockName).erase (.process slot))
      (fun _ => fs) :=
    relocks_locked ((relocks_release_below (by simp)).bind fun _ => hfall _ _)
      fun _ => List.mem_cons_self
  simp only [List.erase_cons_head] at hsection
  exact hsection.bind fun _ => relocks_acquire _

/-! ## The two halves of a round -/

theorem relocks_assign (cpu : Nat) (slot : Fin cfg.maxProcs) :
    Relocks (assign cpu slot) (.process slot :: gs) fs (fun _ => gs) (fun _ => fs) := by
  refine (keeps_record slot _ _).bind fun picked => ?_
  have hrest : Relocks (do
      enter slot .running
      setCurrent cpu (some slot)
      count .pick
      note (.dispatched cpu picked.pid)
      release (.process slot)) (.process slot :: gs) fs (fun _ => gs) (fun _ => fs) := by
    refine (keeps_enter slot _ _ _).bind fun _ => (keeps_setCurrent cpu _ _ _).bind fun _ => ?_
    exact (keeps_count _ _ _).bind fun _ => (Keeps.note _ _ _).bind fun _ => relocks_release_head _
  dsimp only
  split
  · exact (Keeps.throw _ _ _).bind fun _ => hrest
  · exact hrest

theorem relocks_switchTo (cpu : Nat) (slot : Fin cfg.maxProcs) :
    Relocks (switchTo cpu slot) gs fs (fun _ => gs) (fun _ => .process slot :: fs) :=
  (relocks_acquire _).bind fun _ => (Keeps.modifyHardware _ _ _).bind fun _ => relocks_forget _

theorem relocks_finishTurn (slot : Fin cfg.maxProcs) :
    Relocks (finishTurn slot) gs fs (fun _ => gs) (fun _ => .process slot :: fs) :=
  (relocks_acquire _).bind fun _ => relocks_forget _

theorem relocks_endRound (cpu : Nat) (slot : Fin cfg.maxProcs) :
    Relocks (endRound cpu slot) gs (.process slot :: fs) (fun _ => gs) (fun _ => fs) :=
  (keeps_setCurrent cpu _ _ _).bind fun _ => relocks_forceRelease _

theorem keeps_endTurnAndRound (cpu : Nat) (slot : Fin cfg.maxProcs) (ending : Ending) :
    Keeps (endTurnAndRound cpu slot ending) := fun gs fs =>
  (keeps_endTurn cpu ending gs fs).bind fun _ => (relocks_finishTurn slot).bind fun _ =>
    relocks_endRound cpu slot

/-- An operation that is called when no lock is held, with interrupts on or off, leaves interrupts
on or off and no lock held. -/
def Settles {α : Type} (op : Kernel cfg α) (on on' : Bool) : Prop :=
  ∀ m a m', m.locks = .holding on [] [] → op m = .ok a m' → m'.locks = .holding on' [] []

/-- A turn starts with interrupts on and no lock held, and so does the wait of an idle round end. -/
theorem settles_beginTurn (cpu : Nat) (on : Bool) :
    Settles (beginTurn cpu : Kernel cfg _) on true := by
  intro m picked m' hlocks hok
  obtain ⟨found, t, hround, hstart⟩ := exists_ok_of_bind hok
  -- the round turns interrupts on while nothing is masked, and keeps them so
  obtain ⟨_, u, hu, hround⟩ := exists_ok_of_bind hround
  have hswitched : t.locks = .holding true [] (lockOf found) := by
    refine (Relocks.bind (relocks_pick cpu) fun picked => ?_ : Relocks _ [] [] (fun _ => []) lockOf)
      true u found t ?_ hround
    · cases picked with
      | none =>
        exact (keeps_count _ _ _).bind fun _ => (Keeps.modifyHardware _ _ _).bind fun _ =>
          .pure rfl rfl
      | some slot =>
        exact (relocks_assign cpu slot).bind fun _ => (keeps_reportDispatch _ _).bind fun _ =>
          (relocks_switchTo cpu slot).bind fun _ => .pure rfl rfl
    · cases hu
      exact (congrArg Bank.enable hlocks).trans Bank.enable_holding_nil
  cases found with
  | none =>
    cases hstart
    exact hswitched
  | some slot =>
    exact ((relocks_forceRelease _).bind fun _ => .pure rfl rfl :
      Relocks _ [] (lockOf (some slot)) (fun _ => []) fun _ => []) true t picked m' hswitched hstart

/-- A round leaves interrupts on, idle or not, whatever the process does in its turn. -/
theorem settles_dispatchOnce (cpu : Nat) {turn : Fin cfg.maxProcs → Kernel cfg Unit}
    (hturn : ∀ slot, Settles (turn slot) true true) (on : Bool) :
    Settles (dispatchOnce cpu turn) on true := by
  intro m picked m' hlocks hok
  obtain ⟨found, u, hround, hrest⟩ := exists_ok_of_bind hok
  cases found with
  | none =>
    cases hrest
    exact settles_beginTurn cpu on m none m' hlocks (bind_of_ok hround)
  | some slot =>
    obtain ⟨_, t, hstart, hrest⟩ := exists_ok_of_bind hrest
    obtain ⟨_, t', hdone, hrest⟩ := exists_ok_of_bind hrest
    have hbegin : beginTurn cpu m = .ok (some slot) t :=
      (bind_of_ok hround).trans (bind_of_ok hstart)
    have hbegun := settles_beginTurn cpu on m (some slot) t hlocks hbegin
    refine ((relocks_finishTurn slot).bind fun _ => (relocks_endRound cpu slot).bind fun _ =>
      .pure rfl rfl : Relocks _ [] [] (fun _ => []) fun _ => []) true t' picked m' ?_ hrest
    exact hturn slot t () t' hbegun hdone

end Kernel

end FeedbackQueue
