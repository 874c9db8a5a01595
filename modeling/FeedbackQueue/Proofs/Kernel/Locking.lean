import FeedbackQueue.Proofs.Kernel.Sections
import FeedbackQueue.Scenario.Run

/-!
# What operations do to locks

`Kernel.Relocks` says which locks are held when an operation answers, given those that were held
before.  `Kernel.Keeps` says that they are the same, whatever they were; then the masks and the
interrupt flag are the same, too.  Both are about every way in which an operation may answer, and
neither says that it does: that is for `FeedbackQueue.Proofs.Scenario.Safety`.

Every operation keeps the locks, apart from the two halves of a round, where a lock crosses the
switch, and those that look for a process and keep its lock.
-/

namespace FeedbackQueue.Kernel

open Lock (Bank)

variable {cfg : Config} {α β : Type} {gs fs : List LockName}

/-- Whenever the operation answers, with just some locks held before, the locks that are then held
depend on the answer, over interrupts that were on or off as before. -/
def Relocks (op : Kernel cfg α) (gs fs : List LockName) (gs' fs' : α → List LockName) : Prop :=
  ∀ e m a m', m.locks = .holding e gs fs → op m = .ok a m' → m'.locks = .holding e (gs' a) (fs' a)

/-- Whenever the operation answers, the locks that are held are those that were held before. -/
def Keeps (op : Kernel cfg α) : Prop :=
  ∀ gs fs, Relocks op gs fs (fun _ => gs) (fun _ => fs)

/-! ## Rules -/

theorem Relocks.bind {x : Kernel cfg α} {f : α → Kernel cfg β} {gs₁ fs₁ : α → List LockName}
    {gs₂ fs₂ : β → List LockName} (hx : Relocks x gs fs gs₁ fs₁)
    (hf : ∀ a, Relocks (f a) (gs₁ a) (fs₁ a) gs₂ fs₂) : Relocks (x >>= f) gs fs gs₂ fs₂ := by
  intro e m b m' hlocks hok
  obtain ⟨a, t, hxa, hfa⟩ := exists_ok_of_bind hok
  exact hf a e t b m' (hx e m a t hlocks hxa) hfa

theorem Relocks.pure {a : α} {gs' fs' : α → List LockName} (hgs : gs' a = gs) (hfs : fs' a = fs) :
    Relocks (Pure.pure a : Kernel cfg α) gs fs gs' fs' := by
  intro e m b m' hlocks hok
  cases hok
  rw [hgs, hfs, hlocks]

namespace Keeps

theorem pure (a : α) : Keeps (Pure.pure a : Kernel cfg α) :=
  fun _ _ => .pure rfl rfl

theorem bind {x : Kernel cfg α} {f : α → Kernel cfg β} (hx : Keeps x) (hf : ∀ a, Keeps (f a)) :
    Keeps (x >>= f) :=
  fun gs fs => (hx gs fs).bind fun a => hf a gs fs

/-- What has nothing to do with locks keeps them. -/
theorem of_locks {op : Kernel cfg α} (h : ∀ m a m', op m = .ok a m' → m'.locks = m.locks) :
    Keeps op :=
  fun _ _ _ m a m' hlocks hok => (h m a m' hok).trans hlocks

theorem throw (fault : Fault) : Keeps (throw fault : Kernel cfg α) :=
  of_locks fun _ _ _ hok => by cases hok

theorem ofExcept (x : Except Fault α) : Keeps (ofExcept x : Kernel cfg α) := by
  cases x with
  | ok a => exact pure a
  | error fault => exact throw fault

theorem get : Keeps (get : Kernel cfg (Machine cfg)) :=
  of_locks fun _ _ _ hok => by cases hok; rfl

theorem modifyScheduler (f : Scheduler cfg → Scheduler cfg) : Keeps (modifyScheduler f) :=
  of_locks fun _ _ _ hok => by cases hok; rfl

theorem modifyHardware (f : Hardware cfg.maxProcs → Hardware cfg.maxProcs) :
    Keeps (modifyHardware f) :=
  of_locks fun _ _ _ hok => by cases hok; rfl

theorem note (event : Event) : Keeps (note event : Kernel cfg Unit) :=
  of_locks fun _ _ _ hok => by cases hok; rfl

theorem mapM {f : α → Kernel cfg β} (h : ∀ a, Keeps (f a)) (as : List α) : Keeps (as.mapM f) := by
  induction as with
  | nil => exact pure []
  | cons a rest ih =>
    rw [List.mapM_cons]
    exact (h a).bind fun _ => ih.bind fun _ => pure _

theorem filterM {f : α → Kernel cfg Bool} (h : ∀ a, Keeps (f a)) (as : List α) :
    Keeps (as.filterM f) := by
  have haux : ∀ kept, Keeps (as.filterAuxM f kept) := by
    induction as with
    | nil => exact pure
    | cons a rest ih => exact fun kept => (h a).bind fun _ => ih _
  exact (haux []).bind fun _ => pure _

end Keeps

/-! ## Locks -/

theorem relocks_acquire (lock : LockName) :
    Relocks (acquire lock : Kernel cfg Unit) gs fs (fun _ => lock :: gs) (fun _ => fs) := by
  rintro e ⟨s, w, b, j⟩ ⟨⟩ m' rfl hok
  by_cases hheld : lock ∈ gs ∨ lock ∈ fs
  · have hnone : (Bank.holding e gs fs).acquire? lock = none :=
      if_pos (Bank.isHeld_holding_iff.mpr hheld)
    simp only [acquire, bind_apply, get_apply, hnone] at hok
    cases hok
  · rw [not_or] at hheld
    rw [acquire_apply hheld.1 hheld.2] at hok
    cases hok
    rfl

theorem relocks_release {lock : LockName} (hg : lock ∈ gs) :
    Relocks (release lock : Kernel cfg Unit) gs fs (fun _ => gs.erase lock) (fun _ => fs) := by
  rintro e ⟨s, w, b, j⟩ ⟨⟩ m' rfl hok
  rw [release_apply hg] at hok
  cases hok
  rfl

/-- The lock that was taken last is released. -/
theorem relocks_release_head (lock : LockName) :
    Relocks (release lock : Kernel cfg Unit) (lock :: gs) fs (fun _ => gs) (fun _ => fs) := by
  have h : Relocks (release lock : Kernel cfg Unit) (lock :: gs) fs
      (fun _ => (lock :: gs).erase lock) (fun _ => fs) := relocks_release List.mem_cons_self
  rwa [List.erase_cons_head] at h

/-- A section releases its lock, whatever other locks its body has taken. -/
theorem relocks_locked {lock : LockName} {body : Kernel cfg α} {gs' fs' : α → List LockName}
    (hbody : Relocks body (lock :: gs) fs gs' fs') (hmem : ∀ a, lock ∈ gs' a) :
    Relocks (locked lock body) gs fs (fun a => (gs' a).erase lock) fs' :=
  (relocks_acquire lock).bind fun _ => hbody.bind fun a => (relocks_release (hmem a)).bind
    fun _ => .pure rfl rfl

theorem Keeps.locked (lock : LockName) {body : Kernel cfg α} (hbody : Keeps body) :
    Keeps (locked lock body) := fun gs fs => by
  have h := relocks_locked (hbody (lock :: gs) fs) fun _ => List.mem_cons_self
  simpa only [List.erase_cons_head] using h

/-! ## Sections -/

section Sections

variable (slot : Fin cfg.maxProcs)

theorem keeps_slotAt (i : Nat) : Keeps (slotAt i : Kernel cfg _) := by
  unfold slotAt
  split
  · exact .pure _
  · exact .throw _

theorem keeps_cpuAt (i : Nat) : Keeps (cpuAt i : Kernel cfg _) := by
  unfold cpuAt
  split
  · exact .pure _
  · exact .throw _

theorem keeps_record : Keeps (record slot) :=
  Keeps.get.bind fun _ => .pure _

theorem keeps_adjust (f : Record → Record) : Keeps (adjust slot f) :=
  .modifyScheduler _

theorem keeps_enter (target : ProcState) : Keeps (enter slot target) :=
  (keeps_record slot).bind fun _ => (Keeps.ofExcept _).bind fun _ => keeps_adjust slot _

theorem keeps_queues : Keeps (queues : Kernel cfg _) :=
  Keeps.get.bind fun _ => .pure _

theorem keeps_setQueues (q : Queues cfg.levels cfg.maxProcs) : Keeps (setQueues q) :=
  .modifyScheduler _

theorem keeps_count (occurrence : Occurrence) : Keeps (count occurrence : Kernel cfg Unit) :=
  .modifyScheduler _

theorem keeps_peek : Keeps (peek slot) :=
  (keeps_record slot).locked _

theorem keeps_withCpu (cpu : Nat) (f : Cpu cfg.maxProcs → α × Cpu cfg.maxProcs) :
    Keeps (withCpu cpu f) :=
  (keeps_cpuAt cpu).bind fun _ => .locked _ <| Keeps.get.bind fun _ =>
    (Keeps.modifyScheduler _).bind fun _ => .pure _

theorem keeps_current (cpu : Nat) : Keeps (current cpu : Kernel cfg _) :=
  keeps_withCpu cpu _

theorem keeps_setCurrent (cpu : Nat) (found : Option (Fin cfg.maxProcs)) :
    Keeps (setCurrent cpu found) :=
  keeps_withCpu cpu _

theorem keeps_withQueues (f : Queues cfg.levels cfg.maxProcs →
    Except Fault (α × Queues cfg.levels cfg.maxProcs)) : Keeps (withQueues f) :=
  .locked _ <| keeps_queues.bind fun _ => (Keeps.ofExcept _).bind fun _ =>
    (keeps_setQueues _).bind fun _ => .pure _

theorem keeps_queueAtHome : Keeps (queueAtHome slot) :=
  keeps_withQueues _

/-! ## Looking for a slot -/

variable (wanted : Record → Bool)

theorem relocks_grab : Relocks (grab wanted slot) gs fs
    (fun kept => if kept then .process slot :: gs else gs) (fun _ => fs) := by
  refine (relocks_acquire _).bind fun _ => (keeps_record slot _ _).bind fun r => ?_
  split
  · exact .pure rfl rfl
  · exact (relocks_release_head _).bind fun _ => .pure rfl rfl

/-- A search ends with the lock of the slot that it answers. -/
theorem relocks_seize (slots : List (Fin cfg.maxProcs)) : Relocks (seize wanted slots) gs fs
    (fun found => lockOf found ++ gs) (fun _ => fs) := by
  induction slots with
  | nil => exact .pure rfl rfl
  | cons slot rest ih =>
    refine (relocks_grab slot wanted).bind fun kept => ?_
    cases kept with
    | true => exact .pure rfl rfl
    | false => exact ih

theorem keeps_locate (slots : List (Fin cfg.maxProcs)) : Keeps (locate wanted slots) := by
  induction slots with
  | nil => exact .pure none
  | cons slot rest ih =>
    rw [locate, List.findM?]
    refine ((keeps_peek slot).bind fun r => .pure (wanted r)).bind fun found => ?_
    cases found with
    | true => exact .pure (some slot)
    | false => exact ih

theorem keeps_find (pid : Pid) : Keeps (find pid : Kernel cfg _) :=
  keeps_locate _ _

end Sections

/-! ## Picks -/

theorem keeps_swapSets : Keeps (swapSets : Kernel cfg Unit) :=
  keeps_queues.bind fun _ =>
    (Keeps.filterM (fun slot => (keeps_peek slot).bind fun _ => .pure _) _).bind fun _ =>
      (keeps_setQueues _).bind fun _ => (keeps_count _).bind fun _ => .note _

theorem keeps_swapIfIdle (levels : Nat) : Keeps (swapIfIdle levels : Kernel cfg Unit) := by
  unfold swapIfIdle
  split
  · refine keeps_queues.bind fun _ => (keeps_locate _ _).bind fun runnable => ?_
    split
    · exact keeps_swapSets
    · exact .pure _
  · exact .pure _

theorem relocks_pickQueued (levels : Nat) : Relocks (pickQueued levels : Kernel cfg _) gs fs
    (fun found => lockOf found ++ gs) (fun _ => fs) := by
  have hrelease : ∀ found : Option (Fin cfg.maxProcs),
      (lockOf found ++ .queues :: gs).erase .queues = lockOf found ++ gs := by
    intro found
    cases found <;> simp [lockOf]
  have h : Relocks (pickQueued levels : Kernel cfg _) gs fs
      (fun found => (lockOf found ++ .queues :: gs).erase .queues) (fun _ => fs) := by
    refine relocks_locked ?_ fun found => by simp
    exact (keeps_swapIfIdle levels _ _).bind fun _ => (keeps_queues _ _).bind fun q =>
      relocks_seize _ _
  simpa only [hrelease] using h

theorem keeps_scanSlot (cursor offset : Nat) : Keeps (scanSlot cursor offset : Kernel cfg _) := by
  unfold scanSlot
  split
  · exact keeps_slotAt _
  · exact .throw _

theorem relocks_scan (cursor : Nat) (offsets : List Nat) :
    Relocks (scan cursor offsets : Kernel cfg _) gs fs
      (fun found => lockOf found ++ gs) (fun _ => fs) := by
  induction offsets with
  | nil => exact .pure rfl rfl
  | cons offset rest ih =>
    refine (keeps_scanSlot cursor offset _ _).bind fun slot => ?_
    refine (relocks_grab slot _).bind fun kept => ?_
    cases kept with
    | true => exact .pure rfl rfl
    | false => exact ih

theorem relocks_pickScanned (cpu : Nat) : Relocks (pickScanned cpu : Kernel cfg _) gs fs
    (fun found => lockOf found ++ gs) (fun _ => fs) := by
  refine (keeps_withCpu cpu _ _ _).bind fun cursor => (relocks_scan cursor _).bind fun found => ?_
  cases found with
  | none => exact .pure rfl rfl
  | some slot => exact (keeps_withCpu cpu _ _ _).bind fun _ => .pure rfl rfl

/-- A pick ends with the lock of the process that it answers. -/
theorem relocks_pick (cpu : Nat) : Relocks (pick cpu : Kernel cfg _) gs fs
    (fun found => lockOf found ++ gs) (fun _ => fs) := by
  unfold pick
  cases cfg.effectivePolicy with
  | fifo => exact relocks_pickScanned cpu
  | roundRobin => exact relocks_pickQueued 1
  | feedback => exact relocks_pickQueued cfg.levels

theorem keeps_pickAndDrop (cpu : Nat) : Keeps (pickAndDrop cpu : Kernel cfg _) := by
  refine fun gs fs => (relocks_pick cpu).bind fun found => ?_
  cases found with
  | none => exact .pure rfl rfl
  | some slot => exact (relocks_release_head _).bind fun _ => .pure rfl rfl

/-! ## Creating and reaping -/

theorem relocks_claim : Relocks (claim : Kernel cfg _) gs fs
    (fun found => lockOf found ++ gs) (fun _ => fs) := by
  refine (relocks_seize _ _).bind fun found => ?_
  cases found with
  | none => exact .pure rfl rfl
  | some slot => exact (Keeps.modifyScheduler _ _ _).bind fun _ => .pure rfl rfl

theorem keeps_makeFirstRunnable (slot : Fin cfg.maxProcs) : Keeps (makeFirstRunnable slot) := by
  refine .locked _ ((keeps_record slot).bind fun fresh => ?_)
  split
  · exact (Keeps.throw _).bind fun _ => keeps_enter slot _
  · exact keeps_enter slot _

theorem keeps_create (name : String) (priority : Option Nat) (parent : Option Pid) :
    Keeps (create name priority parent : Kernel cfg _) := by
  unfold create
  split
  · exact .pure _
  · refine fun gs fs => relocks_claim.bind fun found => ?_
    cases found with
    | none => exact .pure rfl rfl
    | some slot =>
      refine (keeps_adjust slot _ _ _).bind fun _ => (keeps_record slot _ _).bind fun r => ?_
      refine (relocks_release_head _).bind fun _ => (keeps_withQueues _ _ _).bind fun _ => ?_
      exact (Keeps.note _ _ _).bind fun _ => .pure rfl rfl

theorem keeps_activate (i : Nat) : Keeps (activate i : Kernel cfg Unit) := by
  refine (keeps_slotAt i).bind fun slot => (keeps_makeFirstRunnable slot).bind fun _ => ?_
  split
  · exact (keeps_queueAtHome slot).bind fun _ => keeps_count _
  · exact keeps_count _

theorem keeps_fork (name : String) (priority : Option Nat) (parent : Option Pid) :
    Keeps (fork name priority parent : Kernel cfg _) := by
  refine (keeps_create name priority parent).bind fun outcome => ?_
  cases outcome with
  | error refusal => exact .pure _
  | ok slot => exact (keeps_activate slot).bind fun _ => .pure _

theorem keeps_reap (i : Nat) : Keeps (reap i : Kernel cfg _) := by
  refine (keeps_slotAt i).bind fun slot => .locked _ ((keeps_record slot).bind fun r => ?_)
  split
  · exact .pure _
  · exact (keeps_adjust slot _).bind fun _ => .pure _

theorem keeps_setKilled (i : Nat) : Keeps (setKilled i : Kernel cfg Unit) :=
  (keeps_slotAt i).bind fun slot => .locked _ (keeps_adjust slot _)

/-! ## The timer -/

theorem keeps_tick (cpu : Nat) : Keeps (tick cpu : Kernel cfg Bool) := by
  refine (Keeps.modifyHardware _).bind fun _ => (keeps_current cpu).bind fun found => ?_
  cases found with
  | none => exact .pure _
  | some slot =>
    have hcharge : Keeps (chargeProcess slot) :=
      .locked _ ((keeps_adjust slot _).bind fun _ => (keeps_record slot).bind fun _ => .pure _)
    refine hcharge.bind fun left => ?_
    split
    · exact .pure _
    · exact .pure _
    · exact (keeps_withQueues _).bind fun _ => .pure _

/-! ## Waking and killing -/

theorem keeps_makeRunnable (slot : Fin cfg.maxProcs) : Keeps (makeRunnable slot) := by
  refine (keeps_enter slot _).bind fun _ => (keeps_adjust slot _).bind fun _ => ?_
  split
  · exact (keeps_adjust slot _).bind fun _ => keeps_count _
  · exact keeps_count _

theorem keeps_requeueWoken (slot : Fin cfg.maxProcs) (pid : Pid) :
    Keeps (requeueWoken slot pid) := by
  unfold requeueWoken
  split
  case isTrue =>
    refine .locked _ (.locked _ ((keeps_record slot).bind fun r => ?_))
    split
    · exact .note _
    · exact keeps_queues.bind fun q => (Keeps.ofExcept _).bind fun _ => keeps_setQueues _
  case isFalse => exact .pure _

theorem keeps_wakeSleeper (channel : Nat) (slot : Fin cfg.maxProcs) :
    Keeps (wakeSleeper channel slot) := by
  refine .locked _ ((keeps_record slot).bind fun r => ?_)
  split
  · exact (keeps_makeRunnable slot).bind fun _ => .pure _
  · exact .pure _

theorem keeps_killLocked (slot : Fin cfg.maxProcs) (pid : Pid) : Keeps (killLocked slot pid) := by
  refine (keeps_adjust slot _).bind fun _ => (keeps_count _).bind fun _ => ?_
  refine (keeps_record slot).bind fun r => (Keeps.note _).bind fun _ => ?_
  dsimp only
  split
  · exact (keeps_makeRunnable slot).bind fun _ => .pure _
  · exact .pure _

theorem keeps_markKilled (pid : Pid) : Keeps (markKilled pid : Kernel cfg _) := by
  refine fun gs fs => (relocks_seize _ _).bind fun found => ?_
  cases found with
  | none => exact .pure rfl rfl
  | some slot =>
    refine (keeps_killLocked slot pid _ _).bind fun woken => ?_
    exact (relocks_release_head _).bind fun _ => .pure rfl rfl

/-- A wakeup keeps the locks if everything that is done in its windows does. -/
theorem keeps_wakeup (channel : Nat) {window : Nat → Kernel cfg Unit}
    (hwindow : ∀ woken, Keeps (window woken)) :
    Keeps (wakeup cfg channel window : Kernel cfg Nat) := by
  have hamong : ∀ slots woken, Keeps (wakeAmong cfg channel window woken slots) := by
    intro slots
    induction slots with
    | nil => exact fun woken => .pure woken
    | cons slot rest ih =>
      refine fun woken => (keeps_wakeSleeper channel slot).bind fun found => ?_
      cases found with
      | none => exact ih woken
      | some pid =>
        exact (hwindow woken).bind fun _ => (keeps_requeueWoken slot pid).bind fun _ =>
          ih (woken + 1)
  exact hamong _ 0

/-- A kill keeps the locks if everything that is done in its window does. -/
theorem keeps_kill (pid : Pid) {window : Kernel cfg Unit} (hwindow : Keeps window) :
    Keeps (kill cfg pid window : Kernel cfg _) := by
  refine (keeps_markKilled pid).bind fun outcome => ?_
  obtain refusal | ⟨slot, woken⟩ := outcome
  · exact .pure _
  · dsimp only
    split
    · exact hwindow.bind fun _ => (keeps_requeueWoken slot pid).bind fun _ => .pure _
    · exact .pure _

/-! ## Reports -/

theorem keeps_liveRecords : Keeps (liveRecords : Kernel cfg _) :=
  (Keeps.mapM keeps_peek _).bind fun _ => .pure _

theorem keeps_dump : Keeps (dump : Kernel cfg String) := by
  have hqueue : ∀ level set quantum, Keeps (dumpQueue level set quantum : Kernel cfg _) :=
    fun level set quantum => Keeps.get.bind fun _ => keeps_queues.bind fun _ =>
      (Keeps.mapM keeps_peek _).bind fun _ => .pure _
  refine Keeps.bind ?_ fun _ => .pure _
  unfold dumpLines
  split
  · refine .locked _ (.mapM (fun queue => ?_) _)
    exact keeps_queues.bind fun _ => (Keeps.ofExcept _).bind fun _ => hqueue _ _ _
  · exact .locked _ ((hqueue _ _ _).bind fun _ => .pure _)
  · exact Keeps.get.bind fun _ => keeps_liveRecords.bind fun _ => .pure _

theorem keeps_listing : Keeps (listing : Kernel cfg String) :=
  keeps_liveRecords.bind fun _ => .pure _

theorem keeps_openWindow (duration : UInt64) : Keeps (openWindow duration : Kernel cfg Unit) :=
  Keeps.get.bind fun _ => (Keeps.modifyScheduler _).bind fun _ => .note _

theorem keeps_reportDispatch : Keeps (reportDispatch : Kernel cfg Unit) := by
  refine Keeps.get.bind fun s => ?_
  dsimp only
  split
  · split
    · exact keeps_dump.bind fun _ => .modifyHardware _
    · exact .modifyScheduler _
  · exact .pure _

end FeedbackQueue.Kernel
