import FeedbackQueue.Kernel.Machine
import FeedbackQueue.Proofs.Lock.Holding

/-!
# Sections as equations

What the sections of `FeedbackQueue.Kernel.Machine` do to a machine that holds given locks.  No
section here faults when the locks that it takes are free, and one that only looks leaves the
machine as it was.

The machine is written out as `⟨s, w, .holding e gs fs, j⟩`, so that an operation is carried out by
rewriting with the equations of its parts.
-/

namespace FeedbackQueue.Kernel

open Lock (Bank)

variable {cfg : Config} {α β : Type}

/-! ## The monad -/

section Monad

variable {m m' : Machine cfg}

theorem bind_apply (x : Kernel cfg α) (f : α → Kernel cfg β) (m : Machine cfg) :
    (x >>= f) m = match x m with
      | .ok a m => f a m
      | .error fault m => .error fault m := by
  cases h : x m <;> simp [bind, EStateM.bind, h]

theorem bind_of_ok {x : Kernel cfg α} {f : α → Kernel cfg β} {a : α} (h : x m = .ok a m') :
    (x >>= f) m = f a m' := by
  rw [bind_apply, h]

theorem bind_of_error {x : Kernel cfg α} {f : α → Kernel cfg β} {fault : Fault}
    (h : x m = .error fault m') : (x >>= f) m = .error fault m' := by
  rw [bind_apply, h]

/-- An operation that has answered has handed its answer on. -/
theorem exists_ok_of_bind {x : Kernel cfg α} {f : α → Kernel cfg β} {b : β}
    (h : (x >>= f) m = .ok b m') : ∃ a t, x m = .ok a t ∧ f a t = .ok b m' := by
  cases hx : x m with
  | ok a t =>
    rw [bind_of_ok hx] at h
    exact ⟨a, t, rfl, h⟩
  | error fault t =>
    rw [bind_of_error hx] at h
    cases h

theorem pure_apply (a : α) (m : Machine cfg) : (pure a : Kernel cfg α) m = .ok a m := rfl

theorem get_apply (m : Machine cfg) : (get : Kernel cfg (Machine cfg)) m = .ok m m := rfl

theorem modify_apply (f : Machine cfg → Machine cfg) (m : Machine cfg) :
    (modify f : Kernel cfg PUnit) m = .ok () (f m) := rfl

theorem ofExcept_ok_apply (a : α) (m : Machine cfg) :
    (ofExcept (.ok a) : Kernel cfg α) m = .ok a m := rfl

end Monad

variable {s : Scheduler cfg} {w : Hardware cfg.maxProcs} {e : Bool} {gs fs : List LockName}
variable {j : Array Event}

/-! ## Locks -/

theorem acquire_apply {lock : LockName} (hg : lock ∉ gs) (hf : lock ∉ fs) :
    acquire lock ⟨s, w, .holding e gs fs, j⟩ = .ok () ⟨s, w, .holding e (lock :: gs) fs, j⟩ := by
  simp [acquire, bind_apply, get_apply, modify_apply, Bank.acquire?_holding hg hf]

theorem release_apply {lock : LockName} (hg : lock ∈ gs) :
    release lock ⟨s, w, .holding e gs fs, j⟩ = .ok () ⟨s, w, .holding e (gs.erase lock) fs, j⟩ := by
  simp [release, modify_apply, Bank.release_holding hg]

/-- A section releases its lock, whatever other locks its body has taken or released. -/
theorem locked_apply_of_mem {lock : LockName} (hg : lock ∉ gs) (hf : lock ∉ fs)
    {body : Kernel cfg α} {a : α} {s' : Scheduler cfg} {w' : Hardware cfg.maxProcs}
    {gs' fs' : List LockName} {j' : Array Event} (hin : lock ∈ gs')
    (hbody : body ⟨s, w, .holding e (lock :: gs) fs, j⟩ = .ok a ⟨s', w', .holding e gs' fs', j'⟩) :
    locked lock body ⟨s, w, .holding e gs fs, j⟩
      = .ok a ⟨s', w', .holding e (gs'.erase lock) fs', j'⟩ := by
  rw [locked, bind_of_ok (acquire_apply hg hf), bind_of_ok hbody, bind_of_ok (release_apply hin),
    pure_apply]

/-- A section whose body leaves the locks as they are leaves them as they were. -/
theorem locked_apply {lock : LockName} (hg : lock ∉ gs) (hf : lock ∉ fs) {body : Kernel cfg α}
    {a : α} {s' : Scheduler cfg} {w' : Hardware cfg.maxProcs} {fs' : List LockName}
    {j' : Array Event}
    (hbody : body ⟨s, w, .holding e (lock :: gs) fs, j⟩
      = .ok a ⟨s', w', .holding e (lock :: gs) fs', j'⟩) :
    locked lock body ⟨s, w, .holding e gs fs, j⟩ = .ok a ⟨s', w', .holding e gs fs', j'⟩ := by
  rw [locked_apply_of_mem hg hf List.mem_cons_self hbody, List.erase_cons_head]

/-! ## Records and queues -/

section Access

variable (b : Bank LockName) (slot : Fin cfg.maxProcs)

theorem slotAt_apply {i : Nat} (h : i < cfg.maxProcs) (m : Machine cfg) :
    slotAt i m = .ok ⟨i, h⟩ m := by
  simp [slotAt, h, pure_apply]

theorem cpuAt_apply {i : Nat} (h : i < cfg.ncpu) (m : Machine cfg) : cpuAt i m = .ok ⟨i, h⟩ m := by
  simp [cpuAt, h, pure_apply]

theorem modifyHardware_apply (f : Hardware cfg.maxProcs → Hardware cfg.maxProcs) :
    modifyHardware f ⟨s, w, b, j⟩ = .ok () ⟨s, f w, b, j⟩ := rfl

theorem record_apply : record slot ⟨s, w, b, j⟩ = .ok (s.table.record slot) ⟨s, w, b, j⟩ := rfl

theorem adjust_apply (f : Record → Record) : adjust slot f ⟨s, w, b, j⟩
    = .ok () ⟨{ s with table := s.table.adjust slot f }, w, b, j⟩ := rfl

theorem queues_apply : queues ⟨s, w, b, j⟩ = .ok s.queues ⟨s, w, b, j⟩ := rfl

theorem setQueues_apply (q : Queues cfg.levels cfg.maxProcs) :
    setQueues q ⟨s, w, b, j⟩ = .ok () ⟨{ s with queues := q }, w, b, j⟩ := rfl

theorem count_apply (occurrence : Occurrence) : count occurrence ⟨s, w, b, j⟩
    = .ok () ⟨{ s with stats := s.stats.record occurrence }, w, b, j⟩ := rfl

theorem note_apply (event : Event) : note event ⟨s, w, b, j⟩ = .ok () ⟨s, w, b, j.push event⟩ := rfl

theorem enter_apply {target : ProcState} (h : (s.table.record slot).state.mayBecome target = true) :
    enter slot target ⟨s, w, b, j⟩
      = .ok () ⟨{ s with table := s.table.adjust slot fun r => { r with state := target } },
          w, b, j⟩ := by
  simp [enter, bind_apply, record_apply, Record.enter, h, ofExcept_ok_apply, adjust_apply,
    Table.adjust]

end Access

/-! ## Sections -/

theorem peek_apply (slot : Fin cfg.maxProcs) (hg : .process slot ∉ gs) (hf : .process slot ∉ fs) :
    peek slot ⟨s, w, .holding e gs fs, j⟩
      = .ok (s.table.record slot) ⟨s, w, .holding e gs fs, j⟩ :=
  locked_apply hg hf (record_apply ..)

/-- A record that is put back changes nothing. -/
theorem replaceCpu_self (s : Scheduler cfg) (cpu : Fin cfg.ncpu) :
    s.replaceCpu cpu (s.cpu cpu) = s.cpus := by
  simp [Scheduler.replaceCpu, Scheduler.cpu]

theorem withCpu_apply {cpu : Nat} (hcpu : cpu < cfg.ncpu) (hg : .cpu cpu ∉ gs) (hf : .cpu cpu ∉ fs)
    (f : Cpu cfg.maxProcs → α × Cpu cfg.maxProcs) :
    withCpu cpu f ⟨s, w, .holding e gs fs, j⟩
      = .ok (f (s.cpu ⟨cpu, hcpu⟩)).1
          ⟨{ s with cpus := s.replaceCpu ⟨cpu, hcpu⟩ (f (s.cpu ⟨cpu, hcpu⟩)).2 },
            w, .holding e gs fs, j⟩ := by
  rw [withCpu, bind_of_ok (cpuAt_apply hcpu _)]
  exact locked_apply hg hf rfl

theorem current_apply {cpu : Nat} (hcpu : cpu < cfg.ncpu) (hg : .cpu cpu ∉ gs)
    (hf : .cpu cpu ∉ fs) : current cpu ⟨s, w, .holding e gs fs, j⟩
      = .ok (s.cpu ⟨cpu, hcpu⟩).current ⟨s, w, .holding e gs fs, j⟩ := by
  rw [current, withCpu_apply hcpu hg hf]
  simp [replaceCpu_self]

theorem setCurrent_apply {cpu : Nat} (hcpu : cpu < cfg.ncpu) (hg : .cpu cpu ∉ gs)
    (hf : .cpu cpu ∉ fs) (slot : Option (Fin cfg.maxProcs)) :
    setCurrent cpu slot ⟨s, w, .holding e gs fs, j⟩
      = .ok () ⟨{ s with
            cpus := s.replaceCpu ⟨cpu, hcpu⟩ { s.cpu ⟨cpu, hcpu⟩ with current := slot } },
          w, .holding e gs fs, j⟩ :=
  withCpu_apply hcpu hg hf _

theorem withQueues_apply {f : Queues cfg.levels cfg.maxProcs →
      Except Fault (α × Queues cfg.levels cfg.maxProcs)} {a : α}
    {q : Queues cfg.levels cfg.maxProcs} (hf : f s.queues = .ok (a, q)) (hg : .queues ∉ gs)
    (hfs : .queues ∉ fs) :
    withQueues f ⟨s, w, .holding e gs fs, j⟩
      = .ok a ⟨{ s with queues := q }, w, .holding e gs fs, j⟩ := by
  refine locked_apply hg hfs ?_
  rw [bind_of_ok (queues_apply _), hf, bind_of_ok (ofExcept_ok_apply ..)]
  exact bind_of_ok (setQueues_apply ..)

theorem queueAtHome_apply (slot : Fin cfg.maxProcs)
    (hhome : (s.queues.link slot).home < cfg.levels) (hg : .queues ∉ gs) (hf : .queues ∉ fs) :
    queueAtHome slot ⟨s, w, .holding e gs fs, j⟩
      = .ok () ⟨{ s with queues := s.queues.relink slot (s.queues.link slot).home .active },
          w, .holding e gs fs, j⟩ :=
  withQueues_apply (by rw [Queues.enqueue, if_pos hhome]; rfl) hg hf

/-! ## Looking for a slot -/

/-- The lock of a slot that was found. -/
def lockOf (found : Option (Fin cfg.maxProcs)) : List LockName :=
  found.toList.map fun slot => .process slot.val

theorem lockOf_some (slot : Fin cfg.maxProcs) : lockOf (some slot) = [.process slot.val] := rfl

theorem grab_apply (wanted : Record → Bool) (slot : Fin cfg.maxProcs) (hg : .process slot ∉ gs)
    (hf : .process slot ∉ fs) :
    grab wanted slot ⟨s, w, .holding e gs fs, j⟩
      = if wanted (s.table.record slot) then .ok true ⟨s, w, .holding e (.process slot :: gs) fs, j⟩
        else .ok false ⟨s, w, .holding e gs fs, j⟩ := by
  rw [grab, bind_of_ok (acquire_apply hg hf), bind_of_ok (record_apply ..)]
  split
  · rfl
  · rw [bind_of_ok (release_apply List.mem_cons_self)]
    simp [pure_apply]

/-- A search ends with the lock of the first slot whose record is wanted. -/
theorem seize_apply (wanted : Record → Bool) (slots : List (Fin cfg.maxProcs))
    (hg : ∀ i, .process i ∉ gs) (hf : ∀ i, .process i ∉ fs) :
    let found := slots.find? fun slot => wanted (s.table.record slot)
    seize wanted slots ⟨s, w, .holding e gs fs, j⟩
      = .ok found ⟨s, w, .holding e (lockOf found ++ gs) fs, j⟩ := by
  induction slots with
  | nil => rfl
  | cons slot rest ih =>
    simp only [List.find?_cons]
    rw [seize, bind_apply, grab_apply wanted slot (hg slot) (hf slot)]
    cases wanted (s.table.record slot)
    · exact ih
    · rfl

theorem locate_apply (wanted : Record → Bool) (slots : List (Fin cfg.maxProcs))
    (hg : ∀ i, .process i ∉ gs) (hf : ∀ i, .process i ∉ fs) :
    locate wanted slots ⟨s, w, .holding e gs fs, j⟩
      = .ok (slots.find? fun slot => wanted (s.table.record slot)) ⟨s, w, .holding e gs fs, j⟩ := by
  induction slots with
  | nil => rfl
  | cons slot rest ih =>
    have hlook : (do return wanted (← peek slot) : Kernel cfg Bool) ⟨s, w, .holding e gs fs, j⟩
        = .ok (wanted (s.table.record slot)) ⟨s, w, .holding e gs fs, j⟩ := by
      rw [bind_of_ok (peek_apply slot (hg slot) (hf slot)), pure_apply]
    rw [locate, List.findM?, bind_of_ok hlook, List.find?_cons]
    cases wanted (s.table.record slot)
    · exact ih
    · rfl

theorem find_apply (pid : Pid) :
    find pid ⟨s, w, .holding e [] [], j⟩
      = .ok (s.table.find? pid) ⟨s, w, .holding e [] [], j⟩ :=
  locate_apply _ _ (by simp) (by simp)

/-- Looking at one thing after another changes nothing. -/
theorem mapM_apply {f : α → Kernel cfg β} {g : α → β} {xs : List α} {m : Machine cfg}
    (h : ∀ x ∈ xs, f x m = .ok (g x) m) : xs.mapM f m = .ok (xs.map g) m := by
  induction xs with
  | nil => rfl
  | cons x rest ih =>
    rw [List.mapM_cons, bind_of_ok (h x List.mem_cons_self),
      bind_of_ok (ih fun y hy => h y (List.mem_cons_of_mem x hy)), pure_apply, List.map_cons]

theorem filterAuxM_apply {f : α → Kernel cfg Bool} {g : α → Bool} {xs : List α} {m : Machine cfg}
    (h : ∀ x ∈ xs, f x m = .ok (g x) m) (kept : List α) :
    xs.filterAuxM f kept m = .ok ((xs.filter g).reverse ++ kept) m := by
  induction xs generalizing kept with
  | nil => rfl
  | cons x rest ih =>
    rw [List.filterAuxM, bind_of_ok (h x List.mem_cons_self),
      ih (fun y hy => h y (List.mem_cons_of_mem x hy)), List.filter_cons]
    cases g x <;> simp

/-- A filter that only looks changes nothing. -/
theorem filterM_apply {f : α → Kernel cfg Bool} {g : α → Bool} {xs : List α}
    {m : Machine cfg} (h : ∀ x ∈ xs, f x m = .ok (g x) m) :
    xs.filterM f m = .ok (xs.filter g) m := by
  rw [List.filterM, bind_of_ok (filterAuxM_apply h []), pure_apply]
  simp

end FeedbackQueue.Kernel
