import FeedbackQueue.Proofs.Kernel.Sleepers
import FeedbackQueue.Proofs.Process.Search
import FeedbackQueue.Proofs.Scenario.Steps

/-!
# Refusals

Creating, killing and reaping can be refused.  At every moment of every run each is refused exactly
when its refusal is due, and then the machine is as it was before: its records and queues, its CPUs
and counters, the next pid, the locks, the hardware and the journal.

* `Scheduler.CreationRefused`, `Scheduler.KillRefused`, `Scheduler.ReapingRefused` — when a refusal
  is due;
* `Kernel.RefusesWhen` — an operation is refused exactly then, and changes nothing;
* `Reachable.refuses_when_due` — so it is at every moment of a run.
-/

namespace FeedbackQueue

open Kernel

variable {cfg : Config}

/-! ## When a refusal is due -/

namespace Scheduler

variable (s : Scheduler cfg)

/-- The refusals that are due to a creation: its priority names no level, or else there is no free
slot. -/
inductive CreationRefused (priority : Option Nat) : Refusal → Prop
  | invalidPriority {level : Nat} (given : priority = some level) (beyond : cfg.levels ≤ level) :
    CreationRefused priority (.invalidPriority level cfg.levels)
  | tableFull (named : ∀ level ∈ priority, level < cfg.levels)
    (full : ∀ slot, (s.table.record slot).state ≠ .unused) :
    CreationRefused priority (.tableFull cfg.maxProcs)

/-- The refusal that is due to a kill: no slot that holds a process carries the pid. -/
def KillRefused (pid : Pid) (refusal : Refusal) : Prop :=
  refusal = .noSuchProcess pid ∧
    ∀ slot, (s.table.record slot).state ≠ .unused → (s.table.record slot).pid ≠ pid

/-- The refusal that is due to a reaping: the process in the slot has not exited. -/
def ReapingRefused (slot : Fin cfg.maxProcs) (refusal : Refusal) : Prop :=
  refusal = .notZombie (s.table.record slot).pid ∧ (s.table.record slot).state ≠ .zombie

end Scheduler

namespace Kernel

variable {α : Type}

/-- An operation is refused exactly when a refusal is due, and then the machine is as it was.  When
no refusal is due, the operation succeeds. -/
structure RefusesWhen (op : Kernel cfg (Except Refusal α)) (m : Machine cfg)
    (due : Refusal → Prop) : Prop where
  refused_iff : ∀ refusal m', op m = .ok (.error refusal) m' ↔ due refusal ∧ m' = m
  succeeds : (∀ refusal, ¬due refusal) → ∃ a m', op m = .ok (.ok a) m'

theorem refused_iff_of {op : Kernel cfg (Except Refusal α)} {m : Machine cfg} {due : Refusal → Prop}
    (hrefuses : ∀ refusal, due refusal → op m = .ok (.error refusal) m)
    (hnot : (∀ refusal, ¬due refusal) → ∀ refusal m', op m ≠ .ok (.error refusal) m')
    (refusal : Refusal) (m' : Machine cfg) :
    op m = .ok (.error refusal) m' ↔ due refusal ∧ m' = m := by
  constructor
  · intro hrefused
    by_cases hdue : ∃ other, due other
    · obtain ⟨other, hother⟩ := hdue
      have hsame := (hrefuses other hother).symm.trans hrefused
      injection hsame with hanswer hmachine
      exact ⟨Except.error.inj hanswer ▸ hother, hmachine.symm⟩
    · exact absurd hrefused (hnot (not_exists.mp hdue) refusal m')
  · rintro ⟨hdue, rfl⟩
    exact hrefuses refusal hdue

theorem RefusesWhen.of {op : Kernel cfg (Except Refusal α)} {m : Machine cfg} {due : Refusal → Prop}
    (hrefuses : ∀ refusal, due refusal → op m = .ok (.error refusal) m)
    (hsucceeds : (∀ refusal, ¬due refusal) → ∃ a m', op m = .ok (.ok a) m') :
    RefusesWhen op m due where
  refused_iff := by
    refine refused_iff_of hrefuses fun hnone refusal m' hrefused => ?_
    obtain ⟨a, t, hok⟩ := hsucceeds hnone
    cases hok.symm.trans hrefused
  succeeds := hsucceeds

end Kernel

/-! ## Refused operations -/

namespace Kernel

variable {s : Scheduler cfg} {w : Hardware cfg.maxProcs} {e : Bool} {j : Array Event}

theorem homeLevel_eq_error_iff {priority : Option Nat} {refusal : Refusal} :
    homeLevel cfg priority = .error refusal ↔
      ∃ level, priority = some level ∧ cfg.levels ≤ level ∧
        refusal = .invalidPriority level cfg.levels := by
  cases priority with
  | none => simp [homeLevel]
  | some level =>
    simp only [homeLevel]
    split_ifs with hl
    · simp [Nat.not_le.mpr hl]
    · simp [Nat.not_lt.mp hl, eq_comm]

theorem homeLevel_of_lt {priority : Option Nat} (h : ∀ level ∈ priority, level < cfg.levels) :
    homeLevel cfg priority = .ok (priority.getD cfg.startLevel) := by
  cases priority with
  | none => rfl
  | some level => exact if_pos (h level rfl)

theorem create_refused {name : String} {priority : Option Nat} {parent : Option Pid}
    {refusal : Refusal} (h : s.CreationRefused priority refusal) :
    create name priority parent ⟨s, w, .holding e [] [], j⟩
      = .ok (.error refusal) ⟨s, w, .holding e [] [], j⟩ := by
  cases h with
  | @invalidPriority level given beyond =>
    rw [create, homeLevel_eq_error_iff.mpr ⟨level, given, beyond, rfl⟩]
    rfl
  | tableFull named full =>
    have hclaim := claim_apply (s := s) (w := w) (e := e) (j := j)
    rw [Table.firstFree?_eq_none_iff.mpr full] at hclaim
    rw [create, homeLevel_of_lt named]
    exact bind_of_ok hclaim

theorem fork_refused {name : String} {priority : Option Nat} {parent : Option Pid}
    {refusal : Refusal} (h : s.CreationRefused priority refusal) :
    fork name priority parent ⟨s, w, .holding e [] [], j⟩
      = .ok (.error refusal) ⟨s, w, .holding e [] [], j⟩ :=
  bind_of_ok (create_refused h)

/-- When no refusal is due to a creation, there is a level and a free slot. -/
theorem exists_of_not_refused {priority : Option Nat}
    (h : ∀ refusal, ¬s.CreationRefused priority refusal) :
    homeLevel cfg priority = .ok (priority.getD cfg.startLevel) ∧
      ∃ slot, s.table.firstFree? = some slot := by
  have hnamed : ∀ level ∈ priority, level < cfg.levels := fun level hlevel =>
    Nat.lt_of_not_le fun hbeyond => h _ (.invalidPriority hlevel hbeyond)
  refine ⟨homeLevel_of_lt hnamed, Option.ne_none_iff_exists'.mp fun hnone => ?_⟩
  exact h _ (.tableFull hnamed (Table.firstFree?_eq_none_iff.mp hnone))

theorem create_refusesWhen (hs : s.Sound) (hv : cfg.IsValid) (name : String) (priority : Option Nat)
    (parent : Option Pid) :
    RefusesWhen (create name priority parent) ⟨s, w, .holding e [] [], j⟩
      (s.CreationRefused priority) := by
  refine .of (fun _ => create_refused) fun hnone => ?_
  obtain ⟨hhome, slot, hfree⟩ := exists_of_not_refused hnone
  obtain ⟨outcome, effects, w', e', j', hpost, -, hok⟩ :=
    create_ensures hs hv name priority parent w e j
  rw [hhome, hfree] at hpost
  exact ⟨slot, _, hpost.1 ▸ hok⟩

theorem fork_refusesWhen (hs : s.Sound) (hv : cfg.IsValid) (name : String) (priority : Option Nat)
    (parent : Option Pid) :
    RefusesWhen (fork name priority parent) ⟨s, w, .holding e [] [], j⟩
      (s.CreationRefused priority) := by
  refine .of (fun _ => fork_refused) fun hnone => ?_
  obtain ⟨hhome, slot, hfree⟩ := exists_of_not_refused hnone
  obtain ⟨outcome, effects, w', e', j', hpost, -, hok⟩ :=
    fork_ensures hs hv name priority parent w e j
  rw [hhome, hfree] at hpost
  exact ⟨slot, _, hpost.1 ▸ hok⟩

theorem reap_refusesWhen (slot : Fin cfg.maxProcs) :
    RefusesWhen (reap slot) ⟨s, w, .holding e [] [], j⟩ (s.ReapingRefused slot) := by
  refine .of ?_ fun hnone => ?_
  · rintro refusal ⟨rfl, hstate⟩
    rw [reap, bind_of_ok (slotAt_apply slot.isLt _)]
    refine locked_apply List.not_mem_nil List.not_mem_nil ?_
    rw [bind_of_ok (record_apply ..), if_pos hstate, pure_apply]
  · have hzombie : (s.table.record slot).state = .zombie :=
      by_contra fun hstate => hnone _ ⟨rfl, hstate⟩
    obtain ⟨outcome, effects, w', e', j', hpost, -, hok⟩ := reap_ensures slot w e j
    rw [if_pos hzombie] at hpost
    exact ⟨_, _, hpost.1 ▸ hok⟩

/-! ## Kills -/

/-- The refusal is due exactly when no process is found. -/
theorem killRefused_iff {pid : Pid} {refusal : Refusal} :
    s.KillRefused pid refusal ↔ refusal = .noSuchProcess pid ∧ s.table.find? pid = none := by
  rw [Scheduler.KillRefused, Table.find?_eq_none_iff]

/-- A kill is refused in its first step or not at all, whatever is done in its window. -/
theorem kill_refused_iff (pid : Pid) (window : Kernel cfg Unit) (refusal : Refusal)
    (m' : Machine cfg) :
    (kill cfg pid window : Kernel cfg _) ⟨s, w, .holding e [] [], j⟩ = .ok (.error refusal) m' ↔
      s.KillRefused pid refusal ∧ m' = ⟨s, w, .holding e [] [], j⟩ := by
  rw [killRefused_iff]
  cases hfound : s.table.find? pid with
  | none => simp [kill_of_find?_eq_none hfound, eq_comm]
  | some slot =>
    rw [kill_of_find?_eq_some hfound, bind_apply]
    split <;> simp [pure_apply]

theorem kill_succeeds (hs : s.Sound) {pid : Pid} (hnone : ∀ refusal, ¬s.KillRefused pid refusal) :
    ∃ a m', (kill cfg pid (pure ()) : Kernel cfg _) ⟨s, w, .holding e [] [], j⟩
      = .ok (.ok a) m' := by
  obtain ⟨slot, hfound⟩ : ∃ slot, s.table.find? pid = some slot :=
    Option.ne_none_iff_exists'.mp fun hfound => hnone _ (killRefused_iff.mpr ⟨rfl, hfound⟩)
  have hkilled := kill_apply hs.queues (w := w) (e := e) (j := j) pid
  rw [hfound] at hkilled
  exact ⟨(), _, hkilled⟩

end Kernel

/-- At every moment of every run, creating, forking, killing and reaping are refused exactly when a
refusal is due, and then nothing at all has changed.  When no refusal is due they succeed; a kill is
not refused either when other things happen in its window. -/
theorem Reachable.refuses_when_due (hv : cfg.IsValid) {m : Moment cfg} (hm : Reachable m) :
    (∀ name priority parent, RefusesWhen (create name priority parent) m.machine
      (m.machine.scheduler.CreationRefused priority)) ∧
    (∀ name priority parent, RefusesWhen (fork name priority parent) m.machine
      (m.machine.scheduler.CreationRefused priority)) ∧
    (∀ pid, RefusesWhen (kill cfg pid (pure ()) : Kernel cfg _) m.machine
      (m.machine.scheduler.KillRefused pid)) ∧
    (∀ pid (window : Kernel cfg Unit) refusal m',
      (kill cfg pid window : Kernel cfg _) m.machine = .ok (.error refusal) m' ↔
        m.machine.scheduler.KillRefused pid refusal ∧ m' = m.machine) ∧
    ∀ slot : Fin cfg.maxProcs, RefusesWhen (reap slot) m.machine
      (m.machine.scheduler.ReapingRefused slot) := by
  have hsound := hm.sound hv
  have hs := hsound.scheduler
  refine ⟨fun name priority parent => ?_, fun name priority parent => ?_, fun pid => ?_,
    fun pid window refusal m' => ?_, fun slot => ?_⟩
  · exact hsound.machine_of_forall (P := fun t => RefusesWhen _ t _)
      fun w e j => create_refusesWhen hs hv name priority parent
  · exact hsound.machine_of_forall (P := fun t => RefusesWhen _ t _)
      fun w e j => fork_refusesWhen hs hv name priority parent
  · exact hsound.machine_of_forall (P := fun t => RefusesWhen _ t _) fun w e j =>
      ⟨kill_refused_iff pid _, kill_succeeds hs⟩
  · exact hsound.machine_of_forall
      (P := fun t => (kill cfg pid window : Kernel cfg _) t = .ok (.error refusal) m' ↔ _ ∧ m' = t)
      fun w e j => kill_refused_iff pid window refusal m'
  · exact hsound.machine_of_forall (P := fun t => RefusesWhen _ t _)
      fun w e j => reap_refusesWhen slot

/-- The only slot is taken by a process that waits for a CPU. -/
def onlySlotTaken : List Step :=
  [.act (.fork "worker" none none)]

theorem onlySlotTaken_refuses : ∃ m ∈ (Moment.fresh .smallest).walk? onlySlotTaken,
    create "other" (some 7) none m.machine
      = .ok (.error (.invalidPriority 7 Config.smallest.levels)) m.machine ∧
    fork "other" (some 0) none m.machine
      = .ok (.error (.tableFull Config.smallest.maxProcs)) m.machine ∧
    (kill .smallest 0 (pure ()) : Kernel .smallest _) m.machine
      = .ok (.error (.noSuchProcess 0)) m.machine ∧
    reap Config.onlySlot m.machine = .ok (.error (.notZombie 1)) m.machine := by
  have htaken : ∃ m ∈ (Moment.fresh .smallest).walk? onlySlotTaken,
      ∀ slot, (m.machine.scheduler.table.record slot).state = .runnable ∧
        (m.machine.scheduler.table.record slot).pid = 1 := by decide +kernel
  obtain ⟨m, hwalk, htaken⟩ := htaken
  obtain ⟨hcreate, hfork, hkill, -, hreap⟩ :=
    Reachable.refuses_when_due (by decide) ⟨_, path_of_walk? hwalk⟩
  refine ⟨m, hwalk, ?_, ?_, ?_, ?_⟩
  · exact ((hcreate "other" (some 7) none).refused_iff _ _).mpr
      ⟨.invalidPriority rfl (by decide), rfl⟩
  · refine ((hfork "other" (some 0) none).refused_iff _ _).mpr ⟨.tableFull ?_ ?_, rfl⟩
    · simp [Config.smallest]
    · simp [htaken]
  · exact ((hkill 0).refused_iff _ _).mpr ⟨⟨rfl, by simp [htaken]⟩, rfl⟩
  · refine ((hreap Config.onlySlot).refused_iff _ _).mpr ⟨⟨?_, by simp [htaken]⟩, rfl⟩
    rw [(htaken Config.onlySlot).2]

end FeedbackQueue
