import FeedbackQueue.Proofs.Scenario.Lives

/-!
# Who a process is

A process is given a pid, a name, a parent and a home level when it is created, and keeps them until
it is reaped.  Of the process that had its slot before it inherits nothing.

* `Scheduler.CreatesAt` — what a creation leaves behind;
* `Path.keeps_identity` — at every moment of every run, creations leave clean slots, what is told of
  a slot is a chronicle that its record agrees with, and reapings tell the truth.
-/

namespace FeedbackQueue

open Kernel

variable {cfg : Config} {s : Scheduler cfg} {slot : Fin cfg.maxProcs}

/-- A process is created in the lowest free slot.  Its record and link are those of a process that
has done nothing yet, whatever the slot held before, and no other slot is touched. -/
structure Scheduler.CreatesAt (s : Scheduler cfg) (slot : Fin cfg.maxProcs) (name : String)
    (parent : Option Pid) (home : Nat) (s' : Scheduler cfg) : Prop where
  free : (s.table.record slot).state = .unused
  lowest : ∀ y < slot, (s.table.record y).state ≠ .unused
  record : s'.table.record slot =
    { state := .used, pid := s.table.nextPid, name, quantum := cfg.procQuantum, channel := none,
      killed := false, parent, exitStatus := 0 }
  link : s'.queues.link slot =
    { level? := none, home, inExpired := false, prev := none, next := none }
  others : ∀ y ≠ slot, s'.table.record y = s.table.record y ∧ s'.queues.link y = s.queues.link y

/-! ## Creation and reaping -/

theorem Effect.createsAt (hfree : s.table.firstFree? = some slot) (name : String)
    (parent : Option Pid) (home : Nat) :
    s.CreatesAt slot name parent home ((create slot name parent home).apply s) where
  free := (Table.firstFree?_eq_some_iff.mp hfree).1
  lowest := (Table.firstFree?_eq_some_iff.mp hfree).2
  record := by simp [apply, Record.vacant]
  link := by simp [apply, Queues.link_adjustLink, Link.detached]
  others y hy := by
    simp only [apply, Table.record_adjust, Table.record_claim, Queues.link_adjustLink, if_neg hy,
      and_self]

namespace Moment.Sound

variable {m : Moment cfg} (h : m.Sound)
include h

theorem create_createsAt (hv : cfg.IsValid) {name : String} {priority : Option Nat}
    {parent : Option Pid} {m' : Machine cfg}
    (hcreate : create name priority parent m.machine = .ok (.ok slot) m') :
    m.machine.scheduler.CreatesAt slot name parent (priority.getD cfg.startLevel) m'.scheduler := by
  obtain ⟨effects, hpost, -, hscheduler⟩ := h.exists_effects_of_answer
    ((create_ensures h.scheduler hv name priority parent).unless fun _ => False) hcreate
  split at hpost
  case h_3 home y hhome hfree =>
    obtain ⟨heq, rfl⟩ := hpost
    obtain rfl := Except.ok.inj heq
    rw [hscheduler, Action.homeLevel_eq_ok hhome]
    exact Effect.createsAt hfree ..
  all_goals cases hpost.1

theorem reap_vacates {pid : Pid} {status : Int32} {m' : Machine cfg}
    (hreap : reap slot m.machine = .ok (.ok (pid, status)) m') :
    (m.machine.scheduler.table.record slot).state = .zombie ∧
      (m.machine.scheduler.table.record slot).pid = pid ∧
      (m.machine.scheduler.table.record slot).exitStatus = status ∧
      m'.scheduler.table.record slot = .vacant := by
  obtain ⟨effects, hpost, -, hscheduler⟩ := h.exists_effects_of_answer
    ((reap_ensures slot).unless fun _ => False) hreap
  split at hpost
  case isTrue hzombie =>
    obtain ⟨heq, rfl⟩ := hpost
    obtain ⟨rfl, rfl⟩ := Prod.mk.inj (Except.ok.inj heq)
    exact ⟨hzombie, rfl, rfl, by simp [hscheduler, Effect.applyAll, Effect.apply]⟩
  case isFalse => cases hpost.1

end Moment.Sound

/-! ## Runs -/

/-- What is told of a run is a chronicle of every slot, and leads to the life that it holds. -/
theorem Path.exists_chronicle (hv : cfg.IsValid) {steps : List Step} {m : Moment cfg}
    (h : Path (.fresh cfg) steps m) (slot : Fin cfg.maxProcs) :
    ∃ life, Chronicle slot ((Moment.fresh cfg).tell steps) life ∧
      m.machine.scheduler.Bears slot life := by
  obtain ⟨effects, hallowed, hscheduler, htold⟩ := h.exists_told hv (Moment.sound_fresh hv)
  have hbears : (Scheduler.fresh cfg).Bears slot none := by
    simp [Scheduler.Bears, Scheduler.fresh, Record.vacant]
  obtain ⟨life, hc, hbears⟩ :=
    Effect.chronicle_applyAll (Scheduler.sound_fresh hv) hallowed .nil hbears
  exact ⟨life, by rwa [htold], by rwa [hscheduler]⟩

/-- At every moment of every run, a process is created in the lowest free slot, which it finds
clean.  What is told of a slot is a chronicle: the process that it holds is who its creation said,
has exited with the status that it holds if it is a zombie, and is reaped under the pid of its
creation, with that status, which leaves the slot vacant.  From any moment on until it is reaped, a
process stays who it is and stays asked to end. -/
theorem Path.keeps_identity (hv : cfg.IsValid) {steps : List Step} {m : Moment cfg}
    (h : Path (.fresh cfg) steps m) :
    (∀ name priority parent slot m', create name priority parent m.machine = .ok (.ok slot) m' →
      m.machine.scheduler.CreatesAt slot name parent (priority.getD cfg.startLevel)
        m'.scheduler) ∧
    (∀ slot, ∃ life, Chronicle slot ((Moment.fresh cfg).tell steps) life ∧
      m.machine.scheduler.Bears slot life ∧
      ∀ pid status m', reap slot m.machine = .ok (.ok (pid, status)) m' →
        (∃ who, life = some ⟨who, some status⟩ ∧ who.pid = pid) ∧
          m'.scheduler.table.record slot = .vacant) ∧
    ∀ slot more m', Path m more m' → (m.machine.scheduler.table.record slot).state ≠ .unused →
      (∀ pid status, .reaped slot pid status ∉ m.tell more) →
      m'.machine.scheduler.identity slot = m.machine.scheduler.identity slot ∧
        ((m.machine.scheduler.table.record slot).killed = true →
          (m'.machine.scheduler.table.record slot).killed = true) := by
  have hsound := (Moment.sound_fresh hv).path hv h
  refine ⟨fun name priority parent slot m' => hsound.create_createsAt hv, fun slot => ?_, ?_⟩
  · obtain ⟨life, hc, hbears⟩ := h.exists_chronicle hv slot
    refine ⟨life, hc, hbears, fun pid status m' hreap => ?_⟩
    obtain ⟨hzombie, hpid, hstatus, hvacant⟩ := hsound.reap_vacates hreap
    obtain ⟨who, rfl, rfl⟩ := hbears.exists_of_zombie hzombie
    exact ⟨⟨_, by rw [hstatus], hpid⟩, hvacant⟩
  · intro slot more m' hmore hlive hnot
    obtain ⟨effects, hallowed, hscheduler, htold⟩ := hmore.exists_told hv hsound
    rw [hscheduler]
    exact (Effect.kept_applyAll hsound.scheduler hallowed hlive (htold ▸ hnot)).2

/-- A process expires, the sets are exchanged, it exits and is reaped.  The free slot is asked to
end, and then another process is created in it, which exits in turn. -/
def reusedSlot : List Step :=
  [.act (.fork "first" none none), .begin 0, .act (.tick 0 1), .finish 0 .yield, .begin 0,
    .finish 0 (.exit 3), .act (.reap 0), .act (.setKilled 0),
    .act (.create "second" (some 0) (some 1)), .act (.activate 0), .begin 0, .finish 0 (.exit 5)]

theorem reusedSlot_keeps_identity : ∃ m ∈ (Moment.fresh .smallest).walk? reusedSlot,
    Chronicle Config.onlySlot ((Moment.fresh .smallest).tell reusedSlot)
        (some ⟨⟨2, "second", some 1, 0⟩, some 5⟩) ∧
      (m.machine.scheduler.table.record Config.onlySlot).killed = false ∧
      ∀ pid status m', reap Config.onlySlot m.machine = .ok (.ok (pid, status)) m' →
        pid = 2 ∧ status = 5 ∧ m'.scheduler.table.record Config.onlySlot = .vacant := by
  have hexited : ∃ m ∈ (Moment.fresh .smallest).walk? reusedSlot,
      (m.machine.scheduler.table.record Config.onlySlot).state = .zombie ∧
        (m.machine.scheduler.table.record Config.onlySlot).exitStatus = 5 ∧
        (m.machine.scheduler.table.record Config.onlySlot).killed = false ∧
        m.machine.scheduler.identity Config.onlySlot = ⟨2, "second", some 1, 0⟩ := by
    decide +kernel
  obtain ⟨m, hwalk, hzombie, hstatus, hkilled, hwho⟩ := hexited
  obtain ⟨-, hlives, -⟩ := Path.keeps_identity (by decide) (path_of_walk? hwalk)
  obtain ⟨life, hc, hbears, hreaps⟩ := hlives Config.onlySlot
  obtain ⟨who, rfl, rfl⟩ := hbears.exists_of_zombie hzombie
  rw [hwho, hstatus] at hc
  refine ⟨m, hwalk, hc, hkilled, fun pid status m' hreap => ?_⟩
  obtain ⟨⟨who, hlife, hpid⟩, hvacant⟩ := hreaps pid status m' hreap
  cases hlife
  exact ⟨by rw [← hpid, hwho], hstatus, hvacant⟩

end FeedbackQueue
