import FeedbackQueue.Proofs.Kernel.Numbering
import FeedbackQueue.Proofs.Scenario.Identity
import FeedbackQueue.Proofs.Scenario.Refusals
import FeedbackQueue.Proofs.Scenario.Selection

/-!
# Whom a pid reaches

A search or a kill names a process by its pid.  Pids are the numbers of creations, in words of 32
bits, and a creation does not look whether its pid is still carried.  So a pid reaches the process
that it was given to as long as the creations can be counted in a word, and beyond that it may reach
another one.

* `Kernel.Reaches`, `Kernel.ReachesNobody` — what a search and a kill do with a pid;
* `Path.pids_identify` — as long as the creations fit a word, a pid reaches its own process until
  that is reaped, and nobody afterwards;
* `exists_latecomer` — with more creations than that, a process may carry the pid zero, or one that
  another process still carries.
-/

namespace FeedbackQueue

open Kernel

variable {cfg : Config} {s : Scheduler cfg} {slot y : Fin cfg.maxProcs} {pid : Pid}

/-! ## Searches and kills -/

namespace Kernel

/-- A pid reaches the process in a slot: a search finds it, and a kill asks it to end before
anything else, touches neither another process nor the queues on the way, and goes on with it
alone. -/
structure Reaches (m : Machine cfg) (pid : Pid) (slot : Fin cfg.maxProcs) : Prop where
  found : find pid m = .ok (some slot) m
  killed : ∃ t : Machine cfg, (t.scheduler.table.record slot).killed = true ∧
    (∀ y ≠ slot, t.scheduler.table.record y = m.scheduler.table.record y) ∧
    t.scheduler.queues = m.scheduler.queues ∧
    ∀ window, (kill cfg pid window : Kernel cfg _) m
      = ((if (m.scheduler.table.record slot).state = .sleeping then
            window >>= fun _ => requeueWoken slot pid
          else pure ()) >>= fun _ => pure (.ok ())) t

/-- A pid reaches nobody: a search finds nothing and a kill is refused, and nothing has changed. -/
structure ReachesNobody (m : Machine cfg) (pid : Pid) : Prop where
  found : find pid m = .ok none m
  refused : ∀ window, (kill cfg pid window : Kernel cfg _) m = .ok (.error (.noSuchProcess pid)) m

variable {w : Hardware cfg.maxProcs} {e : Bool} {j : Array Event}

theorem queues_killEffects :
    (Effect.applyAll s (killEffects s slot)).queues = s.queues := by
  refine Effect.queues_applyAll_of_isWaking ?_
  unfold killEffects markEffects wakeEffects
  split_ifs <;> simp [Effect.isWaking]

theorem record_killEffects :
    ((Effect.applyAll s (killEffects s slot)).table.record slot).killed = true ∧
      ∀ y ≠ slot, (Effect.applyAll s (killEffects s slot)).table.record y = s.table.record y := by
  unfold killEffects markEffects wakeEffects
  constructor
  · split_ifs <;> simp [Effect.applyAll, Effect.apply, Record.woken]
  · intro y hy
    split_ifs <;> simp [Effect.applyAll, Effect.apply, Table.record_adjust, hy]

theorem reaches_of_find? (h : s.table.find? pid = some slot) :
    Reaches ⟨s, w, .holding e [] [], j⟩ pid slot := by
  constructor
  · rw [find_apply, h]
  · let t : Machine cfg := ⟨Effect.applyAll s (killEffects s slot), w, .holding e [] [],
      j.push (.killed pid (s.table.record slot).state)⟩
    exact ⟨t, record_killEffects.1, record_killEffects.2, queues_killEffects,
      kill_of_find?_eq_some h⟩

theorem reachesNobody_of_find? (h : s.table.find? pid = none) :
    ReachesNobody ⟨s, w, .holding e [] [], j⟩ pid := by
  constructor
  · rw [find_apply, h]
  · exact kill_of_find?_eq_none h

end Kernel

namespace Moment.Sound

variable {m : Moment cfg} (h : m.Sound)
include h

theorem reaches (hfound : m.machine.scheduler.table.find? pid = some slot) :
    Reaches m.machine pid slot :=
  h.machine_of_forall (P := fun t => Reaches t pid slot) fun _ _ _ => reaches_of_find? hfound

theorem reachesNobody (hnone : ∀ slot, (m.machine.scheduler.table.record slot).state ≠ .unused →
    (m.machine.scheduler.table.record slot).pid ≠ pid) : ReachesNobody m.machine pid :=
  h.machine_of_forall (P := fun t => ReachesNobody t pid)
    fun _ _ _ => reachesNobody_of_find? (Table.find?_eq_none_iff.mpr hnone)

end Moment.Sound

/-! ## Runs -/

namespace Path

variable {steps : List Step} {m : Moment cfg}

/-- Every process carries the pid that was told of its creation. -/
theorem exists_created (hv : cfg.IsValid) (h : Path (.fresh cfg) steps m)
    (hlive : (m.machine.scheduler.table.record slot).state ≠ .unused) :
    ∃ who, .created slot who ∈ (Moment.fresh cfg).tell steps ∧
      who.pid = (m.machine.scheduler.table.record slot).pid := by
  obtain ⟨life, hchronicle, hbears⟩ := h.exists_chronicle hv slot
  cases life with
  | none => exact absurd hbears hlive
  | some life =>
    obtain ⟨-, hwho, -⟩ := hbears
    exact ⟨life.who, hchronicle.created_mem life rfl, by rw [← hwho, Scheduler.identity]⟩

theorem numbered (hv : cfg.IsValid) (h : Path (.fresh cfg) steps m) :
    m.machine.scheduler.Numbered (LifeEvent.births ((Moment.fresh cfg).tell steps)) := by
  obtain ⟨effects, hallowed, hscheduler, htold⟩ := h.exists_told hv (Moment.sound_fresh hv)
  rw [hscheduler, htold]
  exact Effect.numbered_applyAll (Scheduler.sound_fresh hv) hallowed (Scheduler.numbered_fresh cfg)

/-- Since a creation that has been told of, a run has gone on from a scheduler that holds the
process, with what has been told since. -/
theorem exists_since_created (hv : cfg.IsValid) (h : Path (.fresh cfg) steps m)
    {earlier later : List (LifeEvent cfg.maxProcs)} {who : Identity}
    (htold : (Moment.fresh cfg).tell steps = earlier ++ .created slot who :: later) :
    ∃ (t : Scheduler cfg) (effects : List (Effect cfg)), t.Sound ∧ Effect.AllowedAll t effects ∧
      m.machine.scheduler = Effect.applyAll t effects ∧ Effect.lifeEvents t effects = later ∧
      (t.table.record slot).state ≠ .unused ∧ t.identity slot = who ∧
      who.pid = .ofNat ((LifeEvent.births earlier).length + 1) := by
  obtain ⟨effects, hallowed, hscheduler, heffects⟩ := h.exists_told hv (Moment.sound_fresh hv)
  have hs : (Scheduler.fresh cfg).Sound := Scheduler.sound_fresh hv
  have hevents := heffects.symm.trans htold
  have hnumber := Effect.pid_of_created hs hallowed (Scheduler.numbered_fresh cfg) hevents
  obtain ⟨before, effect, after, rfl, -, hevent, hlater⟩ := Effect.exists_of_lifeEvents hevents
  obtain ⟨hbefore, heffect, hafter⟩ := Effect.allowedAll_append.mp hallowed
  obtain ⟨hlive, hwho⟩ := Effect.identity_of_created hevent
  have hs' := (hs.applyAll hbefore).apply heffect
  refine ⟨_, after, hs', hafter, ?_, hlater, hlive, hwho, hnumber⟩
  rw [hscheduler, Effect.applyAll_append]
  rfl

/-- The process that a creation has told of is still there, unless it was reaped. -/
theorem carries_of_created (hv : cfg.IsValid) (h : Path (.fresh cfg) steps m)
    {earlier later : List (LifeEvent cfg.maxProcs)} {who : Identity}
    (htold : (Moment.fresh cfg).tell steps = earlier ++ .created slot who :: later)
    (hnot : ∀ pid status, .reaped slot pid status ∉ later) :
    (m.machine.scheduler.table.record slot).state ≠ .unused ∧
      (m.machine.scheduler.table.record slot).pid = who.pid := by
  obtain ⟨t, effects, hs, hallowed, hscheduler, rfl, hlive, hwho, -⟩ :=
    h.exists_since_created hv htold
  obtain ⟨hstill, hsame, -⟩ := Effect.kept_applyAll hs hallowed hlive hnot
  rw [hscheduler]
  exact ⟨hstill, congrArg Identity.pid (hsame.trans hwho)⟩

/-- As long as the creations fit a word, whoever carries the pid of a creation comes from it, and
has not been reaped. -/
theorem eq_of_pid_created (hv : cfg.IsValid) (h : Path (.fresh cfg) steps m)
    {earlier later : List (LifeEvent cfg.maxProcs)} {who : Identity}
    (htold : (Moment.fresh cfg).tell steps = earlier ++ .created slot who :: later)
    (hfew : (LifeEvent.births ((Moment.fresh cfg).tell steps)).length < UInt32.size)
    (hlive : (m.machine.scheduler.table.record y).state ≠ .unused)
    (hpid : (m.machine.scheduler.table.record y).pid = who.pid) :
    y = slot ∧ ∀ pid status, .reaped slot pid status ∉ later := by
  have hnumbered := h.numbered hv
  have hbirths : LifeEvent.births ((Moment.fresh cfg).tell steps)
      = LifeEvent.births earlier ++ slot :: LifeEvent.births later := by
    rw [htold, LifeEvent.births_append]
    rfl
  rw [hbirths] at hnumbered hfew
  obtain ⟨t, effects, hs, hallowed, hscheduler, rfl, -, -, hnumber⟩ :=
    h.exists_since_created hv htold
  obtain ⟨rfl, hnever⟩ := hnumbered.eq_of_pid hfew hlive (hpid.trans hnumber)
  refine ⟨rfl, fun pid status hreaped => ?_⟩
  -- after the reaping another creation would have taken the slot
  rw [hscheduler] at hlive
  obtain ⟨again, hagain⟩ := Effect.exists_created_of_reaped hs hallowed hreaped hlive
  exact hnever (List.mem_filterMap.mpr ⟨_, hagain, rfl⟩)

/-- At every moment of every run, a pid that was given to nobody reaches nobody.  As long as the
creations fit a word, no process carries the pid zero and no two processes carry the same one; the
pid that a creation has told of reaches that process until it is reaped, and nobody afterwards. -/
theorem pids_identify (hv : cfg.IsValid) (h : Path (.fresh cfg) steps m) :
    let s := m.machine.scheduler
    let told := (Moment.fresh cfg).tell steps
    s.Numbered (LifeEvent.births told) ∧
    (∀ pid, (∀ slot who, .created slot who ∈ told → who.pid ≠ pid) →
      ReachesNobody m.machine pid) ∧
    ((LifeEvent.births told).length < UInt32.size →
      (∀ slot, (s.table.record slot).state ≠ .unused → (s.table.record slot).pid ≠ 0) ∧
      (∀ slot y, (s.table.record slot).state ≠ .unused → (s.table.record y).state ≠ .unused →
        (s.table.record slot).pid = (s.table.record y).pid → slot = y) ∧
      ∀ earlier slot who later, told = earlier ++ .created slot who :: later →
        ((∀ pid status, .reaped slot pid status ∉ later) →
          (s.table.record slot).state ≠ .unused ∧ Reaches m.machine who.pid slot) ∧
        ∀ pid status, .reaped slot pid status ∈ later → ReachesNobody m.machine who.pid) := by
  have hsound := (Moment.sound_fresh hv).path hv h
  have hnumbered := h.numbered hv
  refine ⟨hnumbered, fun pid hnone => ?_, fun hfew => ⟨?_, ?_, ?_⟩⟩
  · refine hsound.reachesNobody fun slot hlive => ?_
    obtain ⟨who, hmem, hpid⟩ := h.exists_created hv hlive
    exact hpid ▸ hnone slot who hmem
  · exact fun slot hlive => hnumbered.pid_ne_zero hfew hlive
  · exact fun slot y hlive hlive' hpid => hnumbered.injective hfew hlive hlive' hpid
  · intro earlier slot who later htold
    constructor
    · intro hnot
      obtain ⟨hlive, hpid⟩ := h.carries_of_created hv htold hnot
      exact ⟨hlive, hpid ▸ hsound.reaches (hnumbered.find?_eq_some hfew hlive)⟩
    · intro pid status hreaped
      refine hsound.reachesNobody fun y hlive hpid => ?_
      obtain ⟨-, hnot⟩ := h.eq_of_pid_created hv htold hfew hlive hpid
      exact hnot pid status hreaped

end Path

/-- Two processes are created, the first one exits and is reaped, and a third one takes its slot. -/
def slotPassedOn : List Step :=
  [.act (.fork "first" none none), .act (.fork "second" none none), .begin 0, .finish 0 (.exit 3),
    .act (.reap 0), .act (.fork "third" none none)]

/-- The pid of the first process reaches nobody, although its slot is taken. -/
theorem slotPassedOn_pids_identify : ∃ m ∈ (Moment.fresh .tabled).walk? slotPassedOn,
    ReachesNobody m.machine 1 ∧ Reaches m.machine 2 Config.rightSlot ∧
      Reaches m.machine 3 Config.leftSlot := by
  have hwalks : ((Moment.fresh .tabled).walk? slotPassedOn).isSome = true := by decide +kernel
  have htold : (Moment.fresh .tabled).tell slotPassedOn =
      [.created Config.leftSlot ⟨1, "first", none, 0⟩,
        .created Config.rightSlot ⟨2, "second", none, 0⟩, .exited Config.leftSlot 3,
        .reaped Config.leftSlot 1 3, .created Config.leftSlot ⟨3, "third", none, 0⟩] := by
    decide +kernel
  obtain ⟨m, hwalk⟩ := Option.isSome_iff_exists.mp hwalks
  obtain ⟨-, -, hidentify⟩ := Path.pids_identify Config.isValid_tabled (path_of_walk? hwalk)
  rw [htold] at hidentify
  obtain ⟨-, -, hcreated⟩ := hidentify (by decide)
  refine ⟨m, hwalk, ?_, ?_, ?_⟩
  · exact (hcreated [] _ _ _ rfl).2 1 3 (by simp)
  · exact ((hcreated [_] _ _ _ rfl).1 (by simp [Config.left_ne_right.symm])).2
  · exact ((hcreated [_, _, _, _] _ _ _ rfl).1 (by simp)).2

/-! ## When the numbers run out

A keeper stays in one slot while others come and go in the other one.  Step by step the machine is
where `Keeps` says, whatever the number of the next process. -/

/-- A process is created in the free slot, exits and is reaped. -/
def shortLife : List Step :=
  [.act (.fork "worker" none none), .begin 0, .finish 0 (.exit 0), .act (.reap 1)]

/-- The keeper has the first pid and never runs.  Only the other slot changes. -/
structure Keeps (m : Moment .tabled) (opened : List (Activity .tabled)) (state : ProcState)
    (next : Pid) : Prop where
  sound : m.Sound
  activities : m.activities = opened
  keeper : (m.machine.scheduler.table.record Config.leftSlot).state = .used ∧
    (m.machine.scheduler.table.record Config.leftSlot).pid = 1
  other : (m.machine.scheduler.table.record Config.rightSlot).state = state
  nextPid : m.machine.scheduler.table.nextPid = next

namespace Keeps

variable {m m' : Moment .tabled} {opened opened' : List (Activity .tabled)}
variable {state state' : ProcState} {next next' : Pid}

/-- The other slot is the first free one. -/
theorem firstFree? (h : Keeps m opened .unused next) :
    m.machine.scheduler.table.firstFree? = some Config.rightSlot := by
  refine Table.firstFree?_eq_some_iff.mpr ⟨h.other, ?_⟩
  intro y hlt
  obtain rfl | rfl := Config.eq_left_or_right y
  · rw [h.keeper.1]
    decide
  · exact absurd hlt (lt_irrefl _)

/-- What has to be seen to after a step: its effects leave the record of the keeper alone. -/
theorem of_path (h : Keeps m opened state next) {steps : List Step}
    {effects : List (Effect .tabled)} (hpath : Path m steps m') (hopened : m'.activities = opened')
    (hscheduler : m'.machine.scheduler = Effect.applyAll m.machine.scheduler effects)
    (hkeeper : (Effect.applyAll m.machine.scheduler effects).table.record Config.leftSlot
      = m.machine.scheduler.table.record Config.leftSlot)
    (hother : ((Effect.applyAll m.machine.scheduler effects).table.record Config.rightSlot).state
      = state')
    (hnext : (Effect.applyAll m.machine.scheduler effects).table.nextPid = next') :
    Keeps m' opened' state' next' where
  sound := h.sound.path Config.isValid_tabled hpath
  activities := hopened
  keeper := by
    rw [hscheduler, hkeeper]
    exact h.keeper
  other := hscheduler ▸ hother
  nextPid := hscheduler ▸ hnext

theorem create (h : Keeps m opened .unused next) :
    ∃ m', Path m [.act (.create "late" none none)] m' ∧ Keeps m' opened .used (next + 1) ∧
      (m'.machine.scheduler.table.record Config.rightSlot).pid = next := by
  have hallows : m.Allows (.act (.create "late" none none)) := ⟨rfl, nofun, nofun, nofun⟩
  have hcreate := create_ensures h.sound.scheduler Config.isValid_tabled "late" none none
  obtain ⟨_, effects, m', ⟨outcome, hpost, -⟩, hpath, hactivities, hscheduler⟩ :=
    h.sound.act hallows (Action.creation_ensures hcreate)
  rw [h.firstFree?] at hpost
  obtain ⟨-, rfl⟩ := hpost
  refine ⟨m', hpath, h.of_path hpath (hactivities.trans h.activities) hscheduler ?_ ?_ ?_, ?_⟩
  · simp [Effect.applyAll, Effect.apply, Table.record_adjust, Table.record_claim,
      Config.left_ne_right]
  · simp [Effect.applyAll, Effect.apply]
  · simp [Effect.applyAll, Effect.apply, h.nextPid]
  · simp [hscheduler, Effect.applyAll, Effect.apply, h.nextPid]

theorem fork (h : Keeps m opened .unused next) :
    ∃ m', Path m [.act (.fork "worker" none none)] m' ∧ Keeps m' opened .runnable (next + 1) := by
  have hallows : m.Allows (.act (.fork "worker" none none)) := ⟨rfl, nofun, nofun, nofun⟩
  have hfork := fork_ensures h.sound.scheduler Config.isValid_tabled "worker" none none
  obtain ⟨_, effects, m', ⟨outcome, hpost, -⟩, hpath, hactivities, hscheduler⟩ :=
    h.sound.act hallows (Action.creation_ensures hfork)
  rw [h.firstFree?] at hpost
  obtain ⟨-, rfl⟩ := hpost
  refine ⟨m', hpath, h.of_path hpath (hactivities.trans h.activities) hscheduler ?_ ?_ ?_⟩
  · simp [Effect.applyAll, Effect.apply, Table.record_adjust, Table.record_claim,
      Config.left_ne_right]
  · simp [Effect.applyAll, Effect.apply]
  · simp [Effect.applyAll, Effect.apply, h.nextPid]

/-- The scan finds the process in the other slot, because the keeper was never activated. -/
theorem begins (h : Keeps m opened .runnable next) {cpu : Fin Config.tabled.ncpu}
    {picked : Option (Fin Config.tabled.maxProcs)} {effects : List (Effect .tabled)}
    (hbegins : Begins m.machine.scheduler cpu picked effects) :
    picked = some Config.rightSlot ∧ ∃ after, (after = [] ∨ ∃ window, after = [.setWindow window]) ∧
      effects = [.aim cpu 0, .dispatch cpu Config.rightSlot, .count .pick] ++ after := by
  have hpos : 0 < Config.tabled.maxProcs := by decide
  cases hbegins with
  | idle picks =>
    obtain ⟨hfound, -⟩ := picks.scans rfl hpos
    have hnone := find?_schedulable_eq_none_iff.mp hfound.symm Config.rightSlot
    rw [scanned_eq] at hnone
    exact absurd h.other (hnone (List.mem_rotate.mpr (List.mem_finRange _)))
  | @dispatch slot before after picks report =>
    obtain ⟨hfound, rfl⟩ := picks.scans rfl hpos
    have hrunnable := schedulable_iff.mp (List.find?_some hfound.symm)
    obtain rfl | rfl := Config.eq_left_or_right slot
    · cases h.keeper.1.symm.trans hrunnable
    · exact ⟨rfl, after, report, rfl⟩

theorem begin (h : Keeps m [] .runnable next) :
    ∃ m', Path m [.begin 0] m' ∧ Keeps m' [.turn 0 Config.rightSlot] .running next := by
  have hallows : m.Allows (.begin 0) := by
    refine ⟨by decide, ?_⟩
    rintro ⟨slot, hmem⟩
    rw [h.activities] at hmem
    cases hmem
  obtain ⟨fault, hmay, -⟩ | ⟨effects, m', hnext, htakes, -, hscheduler, -⟩ :=
    h.sound.next Config.isValid_tabled hallows
  · exact absurd hmay.2 (by decide)
  have hpath : Path m [.begin 0] m' := (Path.refl m).tail hallows hnext
  obtain ⟨_, picked, hbegins, hopened⟩ := htakes.begins
  obtain ⟨rfl, after, hafter, rfl⟩ := h.begins hbegins
  rw [h.activities] at hopened
  refine ⟨m', hpath, h.of_path hpath hopened hscheduler ?_ ?_ ?_⟩
  all_goals
    obtain rfl | ⟨window, rfl⟩ := hafter <;>
      simp [Effect.applyAll, Effect.apply, Table.record_adjust, Config.left_ne_right, h.nextPid]

theorem finish (h : Keeps m [.turn 0 Config.rightSlot] .running next) :
    ∃ m', Path m [.finish 0 (.exit 0)] m' ∧ Keeps m' [] .zombie next := by
  have hallows : m.Allows (.finish 0 (.exit 0)) :=
    ⟨.turn 0 Config.rightSlot, by rw [h.activities]; rfl, rfl⟩
  obtain ⟨fault, hmay, -⟩ | ⟨effects, m', hnext, htakes, -, hscheduler, -⟩ :=
    h.sound.next Config.isValid_tabled hallows
  · exact hmay.elim
  have hpath : Path m [.finish 0 (.exit 0)] m' := (Path.refl m).tail hallows hnext
  generalize hopened : m'.activities = opened at htakes
  rw [h.activities] at htakes
  cases htakes with
  | finish ends here =>
    obtain ⟨-, rfl⟩ := Activity.turn.inj (Option.some.inj here)
    cases ends with
    | exit =>
      refine ⟨m', hpath, h.of_path hpath hopened hscheduler ?_ ?_ ?_⟩
      all_goals
        simp [Effect.applyAll, Effect.apply, Table.record_adjust, Ending.record,
          Config.left_ne_right, h.nextPid]

theorem reap (h : Keeps m opened .zombie next) :
    ∃ m', Path m [.act (.reap 1)] m' ∧ Keeps m' opened .unused next := by
  have hallows : m.Allows (.act (.reap 1)) := by
    refine ⟨rfl, ?_, nofun, nofun⟩
    decide
  have hreap : Ensures (Action.perform (.reap 1)) m.machine.scheduler
      fun _ effects => effects = [.reap Config.rightSlot] := by
    refine (reap_ensures Config.rightSlot).bind fun outcome effects hpost _ => ?_
    rw [if_pos h.other] at hpost
    obtain ⟨rfl, rfl⟩ := hpost
    exact .pure rfl
  obtain ⟨_, effects, m', rfl, hpath, hactivities, hscheduler⟩ := h.sound.act hallows hreap
  refine ⟨m', hpath, h.of_path hpath (hactivities.trans h.activities) hscheduler ?_ ?_ ?_⟩
  all_goals
    simp [Effect.applyAll, Effect.apply, Table.record_adjust, Record.vacant,
      Config.left_ne_right, h.nextPid]

/-- A short life in the other slot takes a number, and leaves all else as it was. -/
theorem shortLife (h : Keeps m [] .unused next) :
    ∃ m', Path m shortLife m' ∧ Keeps m' [] .unused (next + 1) := by
  obtain ⟨m₁, hfork, h₁⟩ := h.fork
  obtain ⟨m₂, hbegin, h₂⟩ := h₁.begin
  obtain ⟨m₃, hfinish, h₃⟩ := h₂.finish
  obtain ⟨m₄, hreap, h₄⟩ := h₃.reap
  exact ⟨m₄, ((hfork.trans hbegin).trans hfinish).trans hreap, h₄⟩

/-- However many short lives there are, each takes one number. -/
theorem shortLives (h : Keeps m [] .unused next) (lives : Nat) :
    ∃ m', Path m (List.replicate lives FeedbackQueue.shortLife).flatten m' ∧
      Keeps m' [] .unused (next + .ofNat lives) := by
  induction lives generalizing m next with
  | zero => exact ⟨m, .refl m, by simpa using h⟩
  | succ lives ih =>
    obtain ⟨m₁, hlife, h₁⟩ := h.shortLife
    obtain ⟨m₂, hlives, h₂⟩ := ih h₁
    refine ⟨m₂, ?_, ?_⟩
    · rw [List.replicate_succ, List.flatten_cons]
      exact hlife.trans hlives
    · rw [UInt32.ofNat_add, UInt32.add_comm (.ofNat lives), ← UInt32.add_assoc]
      exact h₂

/-- A process that is created in a fresh machine and not activated is a keeper. -/
theorem fresh : ∃ m, Path (.fresh .tabled) [.act (.create "keeper" none none)] m ∧
    Keeps m [] .unused 2 := by
  have hcreated : ∃ m ∈ (Moment.fresh .tabled).walk? [.act (.create "keeper" none none)],
      m.activities = [] ∧ (m.machine.scheduler.table.record Config.leftSlot).state = .used ∧
        (m.machine.scheduler.table.record Config.leftSlot).pid = 1 ∧
        (m.machine.scheduler.table.record Config.rightSlot).state = .unused ∧
        m.machine.scheduler.table.nextPid = 2 := by decide +kernel
  obtain ⟨m, hwalk, hactivities, hstate, hpid, hother, hnext⟩ := hcreated
  have hpath := path_of_walk? hwalk
  have hsound := (Moment.sound_fresh Config.isValid_tabled).path Config.isValid_tabled hpath
  exact ⟨m, hpath, hsound, hactivities, ⟨hstate, hpid⟩, hother, hnext⟩

end Keeps

/-- A keeper is created, then others come and go in the other slot, and at last a process is created
there that stays. -/
def keeperAndLatecomer (lives : Nat) : List Step :=
  [.act (.create "keeper" none none)] ++ (List.replicate lives shortLife).flatten
    ++ [.act (.create "late" none none)]

/-- The latecomer carries the number of its creation, as far as a word can hold it. -/
theorem exists_latecomer (lives : Nat) :
    ∃ m, Path (.fresh .tabled) (keeperAndLatecomer lives) m ∧
      Keeps m [] .used (2 + .ofNat lives + 1) ∧
      (m.machine.scheduler.table.record Config.rightSlot).pid = 2 + .ofNat lives := by
  obtain ⟨m₁, hkeeper, h₁⟩ := Keeps.fresh
  obtain ⟨m₂, hlives, h₂⟩ := h₁.shortLives lives
  obtain ⟨m₃, hlate, h₃, hpid⟩ := h₂.create
  exact ⟨m₃, (hkeeper.trans hlives).trans hlate, h₃, hpid⟩

/-- When so many processes have come and gone that the numbers start again, the latecomer carries
the pid zero, and with one more it carries that of the keeper: then its pid reaches the keeper. -/
theorem keeperAndLatecomer_share_pid :
    (∃ m, Path (.fresh .tabled) (keeperAndLatecomer (2 ^ 32 - 2)) m ∧
      (m.machine.scheduler.table.record Config.rightSlot).state = .used ∧
      (m.machine.scheduler.table.record Config.rightSlot).pid = 0 ∧
      Reaches m.machine 0 Config.rightSlot) ∧
    ∃ m, Path (.fresh .tabled) (keeperAndLatecomer (2 ^ 32 - 1)) m ∧
      (m.machine.scheduler.table.record Config.leftSlot).state = .used ∧
      (m.machine.scheduler.table.record Config.rightSlot).state = .used ∧
      (m.machine.scheduler.table.record Config.leftSlot).pid = 1 ∧
      (m.machine.scheduler.table.record Config.rightSlot).pid = 1 ∧
      Reaches m.machine 1 Config.leftSlot := by
  constructor
  · obtain ⟨m, hpath, hkeeps, hpid⟩ := exists_latecomer (2 ^ 32 - 2)
    have hzero : (m.machine.scheduler.table.record Config.rightSlot).pid = 0 :=
      hpid.trans (by decide)
    refine ⟨m, hpath, hkeeps.other, hzero, hkeeps.sound.reaches ?_⟩
    refine Table.find?_eq_some_iff.mpr ⟨⟨by simp [hkeeps.other], hzero⟩, ?_⟩
    rintro y hlt ⟨-, hy⟩
    obtain rfl | rfl := Config.eq_left_or_right y
    · exact absurd (hkeeps.keeper.2.symm.trans hy) (by decide)
    · exact lt_irrefl _ hlt
  · obtain ⟨m, hpath, hkeeps, hpid⟩ := exists_latecomer (2 ^ 32 - 1)
    have hone : (m.machine.scheduler.table.record Config.rightSlot).pid = 1 :=
      hpid.trans (by decide)
    refine ⟨m, hpath, hkeeps.keeper.1, hkeeps.other, hkeeps.keeper.2, hone, hkeeps.sound.reaches ?_⟩
    refine Table.find?_eq_some_iff.mpr ⟨⟨by simp [hkeeps.keeper], hkeeps.keeper.2⟩, ?_⟩
    exact fun y hlt => absurd hlt (Nat.not_lt_zero _)

end FeedbackQueue
