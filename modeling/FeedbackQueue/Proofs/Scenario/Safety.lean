import FeedbackQueue.Proofs.Scenario.Steps

/-!
# Safety of runs

What holds of every run, in whatever order its CPUs interleave:

* `Reachable.links_match_states` — a process is in a queue exactly when its state says so, and it
  has a channel exactly when it sleeps;
* `Reachable.runs_on_one_cpu` — a process runs exactly when it is the current process of one CPU,
  and every CPU that has one is within a round;
* `Reachable.next_succeeds` — no step faults, apart from a tick that charges a queue below the least
  number of ticks.
-/

namespace FeedbackQueue

open Kernel

variable {cfg : Config}

/-- A run in which a sleeper that has been woken exits and is reaped, and its slot is used again,
all in the window of the wakeup. -/
def reuseInWindow : List Step :=
  [.act (.fork "sleeper" none none), .begin 0, .finish 0 (.sleep 7), .wakeup 7, .begin 0,
    .finish 0 (.exit 0), .act (.reap 0), .act (.create "heir" none none)]

/-! ## Links and states -/

theorem ProcState.isQueued_iff (state : ProcState) :
    state.isQueued = true ↔ state = .sleeping ∨ state = .runnable ∨ state = .running := by
  cases state <;> simp [isQueued]

/-- At every moment of every run links and states agree.  If there are queues, exactly the processes
that sleep, wait for a CPU or have one are linked, and exactly those are found by walking the
queues; under the table scan nothing is linked; and exactly the sleepers have a channel. -/
theorem Reachable.links_match_states (hv : cfg.IsValid) {m : Moment cfg} (hm : Reachable m) :
    let s := m.machine.scheduler
    (cfg.policy ≠ .fifo → ∀ slot,
      let queued := (s.table.record slot).state = .sleeping ∨
        (s.table.record slot).state = .runnable ∨ (s.table.record slot).state = .running
      (s.queues.isLinked slot = true ↔ queued) ∧
        ((∃ level set, slot ∈ s.queues.members level set) ↔ queued)) ∧
    (cfg.policy = .fifo → ∀ slot,
      s.queues.isLinked slot = false ∧ ∀ level set, slot ∉ s.queues.members level set) ∧
    ∀ slot, (s.table.record slot).channel.isSome = true
      ↔ (s.table.record slot).state = .sleeping := by
  have hs := (hm.sound hv).scheduler
  refine ⟨fun hp slot => ?_, fun hp slot => ?_, hs.channel⟩
  · have hlinked : m.machine.scheduler.queues.isLinked slot = true ↔
        (m.machine.scheduler.table.record slot).state.isQueued = true := by
      rw [hs.isLinked_eq, Config.usesQueues_iff.mpr hp, Bool.true_and]
    rw [ProcState.isQueued_iff] at hlinked
    exact ⟨hlinked, (hs.queues.exists_mem_members_iff slot).trans hlinked⟩
  · have huse : cfg.effectivePolicy.usesQueues = false := by
      rw [← Bool.not_eq_true, Config.usesQueues_iff, not_not, hp]
    have hunlinked : m.machine.scheduler.queues.isLinked slot = false := by
      rw [hs.isLinked_eq, huse, Bool.false_and]
    refine ⟨hunlinked, fun level set hmem => ?_⟩
    have hlinked := (hs.queues.exists_mem_members_iff slot).mp ⟨level, set, hmem⟩
    exact Bool.false_ne_true (hunlinked.symm.trans hlinked)

theorem reuseInWindow_unlinked : ∃ m ∈ (Moment.fresh .smallest).walk? reuseInWindow,
    (m.machine.scheduler.table.record Config.onlySlot).state = .used ∧
      m.machine.scheduler.queues.isLinked Config.onlySlot = false := by
  have hused : ∃ m ∈ (Moment.fresh .smallest).walk? reuseInWindow,
      (m.machine.scheduler.table.record Config.onlySlot).state = .used := by decide +kernel
  obtain ⟨m, hwalk, hstate⟩ := hused
  obtain ⟨hlinked, -⟩ := (Reachable.links_match_states (by decide) ⟨_, path_of_walk? hwalk⟩).1
    (by decide) Config.onlySlot
  refine ⟨m, hwalk, hstate, ?_⟩
  rw [hstate] at hlinked
  simpa using hlinked

/-! ## CPUs -/

/-- At every moment of every run the running processes are those that have a CPU, each of them just
one.  No two CPUs have the same process, and a CPU has one exactly while it is within a round. -/
theorem Reachable.runs_on_one_cpu (hv : cfg.IsValid) {m : Moment cfg} (hm : Reachable m) :
    let s := m.machine.scheduler
    (∀ slot, (s.table.record slot).state = .running ↔ ∃! cpu, (s.cpu cpu).current = some slot) ∧
    (∀ cpu cpu' slot, (s.cpu cpu).current = some slot → (s.cpu cpu').current = some slot →
      cpu = cpu') ∧
    ∀ cpu : Fin cfg.ncpu, (s.cpu cpu).current = none ↔ ¬m.InTurn cpu := by
  have hsound := hm.sound hv
  have hs := hsound.scheduler
  refine ⟨fun slot => ?_, hs.exclusive, fun cpu => ?_⟩
  · rw [hs.running]
    constructor
    · rintro ⟨cpu, hcpu⟩
      exact ⟨cpu, hcpu, fun other hother => hs.exclusive other cpu slot hother hcpu⟩
    · exact ExistsUnique.exists
  · rw [Option.eq_none_iff_forall_ne_some]
    constructor
    · rintro hnone ⟨slot, hturn⟩
      exact hnone slot ((hsound.fits.turn_iff cpu slot).mp hturn).2
    · exact fun hidle slot hcurrent =>
        hidle ⟨slot, (hsound.fits.turn_iff cpu slot).mpr ⟨cpu.isLt, hcurrent⟩⟩

/-- A run in which a sleeper that has been woken gets its CPU back in the window of the wakeup,
while another CPU runs another process. -/
def returnInWindow : List Step :=
  [.act (.fork "sleeper" none none), .act (.fork "worker" none none), .begin 0, .begin 1,
    .finish 1 (.sleep 7), .wakeup 7, .begin 0]

theorem returnInWindow_runs : ∃ m ∈ (Moment.fresh .paired).walk? returnInWindow,
    (∃! cpu, (m.machine.scheduler.cpu cpu).current = some Config.firstSlot) ∧
      ∃! cpu, (m.machine.scheduler.cpu cpu).current = some Config.secondSlot := by
  have hrunning : ∃ m ∈ (Moment.fresh .paired).walk? returnInWindow,
      (m.machine.scheduler.table.record Config.firstSlot).state = .running ∧
        (m.machine.scheduler.table.record Config.secondSlot).state = .running := by
    decide +kernel
  obtain ⟨m, hwalk, hfirst, hsecond⟩ := hrunning
  obtain ⟨hruns, -⟩ := Reachable.runs_on_one_cpu (by decide) ⟨_, path_of_walk? hwalk⟩
  exact ⟨m, hwalk, (hruns _).mp hfirst, (hruns _).mp hsecond⟩

/-! ## Faults -/

/-- In every run, every step that the rules allow is carried out.  Only a tick can fault, when it
would charge a queue below the least number of ticks. -/
theorem Reachable.next_succeeds (hv : cfg.IsValid) (hsize : cfg.maxProcs ≤ 2 ^ 60) {m : Moment cfg}
    (hm : Reachable m) {step : Step} (hallows : m.Allows step) :
    (∃ m', m.next step = .ok m') ∨
      ∃ cpu count, step = .act (.tick cpu count) ∧ m.next step = .error (.overflow .subtract) := by
  obtain ⟨fault, hmay, hfault⟩ | ⟨effects, m', hok, -⟩ := (hm.sound hv).next hv hallows
  · right
    have hscan : ¬ScanFault cfg fault := fun h => absurd h.2 (Nat.not_lt.mpr hsize)
    cases step with
    | act action =>
      cases action with
      | tick cpu count =>
        obtain rfl : fault = .overflow .subtract := hmay
        exact ⟨cpu, count, rfl, hfault⟩
      | pick cpu => exact absurd hmay hscan
      | _ => exact hmay.elim
    | begin cpu => exact absurd hmay hscan
    | _ => exact hmay.elim
  · exact .inl ⟨m', hok⟩

/-- The wakeup goes on even though its process is gone and the slot holds another one, with queues
and without. -/
theorem reuseInWindow_resumes :
    (∃ m ∈ (Moment.fresh .smallest).walk? reuseInWindow,
      m.Allows (.resume 0) ∧ ∃ m', m.next (.resume 0) = .ok m') ∧
    ∃ m ∈ (Moment.fresh .tabled).walk? reuseInWindow,
      m.Allows (.resume 0) ∧ ∃ m', m.next (.resume 0) = .ok m' := by
  have hresumes : ∀ {cfg : Config}, cfg.IsValid → cfg.maxProcs ≤ 2 ^ 60 →
      (∃ m ∈ (Moment.fresh cfg).walk? reuseInWindow, m.Allows (.resume 0)) →
      ∃ m ∈ (Moment.fresh cfg).walk? reuseInWindow,
        m.Allows (.resume 0) ∧ ∃ m', m.next (.resume 0) = .ok m' := by
    intro cfg hv hsize hopen
    obtain ⟨m, hwalk, hallows⟩ := hopen
    obtain hok | ⟨_, _, hstep, -⟩ :=
      Reachable.next_succeeds hv hsize ⟨_, path_of_walk? hwalk⟩ hallows
    · exact ⟨m, hwalk, hallows, hok⟩
    · cases hstep
  constructor
  · exact hresumes (by decide) (by decide) (by decide +kernel)
  · exact hresumes (by decide) (by decide) (by decide +kernel)

end FeedbackQueue
