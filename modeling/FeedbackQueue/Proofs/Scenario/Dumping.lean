import FeedbackQueue.Proofs.Process.Search
import FeedbackQueue.Proofs.Scenario.Safety
import FeedbackQueue.Proofs.Scenario.Selection

/-!
# Reports along runs

A dump shows every process that belongs into the queues, and shows it once.  Under feedback that
follows from the rows being all queues; under round robin there is one row only, and no process is
hidden in the expired set because nothing ever gets there.

* `Scheduler.Shows` — what the rows of a dump show;
* `Scheduler.Sound.shows_dumpRows` — the rows of a sound scheduler;
* `Reachable.dump_shows_each_once` — dumps and listings at every moment of every run.
-/

namespace FeedbackQueue

open Kernel

variable {cfg : Config}

/-! ## Rows -/

/-- What the rows of a dump show of a scheduler.  If there are queues, their rows list the members
that the links spell out; and every process has its place in exactly one row, whatever the policy,
if it has one at all. -/
structure Scheduler.Shows (s : Scheduler cfg) (rows : List (DumpRow cfg.maxProcs)) : Prop where
  feedback : cfg.effectivePolicy = .feedback →
    rows.map (fun row => (row.level, row.set))
      = (List.range cfg.levels).map (·, .active) ++ (List.range cfg.levels).map (·, .expired) ∧
    ∀ row ∈ rows, s.queues.quantum row.level row.set = .ok row.quantum
  single : cfg.effectivePolicy ≠ .feedback →
    ∃ slots, rows = [{ level := 0, set := .active, quantum := 0, slots }]
  members : cfg.effectivePolicy ≠ .fifo → ∃ sequences, s.queues.Spells sequences ∧
    ∀ row ∈ rows, row.slots = sequences row.level row.set
  queued_once : cfg.effectivePolicy ≠ .fifo → ∀ slot,
    (rows.flatMap DumpRow.slots).count slot
      = if (s.table.record slot).state = .sleeping ∨ (s.table.record slot).state = .runnable ∨
          (s.table.record slot).state = .running then 1 else 0
  ascending : cfg.effectivePolicy = .fifo → ∀ row ∈ rows, row.slots.Pairwise (· < ·)
  live_once : cfg.effectivePolicy = .fifo → ∀ slot,
    (rows.flatMap DumpRow.slots).count slot
      = if (s.table.record slot).state ≠ .unused then 1 else 0

namespace Scheduler

variable {s : Scheduler cfg}

/-- A list without repetitions in which exactly the linked slots occur shows each process that
belongs into the queues once. -/
theorem Sound.count_eq (hs : s.Sound) (huse : cfg.effectivePolicy.usesQueues = true)
    {slots : List (Fin cfg.maxProcs)} (hnodup : slots.Nodup)
    (hmem : ∀ slot, slot ∈ slots ↔ s.queues.isLinked slot = true) (slot : Fin cfg.maxProcs) :
    slots.count slot
      = if (s.table.record slot).state = .sleeping ∨ (s.table.record slot).state = .runnable ∨
          (s.table.record slot).state = .running then 1 else 0 := by
  have hstate := hmem slot
  rw [hs.isLinked_eq, huse, Bool.true_and, ProcState.isQueued_iff] at hstate
  rw [hnodup.count]
  exact if_congr hstate rfl rfl

theorem flatMap_slots_dumpRows (hp : cfg.effectivePolicy = .feedback) :
    s.dumpRows.flatMap DumpRow.slots
      = (Queues.allQueues cfg.levels).flatMap fun queue => s.queues.members queue.1 queue.2 := by
  simp only [dumpRows, hp, List.flatMap_map]

theorem Sound.shows_feedback (hs : s.Sound) (hp : cfg.effectivePolicy = .feedback) :
    s.Shows s.dumpRows where
  feedback _ := by
    simp only [dumpRows, hp, List.map_map, List.forall_mem_map]
    refine ⟨List.map_id' _, fun queue hqueue => ?_⟩
    have hlane := s.queues.lane?_of_lt queue.2 (Queues.mem_allQueues.mp hqueue)
    rw [Queues.quantum_eq_of_lane? _ _ _ _ hlane, hlane]
    rfl
  single h := absurd hp h
  members _ := by
    refine ⟨s.queues.sequences, hs.queues.spells, ?_⟩
    simp only [dumpRows, hp, List.forall_mem_map]
    exact fun _ _ => rfl
  queued_once _ := by
    rw [flatMap_slots_dumpRows hp]
    refine hs.count_eq (by rw [hp]; rfl) hs.queues.spells.nodup_flatMap fun slot => ?_
    rw [hs.queues.isLinked_iff]
    simp [Queues.mem_allQueues]
  ascending h := by simp [hp] at h
  live_once h := by simp [hp] at h

theorem Sound.shows_roundRobin (hs : s.Sound) (hv : cfg.IsValid)
    (hp : cfg.effectivePolicy = .roundRobin)
    (hnone : ∀ slot level, s.queues.location slot ≠ some (level, .expired)) :
    s.Shows s.dumpRows where
  feedback h := by simp [hp] at h
  single _ := ⟨s.queues.members 0 .active, by simp only [dumpRows, hp]⟩
  members _ := by
    refine ⟨s.queues.sequences, hs.queues.spells, ?_⟩
    simp only [dumpRows, hp, List.forall_mem_singleton]
    rfl
  queued_once _ := by
    have hone := hv.levels_of_roundRobin hp
    have hrows : s.dumpRows.flatMap DumpRow.slots = s.queues.members 0 .active := by
      simp [dumpRows, hp]
    rw [hrows]
    refine hs.count_eq (by rw [hp]; rfl)
      (hs.queues.spells.nodup 0 (by omega) .active) fun slot => ?_
    rw [hs.queues.isLinked_iff]
    constructor
    · intro hmem
      exact ⟨0, by omega, .active, hmem⟩
    · rintro ⟨level, hl, set, hmem⟩
      cases set with
      | active =>
        obtain rfl : level = 0 := by omega
        exact hmem
      | expired =>
        exact absurd ((hs.queues.location_eq_some_iff slot level .expired).mpr ⟨hl, hmem⟩)
          (hnone slot level)
  ascending h := by simp [hp] at h
  live_once h := by simp [hp] at h

theorem shows_fifo (s : Scheduler cfg) (hp : cfg.effectivePolicy = .fifo) :
    s.Shows s.dumpRows where
  feedback h := by simp [hp] at h
  single _ := ⟨s.liveSlots, by simp only [dumpRows, hp]⟩
  members h := absurd hp h
  queued_once h := absurd hp h
  ascending _ := by
    simp only [dumpRows, hp, List.forall_mem_singleton]
    exact (List.pairwise_lt_finRange _).filter _
  live_once _ slot := by
    have hrows : s.dumpRows.flatMap DumpRow.slots = s.liveSlots := by
      simp [dumpRows, hp]
    have hnodup : s.liveSlots.Nodup := (List.nodup_finRange _).filter _
    have hmem : slot ∈ s.liveSlots ↔ (s.table.record slot).state ≠ .unused := by
      rw [liveSlots, List.mem_filter, Record.isLive_iff]
      exact and_iff_right (List.mem_finRange slot)
    rw [hrows, hnodup.count]
    exact if_congr hmem rfl rfl

/-- Whatever the policy, the rows of a sound scheduler show what they should. -/
theorem Sound.shows_dumpRows (hs : s.Sound) (hv : cfg.IsValid)
    (hnone : cfg.effectivePolicy ≠ .feedback →
      ∀ slot level, s.queues.location slot ≠ some (level, .expired)) : s.Shows s.dumpRows := by
  cases hp : cfg.effectivePolicy with
  | feedback => exact hs.shows_feedback hp
  | roundRobin => exact hs.shows_roundRobin hv hp (hnone (by simp [hp]))
  | fifo => exact s.shows_fifo hp

end Scheduler

/-! ## Runs -/

/-- At every moment of every run a dump shows every process that belongs into the queues once, and
nobody else; without queues it shows every slot that is not free once.  The entry of a process tells
its pid, name, state and budget.  A dump and a listing leave everything as it was. -/
theorem Reachable.dump_shows_each_once (hv : cfg.IsValid) {m : Moment cfg} (hm : Reachable m) :
    let s := m.machine.scheduler
    (∃ rows, s.Shows rows ∧
      dump m.machine = .ok (dumpText rows s.table m.machine.hardware.ticks) m.machine) ∧
    listing m.machine
      = .ok ("\n" ++ String.join (s.liveSlots.map fun slot => (s.table.record slot).listed))
          m.machine ∧
    ∀ r r' : Record, r.entry = r'.entry ↔
      r.pid = r'.pid ∧ r.name = r'.name ∧ r.state = r'.state ∧ r.quantum = r'.quantum := by
  intro s
  have hsound := hm.sound hv
  have hshows : s.Shows s.dumpRows :=
    hsound.scheduler.shows_dumpRows hv fun hp slot level => hm.not_expired hv hp slot level
  refine ⟨⟨s.dumpRows, hshows, ?_⟩, ?_, fun r r' => Record.entry_inj⟩
  · exact hsound.machine_of_forall (P := fun t =>
      dump t = .ok (dumpText s.dumpRows s.table t.hardware.ticks) t) fun _ _ _ => dump_apply
  · exact hsound.machine_of_forall (P := fun t => listing t = .ok _ t) fun _ _ _ => listing_apply

/-- A run after which one process waits in the expired set and the other one runs. -/
def oneInEachSet : List Step :=
  [.act (.fork "worker" none none), .begin 0, .act (.tick 0 1), .finish 0 .yield, .begin 0,
    .act (.tick 0 1), .finish 0 .yield, .act (.fork "other" none none), .begin 1]

/-- Both are shown, each of them once. -/
theorem oneInEachSet_shown : ∃ m ∈ (Moment.fresh .paired).walk? oneInEachSet,
    m.machine.scheduler.queues.location Config.firstSlot = some (0, .expired) ∧
    m.machine.scheduler.queues.location Config.secondSlot = some (0, .active) ∧
    ∃ rows, dump m.machine = .ok (dumpText rows m.machine.scheduler.table
        m.machine.hardware.ticks) m.machine ∧
      ∀ slot, (rows.flatMap DumpRow.slots).count slot = 1 := by
  have hrun : ∃ m ∈ (Moment.fresh .paired).walk? oneInEachSet,
      m.machine.scheduler.queues.location Config.firstSlot = some (0, .expired) ∧
      m.machine.scheduler.queues.location Config.secondSlot = some (0, .active) ∧
      ∀ slot, (m.machine.scheduler.table.record slot).state = .runnable ∨
        (m.machine.scheduler.table.record slot).state = .running := by decide +kernel
  obtain ⟨m, hwalk, hfirst, hsecond, hstates⟩ := hrun
  obtain ⟨⟨rows, hshows, hdump⟩, -⟩ :=
    Reachable.dump_shows_each_once (by decide) ⟨_, path_of_walk? hwalk⟩
  refine ⟨m, hwalk, hfirst, hsecond, rows, hdump, fun slot => ?_⟩
  rw [hshows.queued_once (by decide) slot]
  exact if_pos (.inr (hstates slot))

end FeedbackQueue
