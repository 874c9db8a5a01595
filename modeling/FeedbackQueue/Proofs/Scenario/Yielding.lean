import FeedbackQueue.Proofs.Queue.Cascade
import FeedbackQueue.Proofs.Scenario.Exhaustion

/-!
# What a yield does under feedback

A yield decides where its process goes, drains the level if that has no ticks left, queues the
process and fills its budget.  `Reachable.yield_requeues` says what all this leaves, in every queue
and every record.
-/

namespace FeedbackQueue

open Kernel

variable {cfg : Config}

namespace Kernel

variable {s : Scheduler cfg} {slot : Fin cfg.maxProcs}

theorem Requeues.yieldsTo (hs : s.Sound) (hp : cfg.effectivePolicy = .feedback) {replenish : Bool}
    {effects : List (Effect cfg)} (h : Requeues s slot replenish effects) {level : Nat}
    {set : QueueSet} (hplace : s.queues.location slot = some (level, set)) :
    s.queues.YieldsTo (Effect.applyAll s effects).queues slot level (s.table.record slot).quantum
        (s.queues.sink level) ∧
      (replenish = true ↔
        ¬(s.queues.hasTicks level = true ∧ 0 < (s.table.record slot).quantum)) := by
  cases h with
  | scan policy => simp [policy] at hp
  | roundRobin policy => simp [policy] at hp
  | @feedback policy level' set' d place decision =>
    obtain ⟨rfl, rfl⟩ : level' = level ∧ set' = set := by simpa using place.symm.trans hplace
    have hl := hs.queues.level_lt place
    have hqueues : (Effect.applyAll s (cascadeEffects s slot level' d ++ moveEffects cfg level' d ++
        [.requeue slot d.level d.set])).queues
        = (if d.cascade then
            s.queues.relinkAll d.level d.set (s.queues.sequences.movers level' (some slot.val))
          else s.queues).relink slot d.level d.set := by
      rw [Effect.applyAll_append, ← queues_cascadeEffects]
      rfl
    refine ⟨hqueues ▸ hs.queues.yieldsTo slot hl decision, ?_⟩
    rw [Queues.decision_eq hl, Except.ok.injEq] at decision
    subst decision
    split <;> simp_all

end Kernel

/-- Under feedback, at every moment of every run, the process that a CPU runs can yield.  It goes
to the tail of its level with what is left of its budget, while both have ticks left.  Otherwise it
goes to the tail of the least lower level that has ticks left, or home to the expired set when there
is none, and its budget is filled; a level without ticks is left by all others before, in their
order.  No other order, no ticks, no home and no other process changes. -/
theorem Reachable.yield_requeues (hv : cfg.IsValid) (hp : cfg.effectivePolicy = .feedback)
    {m : Moment cfg} (hm : Reachable m) {cpu : Fin cfg.ncpu} {slot : Fin cfg.maxProcs}
    (hcurrent : (m.machine.scheduler.cpu cpu).current = some slot) {level : Nat} {set : QueueSet}
    (hplace : m.machine.scheduler.queues.location slot = some (level, set)) :
    let s := m.machine.scheduler
    let r := s.table.record slot
    ∃ sink yielded, yieldNow cpu m.machine = .ok () yielded ∧
      (∀ y, s.queues.SinksTo level y (sink y)) ∧
      s.queues.YieldsTo yielded.scheduler.queues slot level r.quantum sink ∧
      yielded.scheduler.table.record slot = { r with
        quantum := if s.queues.hasTicks level = true ∧ 0 < r.quantum then r.quantum
          else cfg.procQuantum
        state := .runnable } ∧
      ∀ y ≠ slot, yielded.scheduler.table.record y = s.table.record y := by
  have hsound := hm.sound hv
  have hs := hsound.scheduler
  obtain ⟨enabled, hmachine⟩ := hsound.machine_eq
  obtain ⟨replenish, effects, w, e, j, hrequeues, hallowed, hyield⟩ :=
    yieldNow_apply cpu.isLt hcurrent hs m.machine.hardware enabled m.machine.journal
  rw [← hmachine] at hyield
  have hcount : (Effect.count .yield).Allowed m.machine.scheduler := by simp [Effect.Allowed]
  have hcounted :
      Requeues ((Effect.count .yield).apply m.machine.scheduler) slot replenish effects :=
    Requeues.count_iff.mpr hrequeues
  obtain ⟨hyields, hreplenish⟩ := hcounted.yieldsTo (hs.apply hcount) hp hplace
  have htable : (Effect.applyAll m.machine.scheduler (.count .yield :: effects)).table
      = m.machine.scheduler.table := hcounted.frame.1
  refine ⟨_, _, hyield, m.machine.scheduler.queues.sinksTo_sink level, hyields, ?_, fun y hy => ?_⟩
  · rw [Table.record_adjust_self, htable]
    congr 1
    by_cases hstays : m.machine.scheduler.queues.hasTicks level = true ∧
        0 < (m.machine.scheduler.table.record slot).quantum
    · obtain rfl : replenish = false := by
        rw [← Bool.not_eq_true]
        exact fun h => hreplenish.mp h hstays
      rw [if_pos hstays]
      rfl
    · obtain rfl : replenish = true := hreplenish.mpr hstays
      rw [if_neg hstays]
      rfl
  · rw [Table.record_adjust, if_neg hy, htable]

/-- A run in which the first of two processes has its turn while the level has no ticks left. -/
def spendsLevel : List Step :=
  [.act (.fork "worker" none none), .act (.fork "other" none none), .begin 0, .act (.tick 0 1)]

/-- The other process is sent down first, and the one that yields comes after it. -/
theorem spendsLevel_cascades : ∃ m ∈ (Moment.fresh .paired).walk? spendsLevel,
    ∃ yielded, yieldNow 0 m.machine = .ok () yielded ∧
      yielded.scheduler.queues.members 0 .active = [] ∧
      yielded.scheduler.queues.members 1 .active = [Config.secondSlot, Config.firstSlot] ∧
      (yielded.scheduler.table.record Config.firstSlot).quantum = Config.paired.procQuantum := by
  have hrun : ∃ m ∈ (Moment.fresh .paired).walk? spendsLevel,
      (m.machine.scheduler.cpu ⟨0, by decide⟩).current = some Config.firstSlot ∧
      m.machine.scheduler.queues.location Config.firstSlot = some (0, .active) ∧
      m.machine.scheduler.queues.hasTicks 0 = false ∧
      m.machine.scheduler.queues.hasTicks 1 = true ∧
      m.machine.scheduler.queues.members 0 .active = [Config.firstSlot, Config.secondSlot] ∧
      m.machine.scheduler.queues.members 1 .active = [] := by decide +kernel
  obtain ⟨m, hwalk, hcurrent, hplace, hspent, hticks, hfirst, hsecond⟩ := hrun
  obtain ⟨sink, yielded, hyield, hsink, hyields, hrecord, -⟩ :=
    Reachable.yield_requeues (by decide) (by decide) ⟨_, path_of_walk? hwalk⟩ hcurrent hplace
  have hlower : ∀ y, sink y = (1, .active) := by
    intro y
    obtain ⟨lower, ⟨⟨hbelow, hl, -⟩, -⟩, hy⟩ | ⟨hnone, -⟩ := hsink y
    · have hl : lower < 2 := hl
      rw [hy, show lower = 1 by omega]
    · rw [hnone 1 (by decide) (by decide)] at hticks
      cases hticks
  refine ⟨m, hwalk, yielded, hyield, hyields.empties hspent, ?_, ?_⟩
  · rw [hyields.drains hspent 1 .active (by decide), hfirst, hsecond]
    simp [hlower, Config.firstSlot, Config.secondSlot]
  · rw [hrecord, hspent]
    rfl

end FeedbackQueue
