import FeedbackQueue.Proofs.Scenario.Steps

/-!
# What a tick foretells

A tick answers whether the process that a CPU runs should yield, and a yield decides whether the
process stays on its level.  Both ask whether the budget of the process is used up, or the ticks of
a queue.  The queue is not the same: a tick is charged to the queue that the process is in, and a
yield looks at the active queue of the level.

`Reachable.tick_foretells_yield` says what either of them finds, and that they agree while the
process is in the active set.  It may be in the expired set while it runs, when another CPU has
exchanged the sets or drained its level, and then they may differ
(`idleExchange_disagrees`).
-/

namespace FeedbackQueue

open Kernel

variable {cfg : Config}

namespace Scheduler

/-- A process that has yielded has left its level, down in the active set or home to the expired
set, and its budget is full. -/
def HasLeft (s : Scheduler cfg) (slot : Fin cfg.maxProcs) (level : Nat) : Prop :=
  ((∃ lower, level < lower ∧ s.queues.location slot = some (lower, .active)) ∨
    s.queues.location slot = some ((s.queues.link slot).home, .expired)) ∧
  (s.table.record slot).quantum = cfg.procQuantum

/-- A process that has yielded has gone to the tail of the active queue of its level, with what was
left of its budget. -/
def HasStayed (before s : Scheduler cfg) (slot : Fin cfg.maxProcs) (level : Nat) : Prop :=
  s.queues.location slot = some (level, .active) ∧
  s.queues.members level .active
    = (before.queues.members level .active).filter (· != slot) ++ [slot] ∧
  (s.table.record slot).quantum = (before.table.record slot).quantum

theorem HasStayed.not_hasLeft {before s : Scheduler cfg} {slot : Fin cfg.maxProcs} {level : Nat}
    (h : before.HasStayed s slot level) : ¬s.HasLeft slot level := by
  rintro ⟨⟨lower, hlower, hplace⟩ | hplace, -⟩
  · rw [h.1] at hplace
    obtain ⟨rfl, -⟩ := Prod.mk.inj (Option.some.inj hplace)
    exact Nat.lt_irrefl _ hlower
  · rw [h.1] at hplace
    cases hplace

end Scheduler

/-! ## Yields -/

namespace Kernel

variable {s : Scheduler cfg} {slot : Fin cfg.maxProcs}

/-- Under feedback a process that yields leaves its level exactly when its budget is filled. -/
theorem Requeues.place (hs : s.Sound) (hp : cfg.effectivePolicy = .feedback) {replenish : Bool}
    {effects : List (Effect cfg)} (h : Requeues s slot replenish effects)
    (hallowed : Effect.AllowedAll s effects) :
    ∃ level set, s.queues.location slot = some (level, set) ∧
      (replenish = true ↔
        (s.table.record slot).quantum ≤ 0 ∨ s.queues.isSpent level .active = true) ∧
      let q := (Effect.applyAll s effects).queues
      if replenish then
        (∃ lower, level < lower ∧ q.location slot = some (lower, .active)) ∨
          q.location slot = some ((q.link slot).home, .expired)
      else q.location slot = some (level, .active) ∧ q.members level .active
        = (s.queues.members level .active).filter (· != slot) ++ [slot] := by
  cases h with
  | scan policy => simp [policy] at hp
  | roundRobin policy => simp [policy] at hp
  | @feedback policy level set d place decision =>
    have hl := hs.queues.level_lt place
    refine ⟨level, set, place, Queues.decision_replenish_iff decision hl, ?_⟩
    obtain ⟨hbefore, ⟨-, -, hd⟩, -⟩ := Effect.allowedAll_append.mp hallowed
    -- The level may be drained first; wherever that leaves the process, it is relinked afterwards.
    let t := Effect.applyAll s (cascadeEffects s slot level d ++ moveEffects cfg level d)
    have ht : t.Sound := hs.applyAll hbefore
    have hplace : (t.queues.relink slot d.level d.set).location slot = some (d.level, d.set) :=
      (ht.queues.location_relink slot slot hd d.set).trans (if_pos rfl)
    have hqueues : (Effect.applyAll s (cascadeEffects s slot level d ++ moveEffects cfg level d ++
        [.requeue slot d.level d.set])).queues = t.queues.relink slot d.level d.set := by
      rw [Effect.applyAll_append]
      rfl
    rw [hqueues]
    obtain ⟨hlevel, hset, hreplenish, hcascade⟩ | ⟨hlower, hset, hreplenish⟩ |
      ⟨-, hlevel, hset, hreplenish⟩ := Queues.decision_cases decision
    · have hsame : t = s := by
        simp [t, cascadeEffects, moveEffects, hcascade, hset, hlevel, Effect.applyAll]
      rw [hlevel, hset] at hplace ⊢
      rw [hsame] at hplace ⊢
      rw [if_neg (by simp [hreplenish])]
      refine ⟨hplace, (hs.queues.spells.relink slot hl .active).members hl .active |>.trans ?_⟩
      exact Sequences.append_self _
    · rw [if_pos hreplenish]
      exact .inl ⟨d.level, (Queues.lowerLevel?_eq_some hlower).1, hset ▸ hplace⟩
    · rw [if_pos hreplenish, Queues.home_relink, home_cascadeEffects]
      exact .inr (hplace.trans (by rw [hlevel, hset]))

/-- Under feedback a process that yields leaves its level when its budget or the ticks of the active
queue of the level are used up, and else it stays. -/
theorem yieldNow_places (hs : s.Sound) (hp : cfg.effectivePolicy = .feedback) {cpu : Fin cfg.ncpu}
    (hcurrent : (s.cpu cpu).current = some slot) (w : Hardware cfg.maxProcs) (e : Bool)
    (j : Array Event) :
    ∃ level set m, s.queues.location slot = some (level, set) ∧
      yieldNow cpu ⟨s, w, .holding e [] [], j⟩ = .ok () m ∧
      let spent : Prop := (s.table.record slot).quantum ≤ 0 ∨ s.queues.isSpent level .active = true
      (spent → m.scheduler.HasLeft slot level) ∧
        (¬spent → s.HasStayed m.scheduler slot level) := by
  obtain ⟨replenish, effects, w', e', j', hrequeues, hallowed, hyield⟩ :=
    yieldNow_apply cpu.isLt hcurrent hs w e j
  have hcount : (Effect.count .yield).Allowed s := by simp [Effect.Allowed]
  have hcounted : Requeues ((Effect.count .yield).apply s) slot replenish effects :=
    Requeues.count_iff.mpr hrequeues
  have htable : (Effect.applyAll s (.count .yield :: effects)).table = s.table := hcounted.frame.1
  obtain ⟨level, set, hplace, hreplenish, hafter⟩ :=
    hcounted.place (hs.apply hcount) hp hallowed.2
  refine ⟨level, set, _, hplace, hyield, fun hspent => ?_, fun hspent => ?_⟩
  · obtain rfl : replenish = true := hreplenish.mpr hspent
    exact ⟨hafter, by simp⟩
  · obtain rfl : replenish = false := by
      rw [← Bool.not_eq_true]
      exact fun h => hspent (hreplenish.mp h)
    exact ⟨hafter.1, hafter.2, by simp [htable]⟩

/-! ## Ticks -/

/-- Under feedback the answer to a tick is read off the budget and the queue that were charged. -/
theorem Charges.answer_iff {cpu : Fin cfg.ncpu} {answer : Bool} {effects : List (Effect cfg)}
    (h : Charges s cpu answer effects) (hp : cfg.effectivePolicy = .feedback)
    (hcurrent : (s.cpu cpu).current = some slot) {level : Nat} {set : QueueSet}
    (hplace : s.queues.location slot = some (level, set)) :
    let t := Effect.applyAll s effects
    (t.cpu cpu).current = some slot ∧ t.queues.location slot = some (level, set) ∧
      (answer = true ↔
        (t.table.record slot).quantum ≤ 0 ∨ t.queues.isSpent level set = true) := by
  cases h with
  | idle current => simp [current] at hcurrent
  | scan policy => simp [policy] at hp
  | roundRobin policy => simp [policy] at hp
  | @feedback found level' set' lane policy current place ticks left =>
    obtain rfl : found = slot := Option.some.inj (current.symm.trans hcurrent)
    obtain ⟨rfl, rfl⟩ : level' = level ∧ set' = set := by
      simpa using place.symm.trans hplace
    refine ⟨hcurrent, (Queues.Sound.location_setTicks ..).trans hplace, ?_⟩
    simp [Effect.applyAll, Effect.apply, Queues.isSpent, Queues.lane?_adjustLane, ticks]

end Kernel

/-! ## Agreement -/

/-- Under feedback, at every moment of every run: when a tick of the process that a CPU runs is
answered and the process then yields, the yield is carried out.  The answer is yes when the budget
or the ticks of the queue that the process is in are used up, and the process leaves its level when
its budget or the ticks of the active queue of the level are.  So the answer foretells what the
yield does if the process is in the active set. -/
theorem Reachable.tick_foretells_yield (hv : cfg.IsValid) (hp : cfg.effectivePolicy = .feedback)
    {m : Moment cfg} (hm : Reachable m) {cpu : Fin cfg.ncpu} {slot : Fin cfg.maxProcs}
    (hcurrent : (m.machine.scheduler.cpu cpu).current = some slot) {answer : Bool}
    {ticked : Machine cfg} (htick : chargeTick cpu m.machine = .ok answer ticked) :
    ∃ level set yielded, ticked.scheduler.queues.location slot = some (level, set) ∧
      yieldNow cpu ticked = .ok () yielded ∧
      let spent (set : QueueSet) : Prop := (ticked.scheduler.table.record slot).quantum ≤ 0 ∨
        ticked.scheduler.queues.isSpent level set = true
      (answer = true ↔ spent set) ∧
      (spent .active ↔ yielded.scheduler.HasLeft slot level) ∧
      (¬spent .active → ticked.scheduler.HasStayed yielded.scheduler slot level) ∧
      (set = .active → (answer = true ↔ yielded.scheduler.HasLeft slot level) ∧
        (answer = false → ticked.scheduler.HasStayed yielded.scheduler slot level)) := by
  have hsound := hm.sound hv
  have hs := hsound.scheduler
  obtain ⟨enabled, hmachine⟩ := hsound.machine_eq
  have hstate := (hs.running slot).mpr ⟨cpu, hcurrent⟩
  obtain ⟨level, set, hplace⟩ := hs.exists_location slot (by rw [hp]; rfl)
    (by rw [hstate]; rfl)
  obtain ⟨fault, _, -, hfault⟩ | ⟨answer', effects, w, e, j, hcharges, hallowed, hok⟩ :=
    chargeTick_ensures hs cpu.isLt m.machine.hardware enabled m.machine.journal
  · rw [← hmachine, htick] at hfault
    cases hfault
  rw [← hmachine, htick] at hok
  obtain ⟨rfl, rfl⟩ := EStateM.Result.ok.inj hok
  obtain ⟨hcurrent', hplace', hanswer⟩ := hcharges.answer_iff hp hcurrent hplace
  obtain ⟨level', set', yielded, hplace'', hyield, hafter⟩ :=
    yieldNow_places (hs.applyAll hallowed) hp hcurrent' w e j
  obtain ⟨rfl, rfl⟩ : level = level' ∧ set = set' := by
    simpa using hplace'.symm.trans hplace''
  obtain ⟨hleft, hstayed⟩ := hafter
  have hleaves := Iff.intro hleft fun h =>
    not_imp_comm.mp hstayed fun hstayed => hstayed.not_hasLeft h
  refine ⟨level, set, yielded, hplace', hyield, hanswer, hleaves, hstayed, ?_⟩
  rintro rfl
  refine ⟨hanswer.trans hleaves, fun hno => hstayed fun hspent => ?_⟩
  exact Bool.false_ne_true (hno.symm.trans (hanswer.mpr hspent))

/-! ## A tick and a yield in single runs -/

/-- The answer of an operation, and the machine after it. -/
def Kernel.outcome? {α : Type} (x : Kernel cfg α) (m : Machine cfg) : Option (α × Machine cfg) :=
  match x m with
  | .ok a m => some (a, m)
  | .error .. => none

theorem Kernel.eq_ok_of_mem_outcome? {α : Type} {x : Kernel cfg α} {m : Machine cfg}
    {r : α × Machine cfg} (h : r ∈ outcome? x m) : x m = .ok r.1 r.2 := by
  cases hx : x m with
  | ok a m' =>
    obtain rfl : (a, m') = r := by simpa [outcome?, hx] using h
    rfl
  | error fault m' => simp [outcome?, hx] at h

/-- A run after which the only process has its turn, with a budget of one tick. -/
def startsAlone : List Step :=
  [.act (.fork "worker" none none), .begin 0]

theorem startsAlone_foretells : ∃ m ∈ (Moment.fresh .smallest).walk? startsAlone,
    ∃ ticked yielded, chargeTick 0 m.machine = .ok true ticked ∧
      yieldNow 0 ticked = .ok () yielded ∧ yielded.scheduler.HasLeft Config.onlySlot 1 := by
  have hruns : ∃ m ∈ (Moment.fresh .smallest).walk? startsAlone,
      (m.machine.scheduler.cpu ⟨0, by decide⟩).current = some Config.onlySlot ∧
      ∃ r ∈ outcome? (chargeTick 0) m.machine, r.1 = true ∧
        r.2.scheduler.queues.location Config.onlySlot = some (1, .active) := by decide +kernel
  obtain ⟨m, hwalk, hcurrent, ⟨_, ticked⟩, htick, rfl, hplace⟩ := hruns
  have htick := eq_ok_of_mem_outcome? htick
  obtain ⟨level, set, yielded, hplace', hyield, -, -, -, hagrees⟩ :=
    Reachable.tick_foretells_yield (by decide) (by decide) ⟨_, path_of_walk? hwalk⟩ hcurrent htick
  obtain ⟨rfl, rfl⟩ : 1 = level ∧ .active = set := by simpa using hplace.symm.trans hplace'
  exact ⟨m, hwalk, ticked, yielded, htick, hyield, (hagrees rfl).1.mp rfl⟩

/-- A run in which a process has its turn while another CPU finds nothing runnable and exchanges the
sets. -/
def idleExchange : List Step :=
  [.act (.fork "worker" none none), .begin 0, .begin 1]

/-- The process is now in the expired set.  A tick uses up the ticks of that queue and is answered
with yes, but the active queue of the level has been filled again, and the yield keeps the process
on its level with what is left of its budget. -/
theorem idleExchange_disagrees : ∃ m ∈ (Moment.fresh .paired).walk? idleExchange,
    (m.machine.scheduler.cpu ⟨0, by decide⟩).current = some Config.firstSlot ∧
      ∃ ticked yielded, chargeTick 0 m.machine = .ok true ticked ∧
        yieldNow 0 ticked = .ok () yielded ∧
        ticked.scheduler.HasStayed yielded.scheduler Config.firstSlot 0 ∧
        ¬yielded.scheduler.HasLeft Config.firstSlot 0 := by
  have hruns : ∃ m ∈ (Moment.fresh .paired).walk? idleExchange,
      (m.machine.scheduler.cpu ⟨0, by decide⟩).current = some Config.firstSlot ∧
      ∃ r ∈ outcome? (chargeTick 0) m.machine, r.1 = true ∧
        ∃ r' ∈ outcome? (yieldNow 0) r.2,
          r'.2.scheduler.queues.location Config.firstSlot = some (0, .active) ∧
          r'.2.scheduler.queues.members 0 .active
            = (r.2.scheduler.queues.members 0 .active).filter (· != Config.firstSlot)
              ++ [Config.firstSlot] ∧
          (r'.2.scheduler.table.record Config.firstSlot).quantum
            = (r.2.scheduler.table.record Config.firstSlot).quantum := by decide +kernel
  obtain ⟨m, hwalk, hcurrent, ⟨_, ticked⟩, htick, rfl, ⟨_, yielded⟩, hyield, hstayed⟩ := hruns
  exact ⟨m, hwalk, hcurrent, ticked, yielded, eq_ok_of_mem_outcome? htick,
    eq_ok_of_mem_outcome? hyield, hstayed, Scheduler.HasStayed.not_hasLeft hstayed⟩

end FeedbackQueue
