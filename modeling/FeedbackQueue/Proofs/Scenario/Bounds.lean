import FeedbackQueue.Proofs.Kernel.Bounds
import FeedbackQueue.Proofs.Scenario.Conservation

/-!
# Levels, budgets and ticks in runs

At every moment of a run levels, budgets and ticks are within their bounds, and a process only ever
goes down, until a yield sends it home to the expired set.

* `Moment.Expires` — a yield puts a process into the expired set, its own or that of another process
  that takes it along;
* `Descends` — runs on which that does not happen to a process;
* `Reachable.levels_and_budgets_bounded` — the bounds, and what becomes of the level of a process.
-/

namespace FeedbackQueue

open Kernel

variable {cfg : Config} {s : Scheduler cfg} {effects : List (Effect cfg)}

/-! ## Calm operations -/

namespace Kernel

theorem Picks.isCalm {cpu : Fin cfg.ncpu} {found : Option (Fin cfg.maxProcs)}
    (h : Picks s cpu found effects) : ∀ effect ∈ effects, effect.isCalm = true := by
  obtain rfl | ⟨isLive, rfl, -⟩ | ⟨cursor, rfl⟩ := h.effects_eq <;> simp [Effect.isCalm]

theorem Begins.isCalm {cpu : Fin cfg.ncpu} {found : Option (Fin cfg.maxProcs)}
    (h : Begins s cpu found effects) : ∀ effect ∈ effects, effect.isCalm = true := by
  cases h with
  | idle picks => exact List.forall_mem_append.mpr ⟨picks.isCalm, by simp [Effect.isCalm]⟩
  | dispatch picks report =>
    rw [List.append_assoc]
    refine List.forall_mem_append.mpr ⟨picks.isCalm, ?_⟩
    obtain rfl | ⟨window, rfl⟩ := report <;> simp [Effect.isCalm]

theorem isCalm_of_isWaking {effect : Effect cfg} (h : effect.isWaking = true) :
    effect.isCalm = true := by
  cases effect <;> first | rfl | cases h

theorem Wakes.isCalm {opened : List (Activity cfg)} (h : Wakes s opened effects) :
    ∀ effect ∈ effects, effect.isCalm = true :=
  fun effect hmem => isCalm_of_isWaking (h.waking effect hmem)

theorem Leaves.isCalm {activity : Activity cfg} {opened : List (Activity cfg)}
    (h : Leaves s activity opened effects) : ∀ effect ∈ effects, effect.isCalm = true := by
  intro effect hmem
  obtain hwaking | ⟨slot, pid, rfl, -⟩ := h.mem_cases hmem
  · exact isCalm_of_isWaking hwaking
  · rfl

end Kernel

/-- Only ticks are charged to queues. -/
theorem Performs.tick_or_calm {action : Action} {reply : Reply cfg.maxProcs}
    (h : Performs s action reply effects) :
    (∃ cpu flags, ChargesAll cpu s flags effects) ∨ ∀ effect ∈ effects, effect.isCalm = true := by
  cases h with
  | pick picks => exact .inr picks.isCalm
  | tick charges => exact .inl ⟨_, _, charges⟩
  | _ => exact .inr (by simp [Effect.isCalm])

/-! ## Steps keep the bounds -/

section Steps

variable {opened opened' : List (Activity cfg)} {step : Step}

theorem Takes.bounded (h : Takes s opened step effects opened') (hv : cfg.IsValid) (hs : s.Sound)
    (hb : s.Bounded) (ha : Effect.AllowedAll s effects) : (Effect.applyAll s effects).Bounded := by
  have hcalm : (∀ effect ∈ effects, effect.isCalm = true) →
      (Effect.applyAll s effects).Bounded := fun hcalm =>
    hb.applyAll hv hs ha fun effect hmem => Effect.isModest_of_isCalm (hcalm effect hmem)
  cases h with
  | act performs =>
    obtain ⟨cpu, flags, charges⟩ | hperforms := performs.tick_or_calm
    · exact charges.bounded hv hs hb ha
    · exact hcalm hperforms
  | begin begins => exact hcalm begins.isCalm
  | finish ends here => exact ends.bounded hv hs hb ha
  | wakeup wakes => exact hcalm wakes.isCalm
  | kill wakes => exact hcalm wakes.isCalm
  | resume here isWindow leaves => exact hcalm leaves.isCalm

/-- Only the end of a turn takes processes off their levels. -/
theorem Takes.keepsLevels (h : Takes s opened step effects opened')
    (hstep : ∀ index ending, step ≠ .finish index ending) :
    ∀ effect ∈ effects, effect.keepsLevels = true := by
  have hcalm : (∀ effect ∈ effects, effect.isCalm = true) →
      ∀ effect ∈ effects, effect.keepsLevels = true :=
    fun hcalm effect hmem => Effect.keepsLevels_of_isCalm (hcalm effect hmem)
  cases h with
  | act performs =>
    obtain ⟨cpu, flags, charges⟩ | hperforms := performs.tick_or_calm
    · intro effect hmem
      have hcharge := charges.isCharge effect hmem
      cases effect <;> first | rfl | cases hcharge
    · exact hcalm hperforms
  | begin begins => exact hcalm begins.isCalm
  | finish ends here => exact absurd rfl (hstep _ _)
  | wakeup wakes => exact hcalm wakes.isCalm
  | kill wakes => exact hcalm wakes.isCalm
  | resume here isWindow leaves => exact hcalm leaves.isCalm

end Steps

theorem Path.bounded {a b : Moment cfg} {steps : List Step} (h : Path a steps b) (hv : cfg.IsValid)
    (ha : a.Sound) (hbounded : a.machine.scheduler.Bounded) : b.machine.scheduler.Bounded := by
  induction h with
  | refl => exact hbounded
  | tail hbefore hallows hnext ih =>
    have hb := ha.path hv hbefore
    obtain ⟨effects, hadvances⟩ := hb.advances hv hallows hnext
    rw [hadvances.scheduler_eq]
    exact hadvances.takes.bounded hv hb.scheduler ih hadvances.allowed

/-! ## Levels -/

/-- Whether a step ends the turn of the process in a slot with a yield. -/
def Step.Yields (opened : List (Activity cfg)) (slot : Fin cfg.maxProcs) (step : Step) : Prop :=
  ∃ index cpu, step = .finish index .yield ∧ opened[index]? = some (.turn cpu slot)

/-- What a step does to the place of a process: it stays on its level or leaves the queues, unless
the step is a yield, of the process itself or of one that takes it along. -/
inductive Shifts (opened : List (Activity cfg)) (step : Step) (t : Scheduler cfg)
    (slot : Fin cfg.maxProcs) (level : Nat) (set : QueueSet) : Prop
  | leaves (gone : t.queues.location slot = none)
  | keeps {after : QueueSet} (quiet : step.isYield = false)
    (place : t.queues.location slot = some (level, after))
  | stays (other : ¬step.Yields opened slot) (place : t.queues.location slot = some (level, set))
  | sinks (yields : step.isYield = true) (moved : step.Yields opened slot ∨ set = .active)
    (sunk : t.HasSunk slot level)

theorem Kernel.Ends.shifts {opened : List (Activity cfg)} {index : Nat} {ending : Ending}
    {cpu : Fin cfg.ncpu} {slot y : Fin cfg.maxProcs} (h : Ends s cpu slot ending effects)
    (hhere : opened[index]? = some (.turn cpu slot)) (hv : cfg.IsValid) (hs : s.Sound)
    (ha : Effect.AllowedAll s effects) {level : Nat} {set : QueueSet}
    (hplace : s.queues.location y = some (level, set)) :
    let t := Effect.applyAll s effects
    (t.queues.link y).home = (s.queues.link y).home ∧
      Shifts opened (.finish index ending) t y level set := by
  cases h with
  | @yield replenish requeued requeues =>
    have hqueues := queues_yieldEffects (s := s) cpu slot replenish requeued
    rw [List.append_assoc] at ha
    obtain ⟨⟨hcount, hrequeued⟩, -⟩ := Effect.allowedAll_append.mp ha
    have hyields : y ≠ slot → ¬(Step.finish index .yield).Yields opened y := by
      rintro hy ⟨_, _, heq, hthere⟩
      cases heq
      cases hhere.symm.trans hthere
      exact hy rfl
    have hsinks := (Requeues.count_iff.mpr requeues).sinks hv (hs.apply hcount) hrequeued hplace
    dsimp only [Scheduler.HasSunk] at hsinks
    rw [← hqueues] at hsinks
    obtain ⟨hhome, ⟨hmoved, hsunk⟩ | ⟨hy, hstays⟩⟩ := hsinks
    · refine ⟨hhome, .sinks rfl (hmoved.imp_left ?_) hsunk⟩
      rintro rfl
      exact ⟨index, cpu, rfl, hhere⟩
    · exact ⟨hhome, .stays (hyields hy) hstays⟩
  | sleep channel =>
    obtain ⟨⟨after, hafter⟩, hhome⟩ :=
      Effect.level_applyAll hs ⟨set, hplace⟩ ha (by simp [Effect.keepsLevels])
    exact ⟨hhome, .keeps rfl hafter⟩
  | exit status =>
    have huse := (hs.queued_of_location hplace).1
    have hqueues : (Effect.applyAll s [.count .exit, .stop cpu slot (.exit status)]).queues
        = s.queues.remove slot := if_pos huse
    have hremoved := Queues.location_remove s.queues slot y
    dsimp only
    rw [← hqueues] at hremoved
    refine ⟨by rw [hqueues, Queues.home_remove], ?_⟩
    by_cases hy : y = slot
    · exact .leaves (hremoved.trans (if_pos hy))
    · exact .keeps rfl (hremoved.trans ((if_neg hy).trans hplace))

theorem Takes.shifts {opened opened' : List (Activity cfg)} {step : Step} {slot : Fin cfg.maxProcs}
    (h : Takes s opened step effects opened') (hv : cfg.IsValid) (hs : s.Sound)
    (ha : Effect.AllowedAll s effects) {level : Nat} {set : QueueSet}
    (hplace : s.queues.location slot = some (level, set)) :
    let t := Effect.applyAll s effects
    (t.queues.link slot).home = (s.queues.link slot).home ∧
      Shifts opened step t slot level set := by
  by_cases hstep : ∃ index ending, step = .finish index ending
  · obtain ⟨index, ending, rfl⟩ := hstep
    cases h with
    | finish ends here => exact ends.shifts here hv hs ha hplace
  · have hkeeps := h.keepsLevels fun index ending heq => hstep ⟨index, ending, heq⟩
    have hquiet : step.isYield = false := by
      cases step with
      | finish index ending => exact absurd ⟨index, ending, rfl⟩ hstep
      | _ => rfl
    obtain ⟨⟨after, hafter⟩, hhome⟩ := Effect.level_applyAll hs ⟨set, hplace⟩ ha hkeeps
    exact ⟨hhome, .keeps hquiet hafter⟩

/-! ## Runs -/

/-- A yield has put a process into the expired set, its own or that of a process of the active set
that it takes along. -/
def Moment.Expires (before : Moment cfg) (slot : Fin cfg.maxProcs) (step : Step)
    (after : Moment cfg) : Prop :=
  step.isYield = true ∧
    (step.Yields before.activities slot ∨
      ∃ level, before.machine.scheduler.queues.location slot = some (level, .active)) ∧
    ∃ level, after.machine.scheduler.queues.location slot = some (level, .expired)

/-- The steps of a run on which a process stays in the queues and no yield puts it into the expired
set. -/
inductive Descends (slot : Fin cfg.maxProcs) : Moment cfg → List Step → Moment cfg → Prop
  | refl (m : Moment cfg) : Descends slot m [] m
  | tail {a b c : Moment cfg} {steps : List Step} {step : Step} :
    Descends slot a steps b → b.Allows step → b.next step = .ok c →
      c.machine.scheduler.queues.isLinked slot = true → ¬b.Expires slot step c →
      Descends slot a (steps ++ [step]) c

theorem Descends.path {slot : Fin cfg.maxProcs} {a b : Moment cfg} {steps : List Step}
    (h : Descends slot a steps b) : Path a steps b := by
  induction h with
  | refl => exact .refl _
  | tail _ hallows hnext _ _ ih => exact ih.tail hallows hnext

theorem Moment.Sound.shifts {m m' : Moment cfg} {step : Step} {slot : Fin cfg.maxProcs}
    (h : m.Sound) (hv : cfg.IsValid) (hallows : m.Allows step) (hnext : m.next step = .ok m')
    {level : Nat} {set : QueueSet}
    (hplace : m.machine.scheduler.queues.location slot = some (level, set)) :
    (m'.machine.scheduler.queues.link slot).home = (m.machine.scheduler.queues.link slot).home ∧
      Shifts m.activities step m'.machine.scheduler slot level set := by
  obtain ⟨effects, hadvances⟩ := h.advances hv hallows hnext
  rw [hadvances.scheduler_eq]
  exact hadvances.takes.shifts hv h.scheduler hadvances.allowed hplace

theorem Descends.level_le {slot : Fin cfg.maxProcs} {a b : Moment cfg} {steps : List Step}
    (h : Descends slot a steps b) (hv : cfg.IsValid) (ha : a.Sound) {level : Nat} {set : QueueSet}
    (hplace : a.machine.scheduler.queues.location slot = some (level, set)) :
    (b.machine.scheduler.queues.link slot).home = (a.machine.scheduler.queues.link slot).home ∧
      ∃ lower after, level ≤ lower ∧
        b.machine.scheduler.queues.location slot = some (lower, after) := by
  induction h with
  | refl => exact ⟨rfl, level, set, Nat.le_refl _, hplace⟩
  | tail hbefore hallows hnext hlinked hexpires ih =>
    obtain ⟨hhome, lower, after, hlower, hthere⟩ := ih
    obtain ⟨hsame, hshifts⟩ := (ha.path hv hbefore.path).shifts hv hallows hnext hthere
    refine ⟨hsame.trans hhome, ?_⟩
    cases hshifts with
    | leaves gone =>
      rw [Queues.isLinked_eq_isSome_location, gone] at hlinked
      cases hlinked
    | keeps quiet place => exact ⟨lower, _, hlower, place⟩
    | stays other place => exact ⟨lower, _, hlower, place⟩
    | sinks yields moved sunk =>
      obtain ⟨below, hbelow, hplace⟩ | hexpired := sunk
      · exact ⟨below, _, Nat.le_trans hlower hbelow, hplace⟩
      · refine absurd ⟨yields, moved.imp_right ?_, _, hexpired⟩ hexpires
        rintro rfl
        exact ⟨lower, hthere⟩

/-- A process that a yield puts into the expired set comes to its home level there. -/
theorem Moment.Sound.location_of_expires {m m' : Moment cfg} {step : Step}
    {slot : Fin cfg.maxProcs} (h : m.Sound) (hv : cfg.IsValid) (hallows : m.Allows step)
    (hnext : m.next step = .ok m') {level : Nat} {set : QueueSet}
    (hplace : m.machine.scheduler.queues.location slot = some (level, set))
    (hexpires : m.Expires slot step m') :
    (m'.machine.scheduler.queues.link slot).home = (m.machine.scheduler.queues.link slot).home ∧
      m'.machine.scheduler.queues.location slot
        = some ((m.machine.scheduler.queues.link slot).home, .expired) := by
  obtain ⟨hyields, hmoved, expiredLevel, hexpired⟩ := hexpires
  obtain ⟨hhome, hshifts⟩ := h.shifts hv hallows hnext hplace
  refine ⟨hhome, ?_⟩
  cases hshifts with
  | leaves gone => cases gone.symm.trans hexpired
  | keeps quiet place => cases quiet.symm.trans hyields
  | stays other place =>
    obtain hown | ⟨l, hactive⟩ := hmoved
    · exact absurd hown other
    · -- the process would have stayed in the active set
      cases hplace.symm.trans hactive
      cases place.symm.trans hexpired
  | sinks yields moved sunk =>
    obtain ⟨lower, -, hactive⟩ | hhere := sunk
    · cases hactive.symm.trans hexpired
    · exact hhome ▸ hhere

/-- At every moment of every run no process is queued above its home level, and neither a budget nor
the ticks of a queue exceed what they are filled with.  From there on a process that stays in the
queues never goes up, unless a yield puts it into the expired set; then it comes to its home
level. -/
theorem Reachable.levels_and_budgets_bounded (hv : cfg.IsValid) {a : Moment cfg}
    (ha : Reachable a) :
    let s := a.machine.scheduler
    (∀ slot level set, s.queues.location slot = some (level, set) →
      (s.queues.link slot).home ≤ level ∧ level < cfg.levels) ∧
    (∀ slot, (s.table.record slot).quantum ≤ cfg.procQuantum) ∧
    (∀ level < cfg.levels, ∀ set, ∃ ticks,
      s.queues.quantum level set = .ok ticks ∧ ticks ≤ cfg.levelQuantum) ∧
    ∀ slot level set, s.queues.location slot = some (level, set) →
      (∀ steps b, Descends slot a steps b →
        (b.machine.scheduler.queues.link slot).home = (s.queues.link slot).home ∧
        ∃ lower after, level ≤ lower ∧
          b.machine.scheduler.queues.location slot = some (lower, after)) ∧
      ∀ step b, a.Allows step → a.next step = .ok b → a.Expires slot step b →
        (b.machine.scheduler.queues.link slot).home = (s.queues.link slot).home ∧
        b.machine.scheduler.queues.location slot = some ((s.queues.link slot).home, .expired) := by
  have hsound := ha.sound hv
  have hqueues := hsound.scheduler.queues
  obtain ⟨steps, hpath⟩ := ha
  have hbounded := hpath.bounded hv (Moment.sound_fresh hv) (Scheduler.bounded_fresh hv)
  refine ⟨fun slot level set hplace => ?_, hbounded.budget_le, fun level hl set => ?_,
    fun slot level set hplace => ⟨fun steps b hdescends => ?_, ?_⟩⟩
  · exact ⟨hbounded.queues.home_le slot level set hplace, hqueues.level_lt hplace⟩
  · have hlane := a.machine.scheduler.queues.lane?_of_lt set hl
    have hticks := Queues.quantum_eq_of_lane? _ level set _ hlane
    exact ⟨_, hticks, hbounded.queues.ticks_le level set _ hticks⟩
  · exact hdescends.level_le hv hsound hplace
  · exact fun step b hallows hnext hexpires =>
      hsound.location_of_expires hv hallows hnext hplace hexpires

/-- A run in which a process uses up both levels. -/
def sinkTwice : List Step :=
  [.act (.fork "worker" none none), .begin 0, .act (.tick 0 1), .finish 0 .yield, .begin 0,
    .act (.tick 0 1)]

/-- The process has sunk to the lower level, and then it expires and comes home. -/
theorem sinkTwice_comes_home : ∃ a ∈ (Moment.fresh .paired).walk? sinkTwice,
    a.machine.scheduler.queues.location Config.firstSlot = some (1, .active) ∧
      (a.machine.scheduler.table.record Config.firstSlot).quantum ≤ Config.paired.procQuantum ∧
      ∃ b ∈ (a.next (.finish 0 .yield)).toOption,
        b.machine.scheduler.queues.location Config.firstSlot = some (0, .expired) := by
  have hrun : ∃ a ∈ (Moment.fresh .paired).walk? sinkTwice,
      a.machine.scheduler.queues.location Config.firstSlot = some (1, .active) ∧
      (a.machine.scheduler.queues.link Config.firstSlot).home = 0 ∧
      a.Allows (.finish 0 .yield) ∧ a.activities[0]? = some (.turn 0 Config.firstSlot) ∧
      ∃ b ∈ (a.next (.finish 0 .yield)).toOption,
        (b.machine.scheduler.queues.location Config.firstSlot).map Prod.snd = some .expired := by
    decide +kernel
  obtain ⟨a, hwalk, hplace, hhome, hallows, hturn, b, hb, hexpired⟩ := hrun
  obtain ⟨⟨level, set⟩, hexpired, rfl⟩ := Option.map_eq_some_iff.mp hexpired
  obtain ⟨-, hbudget, -, hlevels⟩ :=
    Reachable.levels_and_budgets_bounded (by decide) ⟨_, path_of_walk? hwalk⟩
  have hyields : a.Expires Config.firstSlot (.finish 0 .yield) b :=
    ⟨rfl, .inl ⟨0, 0, rfl, hturn⟩, level, hexpired⟩
  obtain ⟨-, hcomes⟩ := (hlevels _ _ _ hplace).2 _ b hallows (next_of_mem_toOption hb) hyields
  exact ⟨a, hwalk, hplace, hbudget _, b, hb, hhome ▸ hcomes⟩

end FeedbackQueue
