import FeedbackQueue.Proofs.Kernel.Sound
import Mathlib.Algebra.BigOperators.Group.Finset.Piecewise
import Mathlib.Algebra.GroupWithZero.Nat

/-!
# What effects add up to

A *transition* takes one process from one state to another.  Most transitions are counted, and an
effect makes at most one of them or counts at most one occurrence.

* `Effect.population_applyAll` — how many processes are in some states changes by the transitions
  into them and out of them;
* `Effect.stats_applyAll`, `Statistics.foldl_record` — every counter changes by its occurrences.

Both sides are plain numbers of list entries, so that populations and counters can be compared by
comparing lists of effects.
-/

namespace FeedbackQueue

/-! ## Transitions -/

/-- A change of the state of a process. -/
inductive Transition
  | create
  | activate
  | dispatch
  | yield
  | sleep
  | wake
  | exit
  | reap
  deriving DecidableEq

namespace Transition

/-- The state that the process leaves. -/
def before : Transition → ProcState
  | create => .unused
  | activate => .used
  | dispatch => .runnable
  | yield | sleep | exit => .running
  | wake => .sleeping
  | reap => .zombie

/-- The state that the process enters. -/
def after : Transition → ProcState
  | create => .used
  | activate | yield | wake => .runnable
  | dispatch => .running
  | sleep => .sleeping
  | exit => .zombie
  | reap => .unused

end Transition

/-! ## Counters -/

/-- Whether an occurrence is the drain of a level. -/
def Occurrence.isCascade : Occurrence → Bool
  | cascade _ => true
  | _ => false

/-- Whether an occurrence is one of feedback alone. -/
def Occurrence.isFeedback : Occurrence → Bool
  | swap | demotion | expiration | cascade _ => true
  | _ => false

/-- The processes that an occurrence moved in a drain. -/
def Occurrence.cascaded : Occurrence → Nat
  | cascade moved => moved
  | _ => 0

/-- Every counter grows by the number of its occurrences. -/
theorem Statistics.foldl_record (occurrences : List Occurrence) (stats : Statistics) :
    occurrences.foldl Statistics.record stats =
      { picks := stats.picks + .ofNat (occurrences.count .pick)
        idle := stats.idle + .ofNat (occurrences.count .idle)
        swaps := stats.swaps + .ofNat (occurrences.count .swap)
        yields := stats.yields + .ofNat (occurrences.count .yield)
        demotions := stats.demotions + .ofNat (occurrences.count .demotion)
        expirations := stats.expirations + .ofNat (occurrences.count .expiration)
        cascades := stats.cascades + .ofNat (occurrences.countP Occurrence.isCascade)
        cascaded := stats.cascaded + .ofNat (occurrences.map Occurrence.cascaded).sum
        wakeups := stats.wakeups + .ofNat (occurrences.count .wakeup)
        kills := stats.kills + .ofNat (occurrences.count .kill)
        forks := stats.forks + .ofNat (occurrences.count .fork)
        exits := stats.exits + .ofNat (occurrences.count .exit) } := by
  induction occurrences generalizing stats with
  | nil => simp
  | cons occurrence rest ih =>
    rw [List.foldl_cons, ih]
    cases occurrence <;>
      simp [Statistics.record, Occurrence.isCascade, Occurrence.cascaded, UInt64.ofNat_add,
        List.countP_cons, UInt64.add_assoc, UInt64.add_comm]

namespace Effect

variable {cfg : Config} {s : Scheduler cfg} {effects : List (Effect cfg)}

/-- What a change counts. -/
def occurrence? : Effect cfg → Option Occurrence
  | swap _ => some .swap
  | count occurrence => some occurrence
  | _ => none

/-- What some changes count. -/
def occurrences (effects : List (Effect cfg)) : List Occurrence :=
  effects.filterMap occurrence?

theorem occurrences_append (first second : List (Effect cfg)) :
    occurrences (first ++ second) = occurrences first ++ occurrences second :=
  List.filterMap_append

theorem stats_apply (effect : Effect cfg) :
    (effect.apply s).stats = effect.occurrence?.elim s.stats s.stats.record := by
  cases effect <;> rfl

theorem stats_applyAll (s : Scheduler cfg) (effects : List (Effect cfg)) :
    (applyAll s effects).stats = (occurrences effects).foldl Statistics.record s.stats := by
  induction effects generalizing s with
  | nil => rfl
  | cons effect rest ih =>
    refine (ih (effect.apply s)).trans ?_
    rw [stats_apply, occurrences, occurrences, List.filterMap_cons]
    cases effect.occurrence? <;> rfl

/-! ## Transitions of effects -/

/-- The process whose state a change touches, and how it touches it. -/
def transition? : Effect cfg → Option (Fin cfg.maxProcs × Transition)
  | create slot .. => some (slot, .create)
  | activate slot => some (slot, .activate)
  | reap slot => some (slot, .reap)
  | wake slot => some (slot, .wake)
  | dispatch _ slot => some (slot, .dispatch)
  | stop _ slot .yield => some (slot, .yield)
  | stop _ slot (.sleep _) => some (slot, .sleep)
  | stop _ slot (.exit _) => some (slot, .exit)
  | _ => none

/-- The transitions that some changes make. -/
def transitions (effects : List (Effect cfg)) : List Transition :=
  effects.filterMap fun effect => effect.transition?.map Prod.snd

theorem transitions_append (first second : List (Effect cfg)) :
    transitions (first ++ second) = transitions first ++ transitions second :=
  List.filterMap_append

/-- An edit of a record that sets its state. -/
theorem state_adjust (slot : Fin cfg.maxProcs) {f : Record → Record} {state : ProcState}
    (h : ∀ r, (f r).state = state) (y : Fin cfg.maxProcs) :
    ((s.table.adjust slot f).record y).state
      = if y = slot then state else (s.table.record y).state := by
  rw [Table.record_adjust, apply_ite Record.state, h]

/-- A transition starts from the state that it leaves and touches the state of one process. -/
theorem state_apply_of_transition (hs : s.Sound) {effect : Effect cfg} (ha : effect.Allowed s)
    {slot : Fin cfg.maxProcs} {transition : Transition}
    (h : effect.transition? = some (slot, transition)) :
    (s.table.record slot).state = transition.before ∧
      ∀ y, ((effect.apply s).table.record y).state
        = if y = slot then transition.after else (s.table.record y).state := by
  cases effect with
  | create x name parent home =>
    cases h
    refine ⟨ha.1, fun y => ?_⟩
    simp only [apply, Table.record_adjust, Table.record_claim]
    split <;> rfl
  | activate x =>
    cases h
    exact ⟨ha, state_adjust slot fun _ => rfl⟩
  | reap x =>
    cases h
    exact ⟨ha, state_adjust slot fun _ => rfl⟩
  | wake x =>
    cases h
    exact ⟨ha, state_adjust slot fun _ => rfl⟩
  | dispatch cpu x =>
    cases h
    exact ⟨ha.1, state_adjust slot fun _ => rfl⟩
  | stop cpu x ending =>
    have hrunning : (s.table.record x).state = .running := (hs.running x).mpr ⟨cpu, ha⟩
    cases ending <;> cases h <;> exact ⟨hrunning, state_adjust slot fun _ => rfl⟩
  | _ => cases h

/-- Any other change touches no state. -/
theorem state_apply_of_none {effect : Effect cfg} (h : effect.transition? = none)
    (y : Fin cfg.maxProcs) :
    ((effect.apply s).table.record y).state = (s.table.record y).state := by
  cases effect with
  | mark slot => exact s.table.field_adjust slot y Record.state fun _ => rfl
  | charge slot => exact s.table.field_adjust slot y Record.state fun _ => rfl
  | refill slot => exact s.table.field_adjust slot y Record.state fun _ => rfl
  | stop cpu slot ending => cases ending <;> cases h
  | aim | swap | cascade | requeue | rejoin | setTicks | count | setWindow => rfl
  | _ => cases h

end Effect

/-! ## Populations -/

/-- How many slots are in one of some states. -/
def Scheduler.population {cfg : Config} (s : Scheduler cfg) (states : ProcState → Bool) : Nat :=
  (Finset.univ.filter fun slot => states (s.table.record slot).state).card

/-- Sums over all slots that differ in one entry alone. -/
theorem sum_add_eq_of_agree {n : Nat} {f g : Fin n → Nat} (slot : Fin n)
    (h : ∀ y ≠ slot, f y = g y) : ∑ y, f y + g slot = ∑ y, g y + f slot := by
  have hrest : ∑ y ∈ Finset.univ.erase slot, f y = ∑ y ∈ Finset.univ.erase slot, g y :=
    Finset.sum_congr rfl fun y hy => h y (Finset.ne_of_mem_erase hy)
  rw [← Finset.add_sum_erase _ f (Finset.mem_univ slot),
    ← Finset.add_sum_erase _ g (Finset.mem_univ slot), hrest]
  omega

namespace Effect

variable {cfg : Config} {s : Scheduler cfg} {effects : List (Effect cfg)}

theorem population_apply (hs : s.Sound) {effect : Effect cfg} (ha : effect.Allowed s)
    (states : ProcState → Bool) :
    (effect.apply s).population states + (transitions [effect]).countP (states ·.before)
      = s.population states + (transitions [effect]).countP (states ·.after) := by
  cases h : effect.transition? with
  | none => simp [transitions, h, Scheduler.population, state_apply_of_none h]
  | some change =>
    obtain ⟨slot, transition⟩ := change
    obtain ⟨hbefore, hstate⟩ := state_apply_of_transition hs ha h
    have hafter : ((effect.apply s).table.record slot).state = transition.after :=
      (hstate slot).trans (if_pos rfl)
    have hsums := sum_add_eq_of_agree
      (f := fun y => if states ((effect.apply s).table.record y).state then 1 else 0)
      (g := fun y => if states (s.table.record y).state then 1 else 0) slot
      fun y hy => by rw [hstate, if_neg hy]
    have hone : transitions [effect] = [transition] := by simp [transitions, h]
    rw [hone, List.countP_singleton, List.countP_singleton, ← hbefore, ← hafter]
    simpa only [Scheduler.population, Finset.card_filter] using hsums

/-- A population grows by the transitions into it and shrinks by those out of it. -/
theorem population_applyAll (hs : s.Sound) (ha : AllowedAll s effects)
    (states : ProcState → Bool) :
    (applyAll s effects).population states + (transitions effects).countP (states ·.before)
      = s.population states + (transitions effects).countP (states ·.after) := by
  induction effects generalizing s with
  | nil => simp [transitions, applyAll]
  | cons effect rest ih =>
    have hfirst := population_apply hs ha.1 states
    have hrest := ih (hs.apply ha.1) ha.2
    rw [← List.singleton_append, transitions_append, List.countP_append, List.countP_append]
    change (applyAll (effect.apply s) rest).population states + _ = _
    omega

end Effect

theorem Scheduler.population_fresh {cfg : Config} {states : ProcState → Bool}
    (h : states .unused = false) : (fresh cfg).population states = 0 := by
  simp [population, fresh, Record.vacant, h]

/-- Each population in terms of the transitions that change it. -/
theorem Transition.flows (made : List Transition) :
    made.countP (·.after = .sleeping) = made.count .sleep ∧
    made.countP (·.before = .sleeping) = made.count .wake ∧
    made.countP (·.after = .runnable)
      = made.count .activate + made.count .yield + made.count .wake ∧
    made.countP (·.before = .runnable) = made.count .dispatch ∧
    made.countP (·.after = .running) = made.count .dispatch ∧
    made.countP (·.before = .running) = made.count .yield + made.count .sleep + made.count .exit ∧
    made.countP (·.after ≠ .unused) + made.count .reap
      = made.countP (·.before ≠ .unused) + made.count .create := by
  induction made with
  | nil => simp
  | cons transition rest ih =>
    cases transition <;> simp [before, after] at ih ⊢ <;> omega

namespace Effect

variable {cfg : Config} {s : Scheduler cfg} {effects : List (Effect cfg)}

/-- What has come into a population and not gone out of it again is there. -/
theorem population_of_fresh (hv : cfg.IsValid) (ha : AllowedAll (.fresh cfg) effects) :
    let s := applyAll (.fresh cfg) effects
    let made := (transitions effects).count
    s.population (· = .sleeping) + made .wake = made .sleep ∧
    s.population (· = .runnable) + made .dispatch
      = made .activate + made .yield + made .wake ∧
    s.population (· = .running) + made .yield + made .sleep + made .exit = made .dispatch ∧
    s.population (· ≠ .unused) + made .reap = made .create := by
  have hgrown : ∀ states : ProcState → Bool, states .unused = false →
      (applyAll (.fresh cfg) effects).population states
          + (transitions effects).countP (states ·.before)
        = (transitions effects).countP (states ·.after) := fun states h => by
    rw [population_applyAll (Scheduler.sound_fresh hv) ha, Scheduler.population_fresh h,
      Nat.zero_add]
  have hsleeping := hgrown (· = .sleeping) rfl
  have hrunnable := hgrown (· = .runnable) rfl
  have hrunning := hgrown (· = .running) rfl
  have hlive := hgrown (· ≠ .unused) rfl
  obtain ⟨h₁, h₂, h₃, h₄, h₅, h₆, h₇⟩ := Transition.flows (transitions effects)
  dsimp only
  omega

/-! ## Changes that are made under feedback alone -/

/-- Whether a change is made under feedback alone. -/
def isFeedback : Effect cfg → Bool
  | swap _ | cascade .. | requeue _ _ .expired => true
  | count occurrence => occurrence.isFeedback
  | _ => false

/-- Without feedback none of this is counted. -/
theorem count_of_not_isFeedback (h : ∀ effect ∈ effects, effect.isFeedback = false) :
    (occurrences effects).count .swap = 0 ∧ (occurrences effects).count .demotion = 0 ∧
      (occurrences effects).count .expiration = 0 ∧
      (occurrences effects).countP Occurrence.isCascade = 0 := by
  have hplain : ∀ occurrence ∈ occurrences effects, occurrence.isFeedback = false := by
    intro occurrence hmem
    obtain ⟨effect, heffect, hoccurrence⟩ := List.mem_filterMap.mp hmem
    have hplain := h effect heffect
    cases effect with
    | swap isLive => cases hplain
    | count counted => exact Option.some.inj hoccurrence ▸ hplain
    | _ => cases hoccurrence
  have hzero : ∀ occurrence : Occurrence, occurrence.isFeedback = true →
      (occurrences effects).count occurrence = 0 := fun occurrence hfeedback =>
    List.count_eq_zero.mpr fun hmem => Bool.false_ne_true ((hplain _ hmem).symm.trans hfeedback)
  refine ⟨hzero _ rfl, hzero _ rfl, hzero _ rfl, List.countP_eq_zero.mpr fun occurrence hmem => ?_⟩
  have hnot := hplain occurrence hmem
  cases occurrence <;> simp_all [Occurrence.isCascade, Occurrence.isFeedback]

/-- Without feedback no process ever gets into the expired set. -/
theorem unexpired_apply (hs : s.Sound)
    (hnone : ∀ slot level, s.queues.location slot ≠ some (level, .expired)) {effect : Effect cfg}
    (ha : effect.Allowed s) (hplain : effect.isFeedback = false) (slot : Fin cfg.maxProcs)
    (level : Nat) : (effect.apply s).queues.location slot ≠ some (level, .expired) := by
  have hq := hs.queues
  have hactive : ∀ {y : Fin cfg.maxProcs} {l : Nat}, l < cfg.levels →
      (s.queues.relink y l .active).location slot ≠ some (level, .expired) := by
    intro y l hl
    rw [hq.location_relink y slot hl]
    split
    · simp
    · exact hnone slot level
  cases effect with
  | create y name parent home =>
    simp only [apply, Queues.Sound.location_detach]
    split
    · simp
    · exact hnone slot level
  | activate y =>
    simp only [apply]
    split
    · exact hactive (hq.home_lt y)
    · exact hnone slot level
  | stop cpu y ending =>
    cases ending with
    | exit status =>
      simp only [apply]
      split
      · rw [Queues.location_remove]
        split
        · simp
        · exact hnone slot level
      · exact hnone slot level
    | _ => exact hnone slot level
  | requeue y l set =>
    cases set with
    | active => exact hactive ha.2.2
    | expired => cases hplain
  | rejoin y pid => exact hactive (hq.levelOrHome_lt y)
  | setTicks l set value =>
    simp only [apply, Queues.Sound.location_setTicks]
    exact hnone slot level
  | swap | cascade => cases hplain
  | _ => exact hnone slot level

theorem unexpired_applyAll (hs : s.Sound)
    (hnone : ∀ slot level, s.queues.location slot ≠ some (level, .expired))
    (ha : AllowedAll s effects) (hplain : ∀ effect ∈ effects, effect.isFeedback = false)
    (slot : Fin cfg.maxProcs) (level : Nat) :
    (applyAll s effects).queues.location slot ≠ some (level, .expired) := by
  have hkept := applyAll_induction
    (P := fun t => t.Sound ∧ ∀ slot level, t.queues.location slot ≠ some (level, .expired))
    ⟨hs, hnone⟩ ha fun effect hmem t hallowed ⟨ht, hbefore⟩ =>
      ⟨ht.apply hallowed, unexpired_apply ht hbefore hallowed (hplain effect hmem)⟩
  exact hkept.2 slot level

end Effect

end FeedbackQueue
