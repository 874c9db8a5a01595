import FeedbackQueue.Proofs.Kernel.Order
import FeedbackQueue.Proofs.Scenario.Selection

/-!
# No overtaking within a level

A process that has been dispatched from a queue while another one waited there is not dispatched
from that queue again before the one that waits.  Whatever it does in between, it is queued again at
the tail; and as long as somebody waits in the active set the sets are not exchanged.

This holds of runs in which no other step falls into the window of a wakeup or kill.  A process in
its window is where it went to sleep, which may be in front.

* `WaitsAlong` — runs on which a process waits in the same queue all the time;
* `Ordered` — the invariant of such a run, which every step keeps (`Takes.ordered`);
* `Reachable.not_overtaken` — the result.
-/

namespace FeedbackQueue

open Kernel

variable {cfg : Config} {level : Nat} {first second : Fin cfg.maxProcs}

namespace Moment

/-- No wakeup or kill is in a window. -/
def IsClosed (m : Moment cfg) : Prop :=
  ∀ activity ∈ m.activities, activity.isTurn = true

/-- A CPU takes a process from the active queue of a level. -/
def Dispatches (m : Moment cfg) (slot : Fin cfg.maxProcs) (level : Nat) (m' : Moment cfg) : Prop :=
  ∃ cpu, m.Allows (.begin cpu) ∧ m.next (.begin cpu) = .ok m' ∧ .turn cpu slot ∈ m'.activities ∧
    m'.machine.scheduler.queues.location slot = some (level, .active)

instance (m : Moment cfg) : Decidable m.IsClosed :=
  inferInstanceAs (Decidable (∀ activity ∈ m.activities, activity.isTurn = true))

end Moment

instance (s : Scheduler cfg) (slot : Fin cfg.maxProcs) : Decidable (s.Waits slot level) :=
  inferInstanceAs (Decidable (_ ∧ _))

/-- Whether a step goes on with a wakeup or kill that is in its window. -/
def Step.isResume : Step → Bool
  | .resume _ => true
  | _ => false

/-- While a wakeup or kill is in its window, nothing but that is gone on with. -/
def Moment.Attends (m : Moment cfg) (step : Step) : Prop :=
  m.IsClosed ∨ step.isResume = true

instance (m : Moment cfg) (step : Step) : Decidable (m.Attends step) :=
  inferInstanceAs (Decidable (_ ∨ _))

/-- The steps of a run on which a process waits in the active queue of a level all the time, and
nothing falls into a window. -/
inductive WaitsAlong (slot : Fin cfg.maxProcs) (level : Nat) :
    Moment cfg → List Step → Moment cfg → Prop
  | nil {m : Moment cfg} (waits : m.machine.scheduler.Waits slot level) :
    WaitsAlong slot level m [] m
  | cons {a b c : Moment cfg} {step : Step} {steps : List Step}
    (waits : a.machine.scheduler.Waits slot level) (attends : a.Attends step) :
    a.Allows step → a.next step = .ok b → WaitsAlong slot level b steps c →
      WaitsAlong slot level a (step :: steps) c

namespace WaitsAlong

variable {slot : Fin cfg.maxProcs} {a b : Moment cfg} {steps : List Step}

theorem waits (h : WaitsAlong slot level a steps b) : a.machine.scheduler.Waits slot level := by
  cases h <;> assumption

theorem path (h : WaitsAlong slot level a steps b) : Path a steps b := by
  induction h with
  | nil => exact .refl _
  | cons _ _ hallows hnext _ ih => exact ((Path.refl _).tail hallows hnext).trans ih

end WaitsAlong

/-- Carries out steps one after another, as long as the process waits and nothing falls into a
window. -/
def Moment.waitAlong? (slot : Fin cfg.maxProcs) (level : Nat) (m : Moment cfg) :
    List Step → Option (Moment cfg)
  | [] => if m.machine.scheduler.Waits slot level then some m else none
  | step :: rest =>
    if m.machine.scheduler.Waits slot level ∧ m.Attends step ∧ m.Allows step then
      (m.next step).toOption.bind fun m => m.waitAlong? slot level rest
    else none

theorem waitsAlong_of_waitAlong? {slot : Fin cfg.maxProcs} {a b : Moment cfg} {steps : List Step}
    (h : a.waitAlong? slot level steps = some b) : WaitsAlong slot level a steps b := by
  induction steps generalizing a with
  | nil =>
    rw [Moment.waitAlong?, Option.ite_none_right_eq_some] at h
    obtain ⟨hwaits, ⟨⟩⟩ := h
    exact .nil hwaits
  | cons step rest ih =>
    rw [Moment.waitAlong?, Option.ite_none_right_eq_some, Option.bind_eq_some_iff] at h
    obtain ⟨⟨hwaits, hattends, hallows⟩, m, hnext, hrest⟩ := h
    exact .cons hwaits hattends hallows (next_of_mem_toOption hnext) (ih hrest)

/-! ## The order while somebody waits -/

/-- One process waits, and not in a window; the other one comes after it. -/
structure Ordered (s : Scheduler cfg) (opened : List (Activity cfg)) (level : Nat)
    (first second : Fin cfg.maxProcs) : Prop where
  waits : s.Waits first level
  settled : ∀ activity ∈ opened, ∀ pid, activity.isWindowOf first pid = false
  comes_after : s.ComesAfter opened level first second

variable {s : Scheduler cfg} {opened opened' : List (Activity cfg)} {effects : List (Effect cfg)}

theorem Ordered.follows_of_closed (h : Ordered s opened level first second)
    (hclosed : ∀ activity ∈ opened, activity.isTurn = true) : s.Follows level first second := by
  refine h.comes_after.resolve_right ?_
  rintro ⟨activity, hmem, hwindow⟩
  have hnot := Activity.isWindowOf_of_isTurn (hclosed activity hmem) second
  exact Bool.false_ne_true ((hnot _).symm.trans hwindow)

theorem Ordered.perm (h : Ordered s opened level first second) (hperm : opened.Perm opened') :
    Ordered s opened' level first second :=
  ⟨h.waits, fun activity hmem => h.settled activity (hperm.mem_iff.mpr hmem),
    h.comes_after.mono hperm.subset⟩

/-- The sets are not exchanged while somebody waits in the active set. -/
theorem Kernel.Picks.effects_eq_nil {cpu : Fin cfg.ncpu} {found : Option (Fin cfg.maxProcs)}
    (h : Picks s cpu found effects) (hs : s.Sound) (hwaits : s.Waits first level) :
    effects = [] := by
  obtain ⟨hrunnable, hplace⟩ := hwaits
  obtain ⟨hlevel, hmem⟩ := (hs.queues.location_eq_some_iff ..).mp hplace
  obtain ⟨rfl, -⟩ := h.searches (hs.queued_of_location hplace).1
  refine if_neg fun hstarved => ?_
  have hnone := find?_schedulable_eq_none_iff.mp hstarved.2
  exact hnone first (mem_activeMembers.mpr ⟨level, hlevel, hmem⟩) hrunnable

theorem Performs.keepsOrder {action : Action} {reply : Reply cfg.maxProcs}
    (h : Performs s action reply effects) (hs : s.Sound) (hwaits : s.Waits first level) :
    ∀ effect ∈ effects, effect.keepsOrder first second = true := by
  cases h with
  | pick picks => simp [picks.effects_eq_nil hs hwaits]
  | tick charges =>
    intro effect hmem
    have hcharge := charges.isCharge effect hmem
    cases effect <;> first | rfl | cases hcharge
  | _ => simp [Effect.keepsOrder]

theorem Kernel.Begins.keepsOrder {cpu : Fin cfg.ncpu} {picked : Option (Fin cfg.maxProcs)}
    (h : Begins s cpu picked effects) (hs : s.Sound) (hwaits : s.Waits first level)
    (hpicked : picked ≠ some first) :
    ∀ effect ∈ effects, effect.keepsOrder first second = true := by
  cases h with
  | idle picks => simp [picks.effects_eq_nil hs hwaits, Effect.keepsOrder]
  | @dispatch slot before after picks report =>
    have hne : slot ≠ first := fun heq => hpicked (congrArg some heq)
    obtain rfl | ⟨window, rfl⟩ := report <;>
      simp [picks.effects_eq_nil hs hwaits, Effect.keepsOrder, hne]

/-- A process that is dispatched does not wait. -/
theorem Kernel.Begins.not_waits {cpu : Fin cfg.ncpu} (h : Begins s cpu (some first) effects)
    (hs : s.Sound) (hwaits : s.Waits first level) :
    ¬(Effect.applyAll s effects).Waits first level := by
  rintro ⟨hrunnable, -⟩
  cases h with
  | dispatch picks report =>
    obtain rfl := picks.effects_eq_nil hs hwaits
    obtain rfl | ⟨window, rfl⟩ := report <;>
      simp [Effect.applyAll, Effect.apply] at hrunnable

variable {windows : List (Activity cfg)}

theorem Kernel.Wakes.ordered (h : Wakes s windows effects) (hs : s.Sound)
    (ho : Ordered s opened level first second) (hfollows : s.Follows level first second)
    (ha : Effect.AllowedAll s effects) (hwaits : (Effect.applyAll s effects).Waits first level) :
    Ordered (Effect.applyAll s effects) (windows ++ opened) level first second := by
  obtain ⟨hsettled, hafter⟩ := h.follows hs ho.waits ha
  exact ⟨hwaits, List.forall_mem_append.mpr ⟨hsettled, ho.settled⟩,
    (hafter hfollows).mono (List.subset_append_left windows opened)⟩

theorem Kernel.Leaves.ordered {activity : Activity cfg} {rest : List (Activity cfg)}
    (h : Leaves s activity windows effects) (hs : s.Sound)
    (ho : Ordered s (activity :: rest) level first second) (ha : Effect.AllowedAll s effects)
    (hwaits : (Effect.applyAll s effects).Waits first level) :
    Ordered (Effect.applyAll s effects) (windows ++ rest) level first second := by
  obtain ⟨hhere, hrest⟩ := List.forall_mem_cons.mp ho.settled
  obtain ⟨hsettled, hafter⟩ := h.follows hs ho.waits hhere ha
  refine ⟨hwaits, List.forall_mem_append.mpr ⟨hsettled, hrest⟩, ?_⟩
  by_cases hstays : ∃ other ∈ rest, other.isWindowOf second (s.table.record second).pid = true
  · obtain ⟨other, hmem, hwindow⟩ := hstays
    refine .inr ⟨other, List.mem_append_right windows hmem, ?_⟩
    rw [h.pid_eq]
    exact hwindow
  · -- a window of the process, if there is one, is the one that is left
    refine (hafter (ho.comes_after.imp_right ?_)).mono (List.subset_append_left windows rest)
    rintro ⟨other, hmem, hwindow⟩
    obtain rfl | hmem := List.mem_cons.mp hmem
    · exact ⟨other, List.mem_singleton_self other, hwindow⟩
    · exact absurd ⟨other, hmem, hwindow⟩ hstays

/-- Every step keeps the order, as long as nothing else falls into a window. -/
theorem Takes.ordered {step : Step} (h : Takes s opened step effects opened')
    (ho : Ordered s opened level first second) (hs : s.Sound) (hf : Fits s opened)
    (ha : Effect.AllowedAll s effects)
    (hattends : (∀ activity ∈ opened, activity.isTurn = true) ∨ step.isResume = true)
    (hwaits : (Effect.applyAll s effects).Waits first level) :
    Ordered (Effect.applyAll s effects) opened' level first second := by
  have hfollows : ¬step.isResume = true → s.Follows level first second := fun hstep =>
    ho.follows_of_closed (hattends.resolve_right hstep)
  have hkept : ¬step.isResume = true →
      (∀ effect ∈ effects, effect.keepsOrder first second = true) →
      (Effect.applyAll s effects).Follows level first second := fun hstep hkeeps =>
    (Effect.follows_applyAll hs ho.waits ha hkeeps).2 (hfollows hstep)
  cases h with
  | act performs =>
    exact ⟨hwaits, ho.settled, .inl (hkept Bool.false_ne_true (performs.keepsOrder hs ho.waits))⟩
  | @begin cpu picked effects begins =>
    have hpicked : picked ≠ some first := by
      rintro rfl
      exact begins.not_waits hs ho.waits hwaits
    refine ⟨hwaits, List.forall_mem_append.mpr ⟨?_, ho.settled⟩, .inl ?_⟩
    · cases picked <;> simp [Activity.isWindowOf]
    · exact hkept Bool.false_ne_true (begins.keepsOrder hs ho.waits hpicked)
  | @finish index ending cpu slot effects ends here =>
    have hcurrent := ((hf.turn_iff cpu slot).mp (List.mem_of_getElem? here)).2
    have hafter := ends.follows hs ho.waits hwaits.2 (hfollows Bool.false_ne_true) hcurrent ha
    exact ⟨hwaits, fun activity hmem => ho.settled activity (List.mem_of_mem_eraseIdx hmem),
      .inl hafter⟩
  | wakeup wakes => exact wakes.ordered hs ho (hfollows Bool.false_ne_true) ha hwaits
  | kill wakes => exact wakes.ordered hs ho (hfollows Bool.false_ne_true) ha hwaits
  | resume here isWindow leaves =>
    obtain ⟨hlt, rfl⟩ := List.getElem?_eq_some_iff.mp here
    exact leaves.ordered hs (ho.perm (List.getElem_cons_eraseIdx_perm hlt).symm) ha hwaits

/-! ## Runs -/

/-- A process that waits all the time stays in front. -/
theorem WaitsAlong.ordered {a b : Moment cfg} {steps : List Step}
    (h : WaitsAlong first level a steps b) (hv : cfg.IsValid) (ha : a.Sound)
    (ho : Ordered a.machine.scheduler a.activities level first second) :
    Ordered b.machine.scheduler b.activities level first second := by
  induction h with
  | nil => exact ho
  | cons _ hattends hallows hnext hrest ih =>
    obtain ⟨effects, hadvances⟩ := ha.advances hv hallows hnext
    refine ih (hadvances.sound ha hallows) ?_
    have hwaits := hrest.waits
    rw [hadvances.scheduler_eq] at hwaits ⊢
    exact hadvances.takes.ordered ho ha.scheduler ha.fits hadvances.allowed hattends hwaits

namespace Moment

variable {m m' : Moment cfg} {slot : Fin cfg.maxProcs}

/-- A dispatch is the start of a round that picks the process. -/
theorem Sound.begins (h : m.Sound) (hv : cfg.IsValid) (hdispatches : m.Dispatches slot level m') :
    ∃ cpu effects, Begins m.machine.scheduler cpu (some slot) effects ∧
      m'.machine.scheduler = Effect.applyAll m.machine.scheduler effects ∧
      m'.activities = .turn cpu slot :: m.activities ∧
      m'.machine.scheduler.queues.location slot = some (level, .active) := by
  obtain ⟨cpu, hallows, hnext, hturn, hplace⟩ := hdispatches
  obtain ⟨effects, takes, allowed, hscheduler, -⟩ := h.advances hv hallows hnext
  generalize hopened : m'.activities = opened at takes hturn
  cases takes with
  | @begin cpu picked effects begins =>
    obtain hpicked | hopen := List.mem_append.mp hturn
    · obtain rfl : picked = some slot := by simpa using hpicked
      exact ⟨cpu, effects, begins, hscheduler, rfl, hplace⟩
    · exact absurd ⟨slot, hopen⟩ hallows.2

/-- When a process has been dispatched while another one waits, it comes after that. -/
theorem Sound.ordered (h : m.Sound) (hv : cfg.IsValid) (hclosed : m.IsClosed)
    (hdispatches : m.Dispatches second level m') (hwaits : m'.machine.scheduler.Waits first level) :
    Ordered m'.machine.scheduler m'.activities level first second := by
  obtain ⟨cpu, effects, begins, hscheduler, hopened, -⟩ := h.begins hv hdispatches
  refine ⟨hwaits, fun activity hmem pid => ?_, .inl fun hrunnable => ?_⟩
  · rw [hopened] at hmem
    obtain rfl | hmem := List.mem_cons.mp hmem
    · rfl
    · exact Activity.isWindowOf_of_isTurn (hclosed activity hmem) first pid
  · -- it runs
    rw [hscheduler] at hrunnable
    cases begins with
    | dispatch picks report =>
      obtain rfl | ⟨window, rfl⟩ := report <;>
        simp [Effect.applyAll, Effect.apply] at hrunnable

/-- A process that comes after another one that waits is not dispatched. -/
theorem Sound.not_dispatches (h : m.Sound) (hv : cfg.IsValid) (hclosed : m.IsClosed)
    (ho : Ordered m.machine.scheduler m.activities level first second) :
    ¬m.Dispatches second level m' := by
  intro hdispatches
  have hs := h.scheduler
  obtain ⟨cpu, effects, begins, hscheduler, -, hplace⟩ := h.begins hv hdispatches
  cases begins with
  | dispatch picks report =>
    obtain rfl := picks.effects_eq_nil hs ho.waits
    have hqueues : m'.machine.scheduler.queues = m.machine.scheduler.queues := by
      rw [hscheduler]
      obtain rfl | ⟨window, rfl⟩ := report <;> rfl
    have huse := (hs.queued_of_location ho.waits.2).1
    obtain ⟨found, ⟨front, back, hmembers, hrunnable, hfront⟩, -⟩ :=
      isHeadmost_of_find? (picks.searches huse).2.symm
    rw [hqueues] at hplace
    -- the queue in which it has been found is that in which it is
    have hmem : second ∈ m.machine.scheduler.queues.members found .active :=
      hmembers ▸ List.mem_append_right front List.mem_cons_self
    have hfound := (hs.queues.location_eq_some_iff second found .active).mpr
      ⟨Queues.lt_of_mem_members hmem, hmem⟩
    cases hfound.symm.trans hplace
    have htrails := ho.follows_of_closed hclosed hrunnable hplace
    have hnodup := hs.queues.spells.nodup level (hs.queues.level_lt hplace) .active
    rw [Queues.sequences, hmembers] at hnodup
    rw [hmembers] at htrails
    exact hfront first (Queues.mem_front_of_sublist htrails hnodup) ho.waits.1

end Moment

/-- From any moment of any run on, a process that is dispatched while another one waits in the same
active queue is not dispatched from there again as long as that waits, unless something falls into
the window of a wakeup or kill. -/
theorem Reachable.not_overtaken (hv : cfg.IsValid) {a b c : Moment cfg} (ha : Reachable a)
    (hclosed : a.IsClosed) (hdispatches : a.Dispatches second level b) {steps : List Step}
    (hwaits : WaitsAlong first level b steps c) (hclosed' : c.IsClosed) (d : Moment cfg) :
    ¬c.Dispatches second level d := by
  have hsound := ha.sound hv
  have hb : b.Sound := by
    obtain ⟨cpu, hallows, hnext, -⟩ := hdispatches
    obtain ⟨effects, hadvances⟩ := hsound.advances hv hallows hnext
    exact hadvances.sound hsound hallows
  have hstart := hsound.ordered hv hclosed hdispatches hwaits.waits
  exact (hb.path hv hwaits.path).not_dispatches hv hclosed' (hwaits.ordered hv hb hstart)

/-- Two processes in one queue. -/
def twoInLine : List Step :=
  [.act (.fork "first" none none), .act (.fork "second" none none)]

/-- The process that was in front goes to sleep and is woken, and then it comes after the other. -/
theorem twoInLine_takes_turns : ∃ a ∈ (Moment.fresh .paired).walk? twoInLine,
    ∃ b ∈ (a.next (.begin 0)).toOption, a.Dispatches Config.firstSlot 0 b ∧
      ∃ c ∈ b.waitAlong? Config.secondSlot 0 [.finish 0 (.sleep 7), .wakeup 7, .resume 0],
        c.machine.scheduler.Waits Config.firstSlot 0 ∧ ∀ d, ¬c.Dispatches Config.firstSlot 0 d := by
  have hrun : ∃ a ∈ (Moment.fresh .paired).walk? twoInLine, a.IsClosed ∧ a.Allows (.begin 0) ∧
      ∃ b ∈ (a.next (.begin 0)).toOption, .turn 0 Config.firstSlot ∈ b.activities ∧
        b.machine.scheduler.queues.location Config.firstSlot = some (0, .active) ∧
        ∃ c ∈ b.waitAlong? Config.secondSlot 0 [.finish 0 (.sleep 7), .wakeup 7, .resume 0],
          c.IsClosed ∧ c.machine.scheduler.Waits Config.firstSlot 0 := by
    decide +kernel
  obtain ⟨a, hwalk, hclosed, hallows, b, hb, hturn, hplace, c, hc, hclosed', hbehind⟩ := hrun
  have hdispatches : a.Dispatches Config.firstSlot 0 b :=
    ⟨0, hallows, next_of_mem_toOption hb, hturn, hplace⟩
  exact ⟨a, hwalk, b, hb, hdispatches, c, hc, hbehind, Reachable.not_overtaken (by decide)
    ⟨_, path_of_walk? hwalk⟩ hclosed hdispatches (waitsAlong_of_waitAlong? hc) hclosed'⟩

end FeedbackQueue
