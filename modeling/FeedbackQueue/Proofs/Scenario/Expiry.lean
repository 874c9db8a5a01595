import FeedbackQueue.Proofs.Kernel.Expiry
import FeedbackQueue.Proofs.Scenario.Steps

/-!
# How long an expired process waits

A process that has expired waits for the next exchange of the sets, unless it was woken before it
expired and the window of that wakeup is left in the meantime: leaving the window queues it in the
active set, from which a CPU may be given to it at once.

* `Undisturbed` — runs without an exchange and without leaving a window of the process;
* `Reachable.expired_waits` — on these, and only on these, the process waits.
-/

namespace FeedbackQueue

open Kernel

variable {cfg : Config}

/-! ## Runs on which an expired process waits -/

/-- Whether the sets are exchanged by the step between two moments.  A step exchanges them at most
once, and counts it. -/
def Moment.Swapped (before after : Moment cfg) : Prop :=
  after.machine.scheduler.stats.swaps ≠ before.machine.scheduler.stats.swaps

/-- Whether a step leaves a window of the process that is in a slot. -/
def Moment.LeavesWindowOf (m : Moment cfg) (slot : Fin cfg.maxProcs) (step : Step) : Prop :=
  ∃ index, step = .resume index ∧ ∃ activity ∈ m.activities[index]?,
    activity.isWindowOf slot (m.machine.scheduler.table.record slot).pid

/-- The steps of a run on which the sets are not exchanged and no window of the process in a slot is
left. -/
inductive Undisturbed (slot : Fin cfg.maxProcs) : Moment cfg → List Step → Moment cfg → Prop
  | refl (m : Moment cfg) : Undisturbed slot m [] m
  | tail {a b c : Moment cfg} {steps : List Step} {step : Step} :
    Undisturbed slot a steps b → b.Allows step → b.next step = .ok c → ¬b.Swapped c →
      ¬b.LeavesWindowOf slot step → Undisturbed slot a (steps ++ [step]) c

theorem Undisturbed.path {slot : Fin cfg.maxProcs} {a b : Moment cfg} {steps : List Step}
    (h : Undisturbed slot a steps b) : Path a steps b := by
  induction h with
  | refl => exact .refl _
  | tail _ hallows hnext _ _ ih => exact ih.tail hallows hnext

/-! ## What a step can do to an expired process -/

theorem Kernel.Picks.swapsAtMostOnce {s : Scheduler cfg} {cpu : Fin cfg.ncpu}
    {found : Option (Fin cfg.maxProcs)} {before rest : List (Effect cfg)}
    (h : Picks s cpu found before) (hrest : ∀ effect ∈ rest, effect.isSwap = false) :
    Effect.SwapsAtMostOnce (before ++ rest) := by
  obtain rfl | ⟨isLive, rfl, -⟩ | ⟨cursor, rfl⟩ := h.effects_eq
  · exact Effect.swapsAtMostOnce_of_forall hrest
  · exact hrest
  · exact hrest

theorem Kernel.Picks.not_rejoin {s : Scheduler cfg} {cpu : Fin cfg.ncpu}
    {found : Option (Fin cfg.maxProcs)} {before : List (Effect cfg)} (h : Picks s cpu found before)
    (slot : Fin cfg.maxProcs) (pid : Pid) : .rejoin slot pid ∉ before := by
  obtain rfl | ⟨isLive, rfl, -⟩ | ⟨cursor, rfl⟩ := h.effects_eq <;> simp

namespace Takes

variable {s : Scheduler cfg} {opened opened' : List (Activity cfg)} {step : Step}
variable {effects : List (Effect cfg)}

theorem swapsAtMostOnce (h : Takes s opened step effects opened') :
    Effect.SwapsAtMostOnce effects := by
  cases h with
  | act performs =>
    obtain ⟨cpu, found, picks⟩ | plain := performs.pick_or_plain
    · exact List.append_nil effects ▸ picks.swapsAtMostOnce (by simp)
    · exact Effect.swapsAtMostOnce_of_forall fun effect hmem =>
        Effect.isSwap_of_isPlain (plain effect hmem)
  | begin begins =>
    cases begins with
    | idle picks => exact picks.swapsAtMostOnce (by simp [Effect.isSwap])
    | dispatch picks report =>
      rw [List.append_assoc]
      refine picks.swapsAtMostOnce ?_
      obtain rfl | ⟨window, rfl⟩ := report <;> simp [Effect.isSwap]
  | finish ends here =>
    obtain ⟨before, rfl, hplain⟩ := ends.exists_before
    refine Effect.swapsAtMostOnce_of_forall ?_
    refine List.forall_mem_append.mpr ⟨?_, by simp [Effect.isSwap]⟩
    exact fun effect hmem => Effect.isSwap_of_isPlain (hplain effect hmem)
  | wakeup wakes =>
    exact Effect.swapsAtMostOnce_of_forall fun effect hmem =>
      Effect.isSwap_of_isPlain (wakes.plain effect hmem)
  | kill wakes =>
    exact Effect.swapsAtMostOnce_of_forall fun effect hmem =>
      Effect.isSwap_of_isPlain (wakes.plain effect hmem)
  | resume here isWindow leaves =>
    refine Effect.swapsAtMostOnce_of_forall fun effect hmem => ?_
    obtain hwaking | ⟨slot, pid, rfl, -⟩ := leaves.mem_cases hmem
    · exact Effect.isSwap_of_isPlain (Effect.isPlain_of_isWaking hwaking)
    · rfl

/-- A woken process is moved only when a window of it is left. -/
theorem window_of_mem_rejoin (h : Takes s opened step effects opened') {slot : Fin cfg.maxProcs}
    {pid : Pid} (hmem : .rejoin slot pid ∈ effects) : (s.table.record slot).pid = pid ∧
      ∃ index, step = .resume index ∧ ∃ activity ∈ opened[index]?,
        activity.isWindowOf slot pid = true := by
  have hplain : ∀ {effects : List (Effect cfg)}, (∀ effect ∈ effects, effect.isPlain = true) →
      .rejoin slot pid ∉ effects := fun h hmem => Bool.false_ne_true (h _ hmem)
  cases h with
  | act performs =>
    obtain ⟨cpu, found, picks⟩ | plain := performs.pick_or_plain
    · exact absurd hmem (picks.not_rejoin slot pid)
    · exact absurd hmem (hplain plain)
  | begin begins =>
    cases begins with
    | idle picks => simp [picks.not_rejoin] at hmem
    | dispatch picks report =>
      obtain rfl | ⟨window, rfl⟩ := report <;> simp [picks.not_rejoin] at hmem
  | finish ends here =>
    obtain ⟨before, rfl, hbefore⟩ := ends.exists_before
    simp [hplain hbefore] at hmem
  | wakeup wakes => exact absurd hmem (hplain wakes.plain)
  | kill wakes => exact absurd hmem (hplain wakes.plain)
  | resume here isWindow leaves =>
    obtain hwaking | ⟨_, _, heq, hwindow, hpid⟩ := leaves.mem_cases hmem
    · cases hwaking
    · cases heq
      exact ⟨hpid, _, rfl, _, here, hwindow⟩

theorem leaves {index : Nat} (h : Takes s opened (.resume index) effects opened')
    {activity : Activity cfg} (hhere : opened[index]? = some activity) :
    ∃ windows, Leaves s activity windows effects := by
  cases h with
  | @resume _ found windows _ here isWindow leaves =>
    obtain rfl : found = activity := Option.some.inj (here.symm.trans hhere)
    exact ⟨windows, leaves⟩

end Takes

/-- If there are queues, a runnable process is queued in the active set when a window of it is
left. -/
theorem Kernel.Leaves.location_eq {s : Scheduler cfg} (hs : s.Sound)
    (huse : cfg.effectivePolicy.usesQueues = true) {activity : Activity cfg}
    {opened : List (Activity cfg)} {effects : List (Effect cfg)}
    (h : Leaves s activity opened effects) {slot : Fin cfg.maxProcs}
    (hrunnable : (s.table.record slot).state = .runnable)
    (hwindow : activity.isWindowOf slot (s.table.record slot).pid = true) :
    ∃ level, (Effect.applyAll s effects).queues.location slot = some (level, .active) := by
  have hrejoin : rejoinEffects s slot (s.table.record slot).pid
      = [.rejoin slot (s.table.record slot).pid] := if_pos ⟨huse, rfl, .inl hrunnable⟩
  have hmoved := (hs.queues.location_relink slot slot (hs.queues.levelOrHome_lt slot) .active).trans
    (if_pos rfl)
  cases h with
  | waking wakes =>
    obtain ⟨rfl, rfl⟩ : _ = slot ∧ _ = (s.table.record slot).pid := by
      simpa [Activity.isWindowOf] using hwindow
    rw [hrejoin, Effect.applyAll_append, Effect.queues_applyAll_of_isWaking wakes.waking]
    exact ⟨_, hmoved⟩
  | killing =>
    obtain ⟨rfl, rfl⟩ : _ = slot ∧ _ = (s.table.record slot).pid := by
      simpa [Activity.isWindowOf] using hwindow
    rw [hrejoin]
    exact ⟨_, hmoved⟩

/-! ## How long an expired process waits -/

namespace Advances

variable {m m' : Moment cfg} {step : Step} {effects : List (Effect cfg)} {slot : Fin cfg.maxProcs}

/-- A step that does not exchange the sets ends the wait of an expired process only by leaving a
window of it. -/
theorem not_endsExpiry (h : Advances m step effects m') (hswap : ¬m.Swapped m')
    (hleaves : ¬m.LeavesWindowOf slot step) :
    ∀ effect ∈ effects, effect.endsExpiry slot = false := by
  intro effect hmem
  have hstill : (Effect.applyAll m.machine.scheduler effects).stats.swaps
      = m.machine.scheduler.stats.swaps := by
    rw [← h.scheduler_eq]
    exact not_not.mp hswap
  have hnot := Effect.not_isSwap_of_swaps h.allowed h.takes.swapsAtMostOnce hstill effect hmem
  cases effect with
  | swap isLive => cases hnot
  | rejoin moved pid =>
    have hne : moved ≠ slot := by
      rintro rfl
      obtain ⟨rfl, hwindow⟩ := h.takes.window_of_mem_rejoin hmem
      exact hleaves hwindow
    simpa [Effect.endsExpiry] using hne
  | _ => rfl

theorem expired (h : Advances m step effects m') (hm : m.Sound)
    (hx : m.machine.scheduler.Expired slot) (hswap : ¬m.Swapped m')
    (hleaves : ¬m.LeavesWindowOf slot step) : m'.machine.scheduler.Expired slot ∧
      (m'.machine.scheduler.table.record slot).pid
        = (m.machine.scheduler.table.record slot).pid := by
  rw [h.scheduler_eq]
  exact Effect.expired_applyAll hm.scheduler hx h.allowed (h.not_endsExpiry hswap hleaves)

/-- Leaving a window of an expired process puts it into the active set. -/
theorem active_of_leaves (h : Advances m step effects m') (hm : m.Sound)
    (hx : m.machine.scheduler.Expired slot) (hleaves : m.LeavesWindowOf slot step) :
    (m'.machine.scheduler.table.record slot).state = .runnable ∧
      ∃ level, m'.machine.scheduler.queues.location slot = some (level, .active) := by
  obtain ⟨index, rfl, activity, hhere, hwindow⟩ := hleaves
  obtain ⟨windows, hleaves⟩ := h.takes.leaves hhere
  obtain ⟨hrunnable, level, hplace⟩ := hx
  have huse := (hm.scheduler.queued_of_location hplace).1
  rw [h.scheduler_eq]
  exact ⟨Effect.runnable_applyAll hm.scheduler hrunnable h.allowed hleaves.not_isSwitch,
    hleaves.location_eq hm.scheduler huse hrunnable hwindow⟩

end Advances

theorem Undisturbed.expired {slot : Fin cfg.maxProcs} {a b : Moment cfg} {steps : List Step}
    (hv : cfg.IsValid) (ha : a.Sound) (hx : a.machine.scheduler.Expired slot)
    (h : Undisturbed slot a steps b) : b.machine.scheduler.Expired slot ∧
      (b.machine.scheduler.table.record slot).pid
        = (a.machine.scheduler.table.record slot).pid := by
  induction h with
  | refl => exact ⟨hx, rfl⟩
  | tail hbefore hallows hnext hswap hleaves ih =>
    have hb := ha.path hv hbefore.path
    obtain ⟨effects, hadvances⟩ := hb.advances hv hallows hnext
    obtain ⟨hexpired, hpid⟩ := hadvances.expired hb ih.1 hswap hleaves
    exact ⟨hexpired, hpid.trans ih.2⟩

/-- From a moment at which a process has expired, it waits as long as the sets are not exchanged and
no window of it is left: it stays in the expired set, and no CPU is given to it.  And only as long
as that, since leaving a window of it puts it into the active set. -/
theorem Reachable.expired_waits (hv : cfg.IsValid) {a : Moment cfg} (ha : Reachable a)
    {slot : Fin cfg.maxProcs} (hx : a.machine.scheduler.Expired slot) :
    (∀ steps b, Undisturbed slot a steps b → b.machine.scheduler.Expired slot ∧
      (b.machine.scheduler.table.record slot).pid = (a.machine.scheduler.table.record slot).pid ∧
      ∀ cpu, .turn cpu slot ∉ b.activities) ∧
    ∀ step b, a.Allows step → a.next step = .ok b → a.LeavesWindowOf slot step →
      (b.machine.scheduler.table.record slot).state = .runnable ∧
        ∃ level, b.machine.scheduler.queues.location slot = some (level, .active) := by
  have hsound := ha.sound hv
  constructor
  · intro steps b hundisturbed
    obtain ⟨hexpired, hpid⟩ := hundisturbed.expired hv hsound hx
    refine ⟨hexpired, hpid, fun cpu hturn => ?_⟩
    have hb := hsound.path hv hundisturbed.path
    obtain ⟨hcpu, hcurrent⟩ := (hb.fits.turn_iff cpu slot).mp hturn
    have hrunning := (hb.scheduler.running slot).mpr ⟨_, hcurrent⟩
    rw [hexpired.1] at hrunning
    cases hrunning
  · intro step b hallows hnext hleaves
    obtain ⟨effects, hadvances⟩ := hsound.advances hv hallows hnext
    exact hadvances.active_of_leaves hsound hx hleaves

/-- A run in which a sleeper that has been woken uses up its budget in the window of the wakeup. -/
def expiryInWindow : List Step :=
  [.act (.fork "sleeper" none none), .begin 0, .finish 0 (.sleep 7), .wakeup 7, .begin 0,
    .act (.tick 0 1), .finish 0 .yield]

/-- While the window stays open the process waits, and when it is left the wait is over. -/
theorem expiryInWindow_waits : ∃ a ∈ (Moment.fresh .smallest).walk? expiryInWindow,
    (∃ b ∈ (a.next (.act (.setKilled 0))).toOption,
        b.machine.scheduler.Expired Config.onlySlot) ∧
      ∃ b ∈ (a.next (.resume 0)).toOption,
        ∃ level, b.machine.scheduler.queues.location Config.onlySlot = some (level, .active) := by
  have hrun : ∃ a ∈ (Moment.fresh .smallest).walk? expiryInWindow,
      (a.machine.scheduler.table.record Config.onlySlot).state = .runnable ∧
      a.machine.scheduler.queues.location Config.onlySlot = some (1, .expired) ∧
      a.Allows (.act (.setKilled 0)) ∧ a.Allows (.resume 0) ∧
      (∃ b ∈ (a.next (.act (.setKilled 0))).toOption,
        b.machine.scheduler.stats.swaps = a.machine.scheduler.stats.swaps) ∧
      (∃ activity ∈ a.activities[0]?, activity.isWindowOf Config.onlySlot
        (a.machine.scheduler.table.record Config.onlySlot).pid) ∧
      (a.next (.resume 0)).toOption.isSome := by decide +kernel
  obtain ⟨a, hwalk, hstate, hplace, hkill, hresume, ⟨b, hb, hswaps⟩, hwindow, hleft⟩ := hrun
  obtain ⟨hwaits, hleaves⟩ := Reachable.expired_waits (by decide) ⟨_, path_of_walk? hwalk⟩
    ⟨hstate, 1, hplace⟩
  have hundisturbed : Undisturbed Config.onlySlot a [.act (.setKilled 0)] b :=
    (Undisturbed.refl a).tail hkill (next_of_mem_toOption hb) (not_not_intro hswaps)
      (by rintro ⟨_, ⟨⟩, _⟩)
  obtain ⟨c, hc⟩ := Option.isSome_iff_exists.mp hleft
  exact ⟨a, hwalk, ⟨b, hb, (hwaits _ b hundisturbed).1⟩, c, hc,
    (hleaves _ c hresume (next_of_mem_toOption hc) ⟨0, rfl, hwindow⟩).2⟩

/-- An expired process need not wait for an exchange of the sets: here the window is left and the
process is dispatched from the active set, and the sets were never exchanged. -/
theorem dispatched_without_swap : ∃ a ∈ (Moment.fresh .smallest).walk? expiryInWindow,
    (a.machine.scheduler.table.record Config.onlySlot).state = .runnable ∧
      a.machine.scheduler.queues.location Config.onlySlot = some (1, .expired) ∧
      ∃ b ∈ a.walk? [.resume 0, .begin 0], .turn 0 Config.onlySlot ∈ b.activities ∧
        b.machine.scheduler.stats.swaps = 0 ∧ .swapped ∉ b.machine.journal.toList := by
  decide +kernel

end FeedbackQueue
