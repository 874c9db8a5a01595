import FeedbackQueue.Proofs.Kernel.Ensures

/-!
# Processes that have expired

A runnable process in the expired set has *expired*.  Two effects alone can end that
(`Effect.endsExpiry`): an exchange of the sets, which is counted, and the second step of a wakeup of
that very process.
-/

namespace FeedbackQueue

variable {cfg : Config} {s : Scheduler cfg} {slot : Fin cfg.maxProcs}

/-- Whether a process waits in the expired set. -/
def Scheduler.Expired (s : Scheduler cfg) (slot : Fin cfg.maxProcs) : Prop :=
  (s.table.record slot).state = .runnable ∧ ∃ level, s.queues.location slot = some (level, .expired)

namespace Effect

/-- Whether a change may take a process out of the expired set. -/
def endsExpiry (slot : Fin cfg.maxProcs) : Effect cfg → Bool
  | swap _ => true
  | rejoin moved _ => moved = slot
  | _ => false

/-! ## Records of runnable processes -/

/-- A runnable process is not in a slot that is in another state. -/
theorem ne_of_runnable {y : Fin cfg.maxProcs} {state : ProcState}
    (hrunnable : (s.table.record slot).state = .runnable) (hy : (s.table.record y).state = state)
    (hstate : state ≠ .runnable) : slot ≠ y := by
  rintro rfl
  exact hstate (hy.symm.trans hrunnable)

/-- A change of another slot's record. -/
theorem record_adjust_of_ne {y : Fin cfg.maxProcs} (hne : slot ≠ y) (f : Record → Record) :
    (s.table.adjust y f).record slot = s.table.record slot := by
  rw [Table.record_adjust, if_neg hne]

/-- Apart from a dispatch of it, no effect takes a runnable process out of that state. -/
theorem runnable_apply (hs : s.Sound) (hrunnable : (s.table.record slot).state = .runnable)
    {effect : Effect cfg} (ha : effect.Allowed s) (hdispatch : ∀ cpu, effect ≠ .dispatch cpu slot) :
    ((effect.apply s).table.record slot).state = .runnable ∧
      ((effect.apply s).table.record slot).pid = (s.table.record slot).pid := by
  have hedit : ∀ (y : Fin cfg.maxProcs) (f : Record → Record), (∀ r, (f r).state = r.state) →
      (∀ r, (f r).pid = r.pid) → ((s.table.adjust y f).record slot).state = .runnable ∧
        ((s.table.adjust y f).record slot).pid = (s.table.record slot).pid :=
    fun y f hstate hpid => ⟨(s.table.field_adjust y slot Record.state hstate).trans hrunnable,
      s.table.field_adjust y slot Record.pid hpid⟩
  cases effect with
  | create y name parent home =>
    have hne := ne_of_runnable hrunnable ha.1 (by simp)
    simp [apply, Table.record_adjust, Table.record_claim, hne, hrunnable]
  | activate y | reap y | wake y =>
    have hne := ne_of_runnable hrunnable ha (by simp)
    simp [apply, record_adjust_of_ne hne, hrunnable]
  | dispatch cpu y =>
    have hne : slot ≠ y := by
      rintro rfl
      exact hdispatch cpu rfl
    simp [apply, record_adjust_of_ne hne, hrunnable]
  | stop cpu y ending =>
    have hne := ne_of_runnable hrunnable ((hs.running y).mpr ⟨cpu, ha⟩) (by simp)
    simp [apply, record_adjust_of_ne hne, hrunnable]
  | mark y => exact hedit y _ (fun _ => rfl) (fun _ => rfl)
  | charge y => exact hedit y _ (fun _ => rfl) (fun _ => rfl)
  | refill y => exact hedit y _ (fun _ => rfl) (fun _ => rfl)
  | _ => exact ⟨hrunnable, rfl⟩

theorem runnable_applyAll (hs : s.Sound) (hrunnable : (s.table.record slot).state = .runnable)
    {effects : List (Effect cfg)} (ha : AllowedAll s effects)
    (hswitch : ∀ effect ∈ effects, effect.isSwitch = false) :
    ((applyAll s effects).table.record slot).state = .runnable := by
  have hkept := applyAll_induction (P := fun t => t.Sound ∧ (t.table.record slot).state = .runnable)
    ⟨hs, hrunnable⟩ ha fun effect hmem t hallowed ⟨ht, hstate⟩ => by
      have hdispatch : ∀ cpu, effect ≠ .dispatch cpu slot := by
        rintro cpu rfl
        cases hswitch _ hmem
      exact ⟨ht.apply hallowed, (runnable_apply ht hstate hallowed hdispatch).1⟩
  exact hkept.2

/-! ## Places of runnable processes -/

/-- Whether a change may move a runnable process to another place in the queues. -/
def Moves (s : Scheduler cfg) (slot : Fin cfg.maxProcs) : Effect cfg → Prop
  | swap _ => True
  | cascade source _ _ skip => slot ∈ s.queues.sequences.movers source skip
  | rejoin moved _ => moved = slot
  | _ => False

theorem location_apply (hs : s.Sound) (hrunnable : (s.table.record slot).state = .runnable)
    {effect : Effect cfg} (ha : effect.Allowed s) (hmoves : ¬effect.Moves s slot) :
    (effect.apply s).queues.location slot = s.queues.location slot := by
  have hq := hs.queues
  cases effect with
  | create y name parent home =>
    have hne := ne_of_runnable hrunnable ha.1 (by simp)
    exact (Queues.Sound.location_detach y slot _ home).trans (if_neg hne)
  | activate y =>
    have hne := ne_of_runnable hrunnable ha (by simp)
    simp only [apply]
    split
    · rw [hq.location_relink y slot (hq.home_lt y), if_neg hne]
    · rfl
  | stop cpu y ending =>
    have hne := ne_of_runnable hrunnable ((hs.running y).mpr ⟨cpu, ha⟩) (by simp)
    cases ending with
    | exit status =>
      simp only [apply]
      split
      · rw [Queues.location_remove, if_neg hne]
      · rfl
    | _ => rfl
  | cascade source target set skip =>
    exact (hq.location_relinkAll slot set ha.2.1 _).trans (if_neg hmoves)
  | requeue y level set =>
    have hne := ne_of_runnable hrunnable ha.2.1 (by simp)
    exact (hq.location_relink y slot ha.2.2 set).trans (if_neg hne)
  | rejoin y pid =>
    exact (hq.location_relink y slot (hq.levelOrHome_lt y) .active).trans
      (if_neg fun heq => hmoves heq.symm)
  | swap isLive => exact absurd trivial hmoves
  | setTicks level set value => exact Queues.Sound.location_setTicks slot _ level set _
  | _ => rfl

/-! ## Expired processes -/

/-- No effect but these two ends the wait of an expired process.  No CPU can be given to it, since
it is in no active queue. -/
theorem expired_apply (hs : s.Sound) (hx : s.Expired slot) {effect : Effect cfg}
    (ha : effect.Allowed s) (hends : effect.endsExpiry slot = false) :
    (effect.apply s).Expired slot ∧
      ((effect.apply s).table.record slot).pid = (s.table.record slot).pid := by
  obtain ⟨hrunnable, place, hplace⟩ := hx
  have huse := (hs.queued_of_location hplace).1
  have hdispatch : ∀ cpu, effect ≠ .dispatch cpu slot := by
    rintro cpu rfl
    obtain ⟨level, hactive⟩ := ha.2.2 huse
    rw [hactive] at hplace
    cases hplace
  obtain ⟨hstate, hpid⟩ := runnable_apply hs hrunnable ha hdispatch
  have hmoves : ¬effect.Moves s slot := by
    cases effect with
    | swap isLive => cases hends
    | cascade source target set skip =>
      -- a drain takes its processes from the active set
      intro hmem
      rw [hs.queues.location_of_mem_movers slot skip ha.1 hmem] at hplace
      cases hplace
    | rejoin y pid =>
      rintro rfl
      simp [endsExpiry] at hends
    | _ => exact id
  have hkept := location_apply hs hrunnable ha hmoves
  exact ⟨⟨hstate, place, hkept.trans hplace⟩, hpid⟩

theorem expired_applyAll (hs : s.Sound) (hx : s.Expired slot) {effects : List (Effect cfg)}
    (ha : AllowedAll s effects) (hends : ∀ effect ∈ effects, effect.endsExpiry slot = false) :
    (applyAll s effects).Expired slot ∧
      ((applyAll s effects).table.record slot).pid = (s.table.record slot).pid := by
  have hkept := applyAll_induction
    (P := fun t => t.Sound ∧ t.Expired slot ∧
      (t.table.record slot).pid = (s.table.record slot).pid)
    ⟨hs, hx, rfl⟩ ha fun effect hmem t hallowed ⟨ht, hexpired, hpid⟩ => by
      obtain ⟨hnext, hsame⟩ := expired_apply ht hexpired hallowed (hends effect hmem)
      exact ⟨ht.apply hallowed, hnext, hsame.trans hpid⟩
  exact hkept.2

/-! ## Exchanges that are counted -/

/-- Whether a change exchanges the sets. -/
def isSwap : Effect cfg → Bool
  | swap _ => true
  | _ => false

theorem isSwap_of_isPlain {effect : Effect cfg} (h : effect.isPlain = true) :
    effect.isSwap = false := by
  cases effect <;> first | rfl | cases h

theorem swaps_apply {effect : Effect cfg} (ha : effect.Allowed s) (hswap : effect.isSwap = false) :
    (effect.apply s).stats.swaps = s.stats.swaps := by
  cases effect with
  | swap isLive => cases hswap
  | count occurrence =>
    cases occurrence with
    | swap => exact absurd rfl ha
    | _ => rfl
  | _ => rfl

theorem swaps_applyAll {effects : List (Effect cfg)} (ha : AllowedAll s effects)
    (hswap : ∀ effect ∈ effects, effect.isSwap = false) :
    (applyAll s effects).stats.swaps = s.stats.swaps :=
  applyAll_induction (P := fun t => t.stats.swaps = s.stats.swaps) rfl ha
    fun effect hmem _ hallowed ht => (swaps_apply hallowed (hswap effect hmem)).trans ht

/-- Effects of which at most the first exchanges the sets. -/
def SwapsAtMostOnce : List (Effect cfg) → Prop
  | [] => True
  | _ :: rest => ∀ effect ∈ rest, effect.isSwap = false

theorem swapsAtMostOnce_of_forall {effects : List (Effect cfg)}
    (h : ∀ effect ∈ effects, effect.isSwap = false) : SwapsAtMostOnce effects := by
  cases effects with
  | nil => trivial
  | cons effect rest => exact fun other hmem => h other (List.mem_cons_of_mem effect hmem)

/-- An exchange that is made is seen in the counter. -/
theorem not_isSwap_of_swaps {effects : List (Effect cfg)} (ha : AllowedAll s effects)
    (honce : SwapsAtMostOnce effects) (hstill : (applyAll s effects).stats.swaps = s.stats.swaps) :
    ∀ effect ∈ effects, effect.isSwap = false := by
  cases effects with
  | nil => simp
  | cons effect rest =>
    refine List.forall_mem_cons.mpr ⟨?_, honce⟩
    cases effect with
    | swap isLive =>
      have hswaps : (s.stats.swaps + 1 : UInt64) = s.stats.swaps :=
        (swaps_applyAll ha.2 honce).symm.trans hstill
      exact absurd hswaps (by simp)
    | _ => rfl

end Effect

end FeedbackQueue
