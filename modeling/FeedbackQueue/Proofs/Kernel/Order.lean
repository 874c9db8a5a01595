import FeedbackQueue.Proofs.Kernel.Expiry
import FeedbackQueue.Proofs.Kernel.Ledger
import FeedbackQueue.Proofs.Kernel.Turn
import FeedbackQueue.Proofs.Kernel.Waking
import FeedbackQueue.Proofs.Queue.Order

/-!
# Who comes after a process that waits

A runnable process *waits* in an active queue.  Another process that is runnable in the same queue
*follows* if it comes after the one that waits.  Once it does, it goes on to, since it is queued
behind whenever it comes back to the queue.  The one exception is a sleeper that is woken: it is
where it went to sleep until the window of its wakeup is left (`Wakes.follows`, `Leaves.follows`).
-/

namespace FeedbackQueue

variable {cfg : Config} {s : Scheduler cfg} {level : Nat} {first second : Fin cfg.maxProcs}

namespace Scheduler

/-- A process is runnable in the active queue of a level. -/
def Waits (s : Scheduler cfg) (slot : Fin cfg.maxProcs) (level : Nat) : Prop :=
  (s.table.record slot).state = .runnable ∧ s.queues.location slot = some (level, .active)

/-- If the second process is runnable in the active queue of a level, it comes after the first. -/
def Follows (s : Scheduler cfg) (level : Nat) (first second : Fin cfg.maxProcs) : Prop :=
  (s.table.record second).state = .runnable → s.queues.Trails level first second

/-- The second process follows, or it has been woken and is in its window. -/
def ComesAfter (s : Scheduler cfg) (opened : List (Activity cfg)) (level : Nat)
    (first second : Fin cfg.maxProcs) : Prop :=
  s.Follows level first second ∨
    ∃ activity ∈ opened, activity.isWindowOf second (s.table.record second).pid = true

theorem ComesAfter.mono {opened opened' : List (Activity cfg)}
    (h : s.ComesAfter opened level first second) (hsub : opened ⊆ opened') :
    s.ComesAfter opened' level first second := by
  refine h.imp_right ?_
  rintro ⟨activity, hmem, hwindow⟩
  exact ⟨activity, hsub hmem, hwindow⟩

end Scheduler

/-! ## Effects -/

namespace Effect

variable {effect : Effect cfg}

theorem trails_apply (hs : s.Sound) (hwaits : s.Waits first level) (ha : effect.Allowed s)
    (hmoves : ¬effect.Moves s first) (h : s.queues.Trails level first second) :
    (effect.apply s).queues.Trails level first second := by
  obtain ⟨hrunnable, hplace⟩ := hwaits
  have hq := hs.queues
  have hlevel := hq.level_lt hplace
  cases effect with
  | create y name parent home =>
    have hfree : s.queues.isLinked y = false := by
      simp [hs.isLinked_eq, ha.1, ProcState.isQueued]
    exact h.detach hq hlevel hfree home
  | activate y =>
    have hne := ne_of_runnable hrunnable ha (by simp)
    simp only [apply]
    split
    · exact .relink hq hplace hne (hq.home_lt y) .active (.inr h)
    · exact h
  | stop cpu y ending =>
    have hne := ne_of_runnable hrunnable ((hs.running y).mpr ⟨cpu, ha⟩) (by simp)
    cases ending with
    | exit status =>
      simp only [apply]
      split
      · exact h.remove hq hplace hne
      · exact h
    | _ => exact h
  | cascade source target set skip => exact h.relinkAll hq hplace ha.2.1 set hmoves
  | requeue y l set =>
    have hne := ne_of_runnable hrunnable ha.2.1 (by simp)
    exact .relink hq hplace hne ha.2.2 set (.inr h)
  | rejoin y pid =>
    have hne : first ≠ y := fun heq => hmoves heq.symm
    exact .relink hq hplace hne (hq.levelOrHome_lt y) .active (.inr h)
  | swap isLive => exact absurd trivial hmoves
  | setTicks l set value => exact h.setTicks hq hlevel l set value
  | _ => exact h

/-- Whether a change makes a process runnable where it is in the queues. -/
def readies (slot : Fin cfg.maxProcs) : Effect cfg → Bool
  | wake y | stop _ y .yield => y = slot
  | _ => false

/-- Only an activation makes a process runnable and queues it. -/
theorem eq_activate_of_runnable (hs : s.Sound) (ha : effect.Allowed s) {slot : Fin cfg.maxProcs}
    (hafter : ((effect.apply s).table.record slot).state = .runnable)
    (hbefore : (s.table.record slot).state ≠ .runnable) (hreadies : effect.readies slot = false) :
    effect = .activate slot := by
  cases htransition : effect.transition? with
  | none => exact absurd (state_apply_of_none htransition slot ▸ hafter) hbefore
  | some change =>
    obtain ⟨y, transition⟩ := change
    rw [(state_apply_of_transition hs ha htransition).2] at hafter
    split at hafter
    case isFalse => exact absurd hafter hbefore
    case isTrue hy =>
      subst hy
      cases effect with
      | activate y =>
        cases htransition
        rfl
      | wake y =>
        cases htransition
        simp [readies] at hreadies
      | stop cpu y ending =>
        cases ending <;> cases htransition
        · simp [readies] at hreadies
        all_goals cases hafter
      | create | reap | dispatch =>
        cases htransition
        cases hafter
      | _ => cases htransition

/-- Who follows goes on to, unless it is made runnable in front. -/
theorem follows_apply (hs : s.Sound) (hwaits : s.Waits first level) (ha : effect.Allowed s)
    (hmoves : ¬effect.Moves s first) (hreadies : effect.readies second = false)
    (h : s.Follows level first second) : (effect.apply s).Follows level first second := by
  intro hafter
  by_cases hbefore : (s.table.record second).state = .runnable
  · exact trails_apply hs hwaits ha hmoves (h hbefore)
  · obtain rfl := eq_activate_of_runnable hs ha hafter hbefore hreadies
    have hne := ne_of_runnable hwaits.1 ha (by simp)
    have huse := (hs.queued_of_location hwaits.2).1
    simp only [apply, if_pos huse]
    exact .relink hs.queues hwaits.2 hne (hs.queues.home_lt second) .active (.inl rfl)

theorem waits_apply (hs : s.Sound) (hwaits : s.Waits first level) (ha : effect.Allowed s)
    (hdispatch : ∀ cpu, effect ≠ .dispatch cpu first) (hmoves : ¬effect.Moves s first) :
    (effect.apply s).Waits first level :=
  ⟨(runnable_apply hs hwaits.1 ha hdispatch).1,
    (location_apply hs hwaits.1 ha hmoves).trans hwaits.2⟩

/-- Whether a change leaves a process that waits where it is, and makes the other one runnable only
behind it. -/
def keepsOrder (first second : Fin cfg.maxProcs) : Effect cfg → Bool
  | swap _ | cascade .. => false
  | rejoin y _ | dispatch _ y => y ≠ first
  | wake y | stop _ y .yield => y ≠ second
  | _ => true

section KeepsOrder

variable (h : effect.keepsOrder first second = true)
include h

theorem not_moves_of_keepsOrder (t : Scheduler cfg) : ¬effect.Moves t first := by
  cases effect <;> simp_all [keepsOrder, Moves]

theorem readies_of_keepsOrder : effect.readies second = false := by
  cases effect with
  | stop cpu y ending => cases ending <;> simp_all [keepsOrder, readies]
  | _ => simp_all [keepsOrder, readies]

theorem ne_dispatch_of_keepsOrder (cpu : Fin cfg.ncpu) : effect ≠ .dispatch cpu first := by
  rintro rfl
  simp [keepsOrder] at h

end KeepsOrder

/-- As long as nobody changes the order, the one goes on to wait and the other to follow. -/
theorem follows_applyAll (hs : s.Sound) (hwaits : s.Waits first level) {effects : List (Effect cfg)}
    (ha : AllowedAll s effects)
    (hkeeps : ∀ effect ∈ effects, effect.keepsOrder first second = true) :
    (applyAll s effects).Waits first level ∧
      (s.Follows level first second → (applyAll s effects).Follows level first second) := by
  have hkept := applyAll_induction
    (P := fun t => t.Sound ∧ t.Waits first level ∧
      (s.Follows level first second → t.Follows level first second)) ⟨hs, hwaits, id⟩ ha
    fun effect hmem t hallowed ⟨ht, hwaits, hfollows⟩ => by
      have hkeeps := hkeeps effect hmem
      have hmoves := not_moves_of_keepsOrder hkeeps t
      have hreadies := readies_of_keepsOrder hkeeps
      have hdispatch := ne_dispatch_of_keepsOrder hkeeps
      exact ⟨ht.apply hallowed, waits_apply ht hwaits hallowed hdispatch hmoves,
        fun h => follows_apply ht hwaits hallowed hmoves hreadies (hfollows h)⟩
  exact hkept.2

/-- Whether a change gives a slot another pid. -/
def keepsPids : Effect cfg → Bool
  | create .. | reap _ => false
  | _ => true

theorem pid_apply (hkeeps : effect.keepsPids = true) (slot : Fin cfg.maxProcs) :
    ((effect.apply s).table.record slot).pid = (s.table.record slot).pid := by
  have hedit : ∀ (y : Fin cfg.maxProcs) {f : Record → Record}, (∀ r, (f r).pid = r.pid) →
      ((s.table.adjust y f).record slot).pid = (s.table.record slot).pid :=
    fun y f hpid => s.table.field_adjust y slot Record.pid hpid
  cases effect with
  | create | reap => cases hkeeps
  | stop cpu y ending => exact hedit y fun _ => by cases ending <;> rfl
  | activate y | mark y | charge y | refill y | wake y | dispatch _ y => exact hedit y fun _ => rfl
  | _ => rfl

theorem pid_applyAll {effects : List (Effect cfg)}
    (hkeeps : ∀ effect ∈ effects, effect.keepsPids = true) (slot : Fin cfg.maxProcs) :
    ((applyAll s effects).table.record slot).pid = (s.table.record slot).pid :=
  applyAll_eq (fun t => (t.table.record slot).pid) fun effect hmem _ =>
    pid_apply (hkeeps effect hmem) slot

end Effect

/-! ## Waking -/

/-- A window is that of one process. -/
theorem Activity.eq_of_isWindowOf {activity : Activity cfg} {x y : Fin cfg.maxProcs} {p q : Pid}
    (hx : activity.isWindowOf x p = true) (hy : activity.isWindowOf y q = true) :
    x = y ∧ p = q := by
  cases activity with
  | turn cpu slot => cases hx
  | _ =>
    simp only [isWindowOf, Bool.and_eq_true, decide_eq_true_eq] at hx hy
    exact ⟨hx.1.symm.trans hy.1, hx.2.symm.trans hy.2⟩

namespace Kernel

variable {opened : List (Activity cfg)} {effects : List (Effect cfg)}

theorem keepsPids_of_isWaking {effect : Effect cfg} (h : effect.isWaking = true) :
    effect.keepsPids = true := by
  cases effect <;> first | rfl | cases h

theorem Wakes.pid_eq (h : Wakes s opened effects) (slot : Fin cfg.maxProcs) :
    ((Effect.applyAll s effects).table.record slot).pid = (s.table.record slot).pid :=
  Effect.pid_applyAll (fun effect hmem => keepsPids_of_isWaking (h.waking effect hmem)) slot

/-- Waking opens no window of a process that waits, and who followed goes on to, unless it has been
woken itself and is in its window. -/
theorem Wakes.follows (h : Wakes s opened effects) (hs : s.Sound) (hwaits : s.Waits first level)
    (ha : Effect.AllowedAll s effects) :
    let t := Effect.applyAll s effects
    (∀ activity ∈ opened, ∀ pid, activity.isWindowOf first pid = false) ∧
      (s.Follows level first second → t.ComesAfter opened level first second) := by
  have hpid := h.pid_eq second
  obtain ⟨marked, woken, rfl, hstops⟩ := h.effects_eq
  obtain ⟨hmarks, hwakes⟩ := Effect.allowedAll_append.mp ha
  have hmarked : ∀ effect ∈ marked.toList.flatMap markEffects,
      effect.keepsOrder first second = true := by
    intro effect hmem
    obtain ⟨slot, -, hmem⟩ := List.mem_flatMap.mp hmem
    obtain rfl | rfl : effect = .mark slot ∨ effect = .count .kill := by
      simpa [markEffects] using hmem
    all_goals rfl
  cases hstops with
  | nowhere =>
    refine ⟨by simp, fun hfollows => .inl ?_⟩
    exact (Effect.follows_applyAll hs hwaits ha (by simpa using hmarked)).2 hfollows
  | @window slot activity isWindow =>
    have hwaiting := (Effect.follows_applyAll hs hwaits hmarks hmarked).1
    have hne := Effect.ne_of_runnable hwaiting.1 hwakes.1 (by simp)
    refine ⟨fun other hmem pid => ?_, fun hfollows => ?_⟩
    · obtain rfl := List.mem_singleton.mp hmem
      rw [← Bool.not_eq_true]
      exact fun hfirst => hne (Activity.eq_of_isWindowOf hfirst isWindow).1
    · by_cases hsecond : slot = second
      · subst hsecond
        exact .inr ⟨activity, List.mem_singleton_self activity, hpid.symm ▸ isWindow⟩
      · refine .inl ((Effect.follows_applyAll hs hwaits ha ?_).2 hfollows)
        refine List.forall_mem_append.mpr ⟨hmarked, ?_⟩
        simp [wakeEffects, Effect.keepsOrder, hsecond]

theorem Leaves.pid_eq {activity : Activity cfg} (h : Leaves s activity opened effects)
    (slot : Fin cfg.maxProcs) :
    ((Effect.applyAll s effects).table.record slot).pid = (s.table.record slot).pid := by
  refine Effect.pid_applyAll (fun effect hmem => ?_) slot
  obtain hwaking | ⟨y, pid, rfl, -⟩ := h.mem_cases hmem
  · exact keepsPids_of_isWaking hwaking
  · rfl

/-- The second step of waking a process puts it behind. -/
theorem follows_rejoin (hs : s.Sound) (hwaits : s.Waits first level) {slot : Fin cfg.maxProcs}
    {pid : Pid} (hne : slot ≠ first) (ha : Effect.AllowedAll s (rejoinEffects s slot pid)) :
    let t := Effect.applyAll s (rejoinEffects s slot pid)
    t.Waits first level ∧
      (s.Follows level first second ∨ slot = second ∧ (s.table.record slot).pid = pid →
        t.Follows level first second) := by
  unfold rejoinEffects at ha ⊢
  dsimp only at ha ⊢
  split at ha
  case isTrue hrejoins =>
    rw [if_pos hrejoins]
    have hl := hs.queues.levelOrHome_lt slot
    have hstill : ((Effect.rejoin slot pid).apply s).Waits first level :=
      Effect.waits_apply hs hwaits ha.1 (by simp) hne
    refine ⟨hstill, fun hfollows hrunnable => ?_⟩
    refine .relink hs.queues hwaits.2 hne.symm hl .active ?_
    by_cases hsecond : slot = second
    · exact .inl hsecond
    · exact .inr (hfollows.resolve_right (fun h => hsecond h.1) hrunnable)
  case isFalse hstays =>
    rw [if_neg hstays]
    refine ⟨hwaits, fun hfollows => hfollows.elim id ?_⟩
    rintro ⟨rfl, hpid⟩ hrunnable
    exact absurd ⟨(hs.queued_of_location hwaits.2).1, hpid, .inl hrunnable⟩ hstays

/-- A process whose window is left comes to follow, and who followed goes on to. -/
theorem Leaves.follows {activity : Activity cfg} (h : Leaves s activity opened effects)
    (hs : s.Sound) (hwaits : s.Waits first level)
    (hnone : ∀ pid, activity.isWindowOf first pid = false) (ha : Effect.AllowedAll s effects) :
    let t := Effect.applyAll s effects
    (∀ activity ∈ opened, ∀ pid, activity.isWindowOf first pid = false) ∧
      (s.ComesAfter [activity] level first second → t.ComesAfter opened level first second) := by
  have hrejoin : ∀ {slot pid}, activity.isWindowOf slot pid = true →
      Effect.AllowedAll s (rejoinEffects s slot pid) →
      let t := Effect.applyAll s (rejoinEffects s slot pid)
      t.Waits first level ∧
        (s.ComesAfter [activity] level first second → t.Follows level first second) := by
    intro slot pid hwindow hallowed
    have hne : slot ≠ first := by
      rintro rfl
      exact Bool.false_ne_true ((hnone pid).symm.trans hwindow)
    obtain ⟨hwaits, hfollows⟩ := follows_rejoin hs hwaits hne hallowed
    refine ⟨hwaits, fun h => hfollows (h.imp_right ?_)⟩
    rintro ⟨other, hmem, hsecond⟩
    obtain rfl := List.mem_singleton.mp hmem
    obtain ⟨rfl, hpid⟩ := Activity.eq_of_isWindowOf hwindow hsecond
    exact ⟨rfl, hpid.symm⟩
  cases h with
  | waking wakes =>
    obtain ⟨hbefore, hafter⟩ := Effect.allowedAll_append.mp ha
    obtain ⟨hwaits', hfollows'⟩ := hrejoin (by simp [Activity.isWindowOf]) hbefore
    rw [Effect.applyAll_append]
    obtain ⟨hsettled, hwoken⟩ := wakes.follows (hs.applyAll hbefore) hwaits' hafter
    exact ⟨hsettled, fun h => hwoken (hfollows' h)⟩
  | killing =>
    have hleft := (hrejoin (by simp [Activity.isWindowOf]) ha).2
    exact ⟨by simp, fun h => .inl (hleft h)⟩

/-! ## Ends of turns -/

/-- A process that is queued again comes after those that stay. -/
theorem Requeues.trails {slot : Fin cfg.maxProcs} {replenish : Bool}
    (h : Requeues s slot replenish effects) (hs : s.Sound) (hwaits : s.Waits first level)
    (hstill : (Effect.applyAll s effects).queues.location first = some (level, .active))
    (hne : first ≠ slot) (ha : Effect.AllowedAll s effects)
    (htrails : slot = second ∨ s.queues.Trails level first second) :
    (Effect.applyAll s effects).queues.Trails level first second := by
  have hplace := hwaits.2
  cases h with
  | scan policy =>
    have huse := (hs.queued_of_location hplace).1
    rw [policy] at huse
    cases huse
  | roundRobin policy => exact .relink hs.queues hplace hne ha.1.2.2 .active htrails
  | @feedback policy source set d place decision =>
    obtain ⟨hbefore, ⟨-, -, hd⟩, -⟩ := Effect.allowedAll_append.mp ha
    let t := Effect.applyAll s (cascadeEffects s slot source d ++ moveEffects cfg source d)
    have ht : t.Sound := hs.applyAll hbefore
    have hqueues : (Effect.applyAll s (cascadeEffects s slot source d ++ moveEffects cfg source d
        ++ [.requeue slot d.level d.set])).queues = t.queues.relink slot d.level d.set := by
      rw [Effect.applyAll_append]
      rfl
    rw [hqueues, ht.queues.location_relink slot first hd, if_neg hne] at hstill
    rw [hqueues]
    refine .relink ht.queues hstill hne hd d.set (htrails.imp_right fun htrails => ?_)
    have hdrained : t.queues = _ := queues_cascadeEffects source d
    rw [hdrained] at hstill ⊢
    split at hstill
    case isFalse hstays =>
      rw [if_neg hstays]
      exact htrails
    case isTrue hcascade =>
      rw [if_pos hcascade]
      refine htrails.relinkAll hs.queues hplace hd d.set fun hmem => ?_
      -- the one that waits would have left its queue
      have hfrom := hs.queues.location_of_mem_movers first _ (hs.queues.level_lt place) hmem
      cases hfrom.symm.trans hplace
      rw [hs.queues.location_relinkAll first d.set hd, if_pos hmem] at hstill
      obtain ⟨hlevel, hset⟩ := Prod.mk.inj (Option.some.inj hstill)
      rw [Queues.destination, if_pos hset] at hlevel
      exact Queues.decision_level_ne decision hcascade hset hlevel

theorem Ends.follows {cpu : Fin cfg.ncpu} {slot : Fin cfg.maxProcs} {ending : Ending}
    (h : Ends s cpu slot ending effects) (hs : s.Sound) (hwaits : s.Waits first level)
    (hstill : (Effect.applyAll s effects).queues.location first = some (level, .active))
    (hfollows : s.Follows level first second) (hcurrent : (s.cpu cpu).current = some slot)
    (ha : Effect.AllowedAll s effects) :
    (Effect.applyAll s effects).Follows level first second := by
  have hrunning := (hs.running slot).mpr ⟨cpu, hcurrent⟩
  have hne := Effect.ne_of_runnable hwaits.1 hrunning (by simp)
  cases h with
  | sleep channel =>
    exact (Effect.follows_applyAll hs hwaits ha (by simp [Effect.keepsOrder])).2 hfollows
  | exit status =>
    exact (Effect.follows_applyAll hs hwaits ha (by simp [Effect.keepsOrder])).2 hfollows
  | @yield replenish requeued requeues =>
    intro hrunnable
    have hqueues := queues_yieldEffects (s := s) cpu slot replenish requeued
    have hcounted : Requeues ((Effect.count .yield).apply s) slot replenish requeued :=
      Requeues.count_iff.mpr requeues
    rw [List.append_assoc] at ha hrunnable
    obtain ⟨⟨hcount, hrequeued⟩, -⟩ := Effect.allowedAll_append.mp ha
    rw [hqueues] at hstill ⊢
    refine hcounted.trails (hs.apply hcount) hwaits hstill hne hrequeued ?_
    by_cases hsecond : slot = second
    · exact .inl hsecond
    · -- the record of another process is not touched
      refine .inr (hfollows ?_)
      have htable : (Effect.applyAll s (.count .yield :: requeued)).table = s.table :=
        hcounted.frame.1
      rw [Effect.applyAll_append] at hrunnable
      rw [← htable]
      generalize Effect.applyAll s (.count .yield :: requeued) = t at hrunnable ⊢
      cases replenish <;>
        simpa [Effect.applyAll, Effect.apply, Table.record_adjust, Ne.symm hsecond] using hrunnable

end Kernel

end FeedbackQueue
