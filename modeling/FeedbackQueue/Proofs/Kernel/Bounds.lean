import FeedbackQueue.Proofs.Kernel.Timer
import FeedbackQueue.Proofs.Kernel.Turn
import FeedbackQueue.Proofs.Queue.Bounds

/-!
# Bounds of the scheduler

No process is queued above its home level, and neither a budget nor the ticks of a queue exceed what
they are filled with (`Scheduler.Bounded`).  Most effects keep that whatever they are applied to
(`Bounded.apply`); a yield keeps it because it moves processes down, or home.

A process stays on its level unless it yields, or exits, or somebody else drains the level
(`Effect.location_apply_of_keepsLevel`); where a yield takes it is told by `Requeues.sinks`.
-/

namespace FeedbackQueue

variable {cfg : Config} {s : Scheduler cfg} {slot : Fin cfg.maxProcs}

/-- Levels, budgets and ticks are within their bounds. -/
structure Scheduler.Bounded (s : Scheduler cfg) : Prop where
  queues : s.queues.Bounded cfg.levelQuantum
  budget_le : ∀ slot, (s.table.record slot).quantum ≤ cfg.procQuantum

theorem Scheduler.bounded_fresh (hv : cfg.IsValid) : (Scheduler.fresh cfg).Bounded where
  queues := Queues.bounded_empty ..
  budget_le slot := by
    simp only [fresh, Table.record_empty]
    exact Int32.le_of_lt hv.procQuantum_pos

/-! ## Effects -/

namespace Effect

/-- Whether a change keeps the bounds by itself.  What is queued again has to be seen to where it is
queued. -/
def isModest : Effect cfg → Bool
  | cascade source target set _ => set = .expired || source ≤ target
  | requeue .. => false
  | setTicks _ _ value => value ≤ cfg.levelQuantum
  | _ => true

end Effect

namespace Scheduler.Bounded

/-- An edit of a record that fills no budget beyond what a budget is filled with. -/
theorem budget_adjust (h : s.Bounded) {f : Record → Record}
    (hf : ∀ r, r.quantum ≤ cfg.procQuantum → (f r).quantum ≤ cfg.procQuantum)
    (y : Fin cfg.maxProcs) : ((s.table.adjust slot f).record y).quantum ≤ cfg.procQuantum := by
  rw [Table.record_adjust]
  split
  · exact hf _ (h.budget_le slot)
  · exact h.budget_le y

/-- The level that a slot is in, or else its home, is not above its home. -/
theorem home_le_levelOrHome (h : s.Bounded) (slot : Fin cfg.maxProcs) :
    (s.queues.link slot).home ≤ (s.queues.link slot).level?.getD (s.queues.link slot).home := by
  cases hlevel : (s.queues.link slot).level? with
  | none => exact Nat.le_refl _
  | some level =>
    refine h.queues.home_le slot level (.ofExpired (s.queues.link slot).inExpired) ?_
    simp [Queues.location, Link.location, hlevel]

theorem apply (h : s.Bounded) (hv : cfg.IsValid) (hs : s.Sound) {effect : Effect cfg}
    (ha : effect.Allowed s) (hmodest : effect.isModest = true) : (effect.apply s).Bounded := by
  have hpositive : (0 : Int32) ≤ cfg.procQuantum := Int32.le_of_lt hv.procQuantum_pos
  have hq := h.queues
  cases effect with
  | create y name parent home =>
    refine ⟨hq.detach y home, fun x => ?_⟩
    simp only [Effect.apply, Table.record_adjust, Table.record_claim]
    split
    · exact Int32.le_refl _
    · exact h.budget_le x
  | activate y =>
    refine ⟨?_, h.budget_adjust fun _ hr => hr⟩
    simp only [Effect.apply]
    split
    · exact hq.relink hs.queues (hs.queues.home_lt y) .active (Nat.le_refl _)
    · exact hq
  | reap y => exact ⟨hq, h.budget_adjust fun _ _ => hpositive⟩
  | mark y => exact ⟨hq, h.budget_adjust fun _ hr => hr⟩
  | charge y =>
    refine ⟨hq, h.budget_adjust fun r hr => ?_⟩
    simp only [Record.charge]
    split
    case isTrue => exact hr
    case isFalse hleft => exact sub_one_le hleft hr
  | refill y => exact ⟨hq, h.budget_adjust fun _ _ => Int32.le_refl _⟩
  | wake y =>
    refine ⟨hq, h.budget_adjust fun r hr => ?_⟩
    simp only [Record.woken]
    split
    · exact Int32.le_refl _
    · exact hr
  | dispatch cpu y => exact ⟨hq, h.budget_adjust fun _ hr => hr⟩
  | stop cpu y ending =>
    refine ⟨?_, h.budget_adjust fun r hr => by cases ending <;> exact hr⟩
    cases ending with
    | exit status =>
      simp only [Effect.apply]
      split
      · exact hq.remove y
      · exact hq
    | _ => exact hq
  | swap isLive => exact ⟨hq.swap isLive, h.budget_le⟩
  | cascade source target set skip =>
    refine ⟨hq.relinkAll hs.queues ha.2.1 set fun hset y hmem => ?_, h.budget_le⟩
    -- the slots come from the source, which is not below the target
    have hsource := hs.queues.location_of_mem_movers y skip ha.1 hmem
    have hdown : source ≤ target := by simpa [Effect.isModest, hset] using hmodest
    exact Nat.le_trans (hq.home_le y source .active hsource) hdown
  | requeue y level set => cases hmodest
  | rejoin y pid =>
    refine ⟨hq.relink hs.queues ?_ .active (h.home_le_levelOrHome y), h.budget_le⟩
    exact hs.queues.levelOrHome_lt y
  | setTicks level set value =>
    exact ⟨hq.setTicks level set (by simpa [Effect.isModest] using hmodest), h.budget_le⟩
  | _ => exact ⟨hq, h.budget_le⟩

theorem requeue (h : s.Bounded) (hs : s.Sound) {level : Nat} {set : QueueSet}
    (ha : (Effect.requeue slot level set).Allowed s)
    (hhome : (s.queues.link slot).home ≤ level) :
    ((Effect.requeue slot level set).apply s).Bounded :=
  ⟨h.queues.relink hs.queues ha.2.2 set hhome, h.budget_le⟩

theorem applyAll (h : s.Bounded) (hv : cfg.IsValid) (hs : s.Sound) {effects : List (Effect cfg)}
    (ha : Effect.AllowedAll s effects) (hmodest : ∀ effect ∈ effects, effect.isModest = true) :
    (Effect.applyAll s effects).Bounded :=
  (Effect.applyAll_induction (P := fun t => t.Sound ∧ t.Bounded) ⟨hs, h⟩ ha
    fun effect hmem _ hallowed ⟨ht, hbounded⟩ =>
      ⟨ht.apply hallowed, hbounded.apply hv ht hallowed (hmodest effect hmem)⟩).2

end Scheduler.Bounded

/-! ## Levels -/

namespace Effect

/-- Whether a change leaves every process that is in a queue on its level. -/
def keepsLevels : Effect cfg → Bool
  | cascade .. | requeue .. | stop _ _ (.exit _) => false
  | _ => true

/-- Whether a change neither takes a process off its level nor touches the ticks of a queue. -/
def isCalm : Effect cfg → Bool
  | cascade .. | requeue .. | stop _ _ (.exit _) | setTicks .. => false
  | _ => true

theorem isModest_of_isCalm {effect : Effect cfg} (h : effect.isCalm = true) :
    effect.isModest = true := by
  cases effect <;> first | rfl | cases h

theorem keepsLevels_of_isCalm {effect : Effect cfg} (h : effect.isCalm = true) :
    effect.keepsLevels = true := by
  cases effect with
  | stop cpu slot ending => cases ending <;> first | rfl | cases h
  | _ => first | rfl | cases h

/-- A process that is in a queue stays on its level, and keeps its home. -/
theorem level_apply (hs : s.Sound) {level : Nat}
    (hlevel : ∃ set, s.queues.location slot = some (level, set)) {effect : Effect cfg}
    (ha : effect.Allowed s) (hkeeps : effect.keepsLevels = true) :
    (∃ set, (effect.apply s).queues.location slot = some (level, set)) ∧
      ((effect.apply s).queues.link slot).home = (s.queues.link slot).home := by
  obtain ⟨set, hplace⟩ := hlevel
  have hother : ∀ {y state}, (s.table.record y).state = state → state.isQueued = false →
      slot ≠ y := by
    rintro y state rfl hstate rfl
    exact Bool.false_ne_true (hstate.symm.trans (hs.queued_of_location hplace).2)
  have hq := hs.queues
  cases effect with
  | create y name parent home =>
    have hne := hother ha.1 rfl
    refine ⟨⟨set, ?_⟩, ?_⟩
    · exact (Queues.Sound.location_detach y slot _ home).trans ((if_neg hne).trans hplace)
    · simp only [apply, Queues.link_adjustLink, if_neg hne]
  | activate y =>
    have hne := hother ha rfl
    simp only [apply]
    split
    · rw [hq.location_relink y slot (hq.home_lt y), if_neg hne, Queues.home_relink]
      exact ⟨⟨set, hplace⟩, rfl⟩
    · exact ⟨⟨set, hplace⟩, rfl⟩
  | stop cpu y ending =>
    cases ending with
    | exit status => cases hkeeps
    | _ => exact ⟨⟨set, hplace⟩, rfl⟩
  | swap isLive =>
    refine ⟨⟨set.other, ?_⟩, Queues.home_swap ..⟩
    rw [apply, Queues.location_swap, hplace]
    rfl
  | cascade source target set skip => cases hkeeps
  | requeue y level set => cases hkeeps
  | rejoin y pid =>
    refine ⟨?_, Queues.home_relink ..⟩
    have hmoved := hq.location_relink y slot (hq.levelOrHome_lt y) .active
    by_cases hy : slot = y
    · subst hy
      -- the level that it joins is its own
      obtain ⟨l, hl, heq⟩ := Option.map_eq_some_iff.mp hplace
      cases heq
      refine ⟨.active, hmoved.trans ?_⟩
      rw [if_pos rfl, hl, Option.getD_some]
    · exact ⟨set, hmoved.trans ((if_neg hy).trans hplace)⟩
  | setTicks l t value =>
    refine ⟨⟨set, ?_⟩, by simp [apply]⟩
    exact (Queues.Sound.location_setTicks slot _ l t _).trans hplace
  | _ => exact ⟨⟨set, hplace⟩, rfl⟩

theorem level_applyAll (hs : s.Sound) {level : Nat}
    (hlevel : ∃ set, s.queues.location slot = some (level, set)) {effects : List (Effect cfg)}
    (ha : AllowedAll s effects) (hkeeps : ∀ effect ∈ effects, effect.keepsLevels = true) :
    (∃ set, (applyAll s effects).queues.location slot = some (level, set)) ∧
      ((applyAll s effects).queues.link slot).home = (s.queues.link slot).home := by
  have hkept := applyAll_induction
    (P := fun t => t.Sound ∧ (∃ set, t.queues.location slot = some (level, set)) ∧
      (t.queues.link slot).home = (s.queues.link slot).home)
    ⟨hs, hlevel, rfl⟩ ha fun effect hmem t hallowed ⟨ht, hplace, hhome⟩ => by
      obtain ⟨hnext, hsame⟩ := level_apply ht hplace hallowed (hkeeps effect hmem)
      exact ⟨ht.apply hallowed, hnext, hsame.trans hhome⟩
  exact hkept.2

end Effect

/-! ## Yields -/

/-- A process has gone down from a level in the active set, or home into the expired set. -/
def Scheduler.HasSunk (s : Scheduler cfg) (slot : Fin cfg.maxProcs) (level : Nat) : Prop :=
  (∃ lower, level ≤ lower ∧ s.queues.location slot = some (lower, .active)) ∨
    s.queues.location slot = some ((s.queues.link slot).home, .expired)

namespace Kernel

namespace Requeues

variable {replenish : Bool} {effects : List (Effect cfg)}

/-- A level is drained into the active set only downwards. -/
theorem modest_cascadeEffects {level home : Nat} {left : Int32} {d : Decision}
    (h : s.queues.decision level home left = .ok d) :
    ∀ effect ∈ cascadeEffects s slot level d ++ moveEffects cfg level d,
      effect.isModest = true := by
  have hcascade : (.cascade level d.level d.set (some slot.val) : Effect cfg).isModest = true := by
    obtain ⟨hlevel, -⟩ | ⟨hlower, -⟩ | ⟨-, -, hset, -⟩ := Queues.decision_cases h
    · simp [Effect.isModest, hlevel]
    · simp [Effect.isModest, Nat.le_of_lt (Queues.lowerLevel?_eq_some hlower).1]
    · simp [Effect.isModest, hset]
  unfold cascadeEffects moveEffects
  split_ifs <;> simp [hcascade] <;> simp [Effect.isModest]

/-- Being queued again keeps the bounds. -/
theorem bounded (h : Requeues s slot replenish effects) (hv : cfg.IsValid) (hs : s.Sound)
    (hb : s.Bounded) (ha : Effect.AllowedAll s effects) : (Effect.applyAll s effects).Bounded := by
  cases h with
  | scan policy => exact hb
  | roundRobin policy => exact hb.requeue hs ha.1 (Nat.le_refl _)
  | @feedback policy level set d place decision =>
    obtain ⟨hbefore, hrequeue, -⟩ := Effect.allowedAll_append.mp ha
    have hdrained := hb.applyAll hv hs hbefore (modest_cascadeEffects decision)
    rw [Effect.applyAll_append]
    refine hdrained.requeue (hs.applyAll hbefore) hrequeue ?_
    rw [home_cascadeEffects]
    have hhome := hb.queues.home_le slot level set place
    obtain ⟨hlevel, -⟩ | ⟨hlower, -⟩ | ⟨-, hlevel, -⟩ := Queues.decision_cases decision
    · exact hlevel ▸ hhome
    · exact Nat.le_trans hhome (Nat.le_of_lt (Queues.lowerLevel?_eq_some hlower).1)
    · exact Nat.le_of_eq hlevel.symm

/-- Where a level is drained, those that leave it sink. -/
theorem sinks_of_drain (slot : Fin cfg.maxProcs) (hs : s.Sound) {source home : Nat} {left : Int32}
    {d : Decision} (hsource : source < cfg.levels) (hd : d.level < cfg.levels)
    (h : s.queues.decision source home left = .ok d) {y : Fin cfg.maxProcs} {level : Nat}
    {set : QueueSet} (hplace : s.queues.location y = some (level, set)) :
    let t := Effect.applyAll s (cascadeEffects s slot source d ++ moveEffects cfg source d)
    set = .active ∧ t.HasSunk y level ∨ t.queues.location y = some (level, set) := by
  dsimp only [Scheduler.HasSunk]
  rw [home_cascadeEffects, queues_cascadeEffects]
  split
  case isFalse => exact .inr hplace
  case isTrue hcascade =>
    rw [hs.queues.location_relinkAll y d.set hd]
    split
    case isFalse => exact .inr hplace
    case isTrue hmem =>
      left
      have hfrom := hs.queues.location_of_mem_movers y _ hsource hmem
      obtain ⟨rfl, rfl⟩ := Prod.mk.inj (Option.some.inj (hfrom.symm.trans hplace))
      obtain ⟨-, -, -, hno⟩ | ⟨hlower, hset, -⟩ | ⟨-, -, hset, -⟩ := Queues.decision_cases h
      · cases hno.symm.trans hcascade
      · refine ⟨rfl, .inl ⟨d.level, Nat.le_of_lt (Queues.lowerLevel?_eq_some hlower).1, ?_⟩⟩
        simp [Queues.destination, hset]
      · refine ⟨rfl, .inr ?_⟩
        simp [Queues.destination, hset]

/-- A yield sinks the process that yields and those that it takes along.  All others stay where they
are. -/
theorem sinks (h : Requeues s slot replenish effects) (hv : cfg.IsValid) (hs : s.Sound)
    (ha : Effect.AllowedAll s effects) {y : Fin cfg.maxProcs} {level : Nat} {set : QueueSet}
    (hplace : s.queues.location y = some (level, set)) :
    let t := Effect.applyAll s effects
    (t.queues.link y).home = (s.queues.link y).home ∧
      ((y = slot ∨ set = .active) ∧ t.HasSunk y level ∨
        y ≠ slot ∧ t.queues.location y = some (level, set)) := by
  have hl := hs.queues.level_lt hplace
  cases h with
  | scan policy =>
    have huse := (hs.queued_of_location hplace).1
    rw [policy] at huse
    cases huse
  | roundRobin policy =>
    have hmoved := hs.queues.location_relink slot y ha.1.2.2 .active
    have hone := hv.levels_of_roundRobin policy
    refine ⟨Queues.home_relink .., ?_⟩
    by_cases hy : y = slot
    · refine .inl ⟨.inl hy, .inl ⟨_, ?_, hmoved.trans (if_pos hy)⟩⟩
      omega
    · exact .inr ⟨hy, hmoved.trans ((if_neg hy).trans hplace)⟩
  | @feedback policy source from' d place decision =>
    obtain ⟨hbefore, ⟨-, -, hd⟩, -⟩ := Effect.allowedAll_append.mp ha
    let t := Effect.applyAll s (cascadeEffects s slot source d ++ moveEffects cfg source d)
    have ht : t.Sound := hs.applyAll hbefore
    have hmoved := ht.queues.location_relink slot y hd d.set
    have hhome : ((t.queues.relink slot d.level d.set).link y).home = (s.queues.link y).home :=
      (Queues.home_relink ..).trans (home_cascadeEffects y source d)
    have hqueues : (Effect.applyAll s (cascadeEffects s slot source d ++ moveEffects cfg source d
        ++ [.requeue slot d.level d.set])).queues = t.queues.relink slot d.level d.set := by
      rw [Effect.applyAll_append]
      rfl
    dsimp only [Scheduler.HasSunk]
    rw [hqueues, hhome]
    refine ⟨rfl, ?_⟩
    by_cases hy : y = slot
    · subst hy
      rw [if_pos rfl] at hmoved
      obtain ⟨rfl, -⟩ := Prod.mk.inj (Option.some.inj (place.symm.trans hplace))
      refine .inl ⟨.inl rfl, ?_⟩
      obtain ⟨hlevel, hset, -⟩ | ⟨hlower, hset, -⟩ | ⟨-, hlevel, hset, -⟩ :=
        Queues.decision_cases decision
      · exact .inl ⟨d.level, Nat.le_of_eq hlevel.symm, hset ▸ hmoved⟩
      · exact .inl ⟨d.level, Nat.le_of_lt (Queues.lowerLevel?_eq_some hlower).1, hset ▸ hmoved⟩
      · exact .inr (hmoved.trans (by rw [hlevel, hset]))
    · rw [if_neg hy] at hmoved
      have hdrain := sinks_of_drain slot hs (hs.queues.level_lt place) hd decision hplace
      dsimp only [Scheduler.HasSunk] at hdrain
      rw [home_cascadeEffects] at hdrain
      rw [hmoved]
      exact hdrain.imp (And.imp_left .inr) fun hkept => ⟨hy, hkept⟩

end Requeues

/-- The end of a turn keeps the bounds. -/
theorem Ends.bounded {cpu : Fin cfg.ncpu} {ending : Ending} {effects : List (Effect cfg)}
    (h : Ends s cpu slot ending effects) (hv : cfg.IsValid) (hs : s.Sound) (hb : s.Bounded)
    (ha : Effect.AllowedAll s effects) : (Effect.applyAll s effects).Bounded := by
  cases h with
  | @yield replenish requeued requeues =>
    rw [List.append_assoc] at ha ⊢
    obtain ⟨⟨hcount, hrequeued⟩, hrest⟩ := Effect.allowedAll_append.mp ha
    have hcounted : ((Effect.count .yield).apply s).Bounded := hb.apply hv hs hcount rfl
    have hqueued :=
      (Requeues.count_iff.mpr requeues).bounded hv (hs.apply hcount) hcounted hrequeued
    rw [Effect.applyAll_append]
    refine hqueued.applyAll hv ((hs.apply hcount).applyAll hrequeued) hrest ?_
    cases replenish <;> simp [Effect.isModest]
  | sleep channel => exact hb.applyAll hv hs ha (by simp [Effect.isModest])
  | exit status => exact hb.applyAll hv hs ha (by simp [Effect.isModest])

/-- Ticks keep the bounds: what is counted down gets less, because a queue without a tick left is
not charged. -/
theorem ChargesAll.bounded {cpu : Fin cfg.ncpu} {answers : List Bool} {effects : List (Effect cfg)}
    (h : ChargesAll cpu s answers effects) (hv : cfg.IsValid) (hs : s.Sound) (hb : s.Bounded)
    (ha : Effect.AllowedAll s effects) : (Effect.applyAll s effects).Bounded := by
  induction h with
  | nil => exact hb
  | @cons s answer answers first rest charges _ ih =>
    obtain ⟨hfirst, hrest⟩ := Effect.allowedAll_append.mp ha
    have hmodest : ∀ effect ∈ first, effect.isModest = true := by
      cases charges with
      | @feedback slot level set lane policy current place ticks left =>
        have hle := hb.queues.ticks_le level set lane.quantum
          (Queues.quantum_eq_of_lane? _ level set lane ticks)
        simp [Effect.isModest, sub_one_le left hle]
      | _ => simp [Effect.isModest]
    rw [Effect.applyAll_append]
    exact ih (hs.applyAll hfirst) (hb.applyAll hv hs hfirst hmodest) hrest

end Kernel

end FeedbackQueue
