import FeedbackQueue.Proofs.Queue.Sound

/-!
# The order of a queue

A move puts its slot at a tail and leaves all others in their order.  So behind a slot that stays in
its queue there are only those that were behind it before, and those that have been moved since
(`Trails.relink`).
-/

namespace FeedbackQueue.Queues

variable {levels nproc : Nat}

/-- If the second slot is in the active queue of a level, it comes after the first. -/
def Trails (q : Queues levels nproc) (level : Nat) (first second : Fin nproc) : Prop :=
  q.location second = some (level, .active) →
    [first, second].Sublist (q.members level .active)

/-! ## Two members of a list -/

section Lists

variable {α : Type} {first second x : α} {front back items : List α}

/-- In a list without repetitions, what comes before a member is in front of it. -/
theorem mem_front_of_sublist (h : [first, second].Sublist (front ++ second :: back))
    (hnodup : (front ++ second :: back).Nodup) : first ∈ front := by
  have hne : first ≠ second := by simpa using h.nodup hnodup
  obtain ⟨left, right, heq, hleft, hright⟩ := List.sublist_append_iff.mp h
  cases left with
  | cons a rest =>
    obtain ⟨rfl, -⟩ := List.cons.inj heq
    exact hleft.subset List.mem_cons_self
  | nil =>
    subst heq
    have hback : [first, second].Sublist back := by
      cases hright with
      | cons _ hback => exact hback
      | cons_cons => exact absurd rfl hne
    have hagain := hback.subset (List.mem_cons_of_mem first List.mem_cons_self)
    exact absurd hagain (List.nodup_cons.mp (List.nodup_append.mp hnodup).2.1).1

theorem sublist_filter_ne [DecidableEq α] (h : [first, second].Sublist items) (hfirst : first ≠ x)
    (hsecond : second ≠ x) : [first, second].Sublist (items.filter (· != x)) := by
  have hfilter := h.filter (· != x)
  simpa [hfirst, hsecond] using hfilter

end Lists

namespace Trails

variable {q q' : Queues levels nproc} {level : Nat} {first second slot : Fin nproc}

/-- Queues with the same members have the same order. -/
theorem congr (h : q.Trails level first second)
    (hmembers : q'.members level .active = q.members level .active)
    (hplace : q'.location second = some (level, .active) →
      q.location second = some (level, .active)) : q'.Trails level first second := by
  intro hsecond
  rw [hmembers]
  exact h (hplace hsecond)

/-- Two slots that stay keep their order, and a slot that is moved comes after all others. -/
theorem relink (hq : q.Sound) (hfirst : q.location first = some (level, .active))
    (hne : first ≠ slot) {l : Nat} (hl : l < levels) (set : QueueSet)
    (h : slot = second ∨ q.Trails level first second) :
    (q.relink slot l set).Trails level first second := by
  intro hsecond
  obtain ⟨hlevel, hmem⟩ := (hq.location_eq_some_iff first level .active).mp hfirst
  have hplace := (hq.location_relink slot second hl set).symm.trans hsecond
  rw [(hq.spells.relink slot hl set).members hlevel .active, Sequences.relink]
  by_cases hslot : second = slot
  · subst hslot
    rw [if_pos rfl] at hplace
    cases hplace
    rw [Sequences.append_self]
    refine List.Sublist.append (List.singleton_sublist.mpr ?_) (List.Sublist.refl [second])
    exact List.mem_filter.mpr ⟨hmem, bne_iff_ne.mpr hne⟩
  · rw [if_neg hslot] at hplace
    have hkept : [first, second].Sublist (q.sequences.remove slot level .active) :=
      sublist_filter_ne (h.resolve_left (Ne.symm hslot) hplace) hne hslot
    by_cases hhere : level = l ∧ .active = set
    · obtain ⟨rfl, rfl⟩ := hhere
      rw [Sequences.append_self]
      exact hkept.trans (List.sublist_append_left _ _)
    · rw [Sequences.append_of_ne _ hhere]
      exact hkept

theorem relinkAll (h : q.Trails level first second) (hq : q.Sound)
    (hfirst : q.location first = some (level, .active)) {target : Nat} (ht : target < levels)
    (set : QueueSet) {slots : List (Fin nproc)} (hnot : first ∉ slots) :
    (q.relinkAll target set slots).Trails level first second := by
  induction slots generalizing q with
  | nil => exact h
  | cons slot rest ih =>
    rw [List.mem_cons, not_or] at hnot
    obtain ⟨hne, hrest⟩ := hnot
    have hd := destination_lt (q := q) set ht hq.home_lt slot
    refine ih (.relink hq hfirst hne hd set (.inr h)) (hq.relink slot hd set) ?_ hrest
    exact (hq.location_relink slot first hd set).trans ((if_neg hne).trans hfirst)

theorem remove (h : q.Trails level first second) (hq : q.Sound)
    (hfirst : q.location first = some (level, .active)) (hne : first ≠ slot) :
    (q.remove slot).Trails level first second := by
  intro hsecond
  have hlevel := hq.level_lt hfirst
  rw [location_remove] at hsecond
  split at hsecond
  case isTrue => cases hsecond
  case isFalse hslot =>
    rw [(hq.spells.remove slot).members hlevel .active]
    exact sublist_filter_ne (h hsecond) hne hslot

theorem detach (h : q.Trails level first second) (hq : q.Sound) (hlevel : level < levels)
    (hfree : q.isLinked slot = false) (home : Nat) :
    (q.adjustLink slot fun _ => .detached home).Trails level first second := by
  have hspells := hq.spells.detach (fun _ hl set => hq.spells.not_linked hfree hl set) home
  refine h.congr (hspells.members hlevel .active) fun hsecond => ?_
  rw [Sound.location_detach] at hsecond
  split at hsecond
  case isTrue => cases hsecond
  case isFalse => exact hsecond

theorem setTicks (h : q.Trails level first second) (hq : q.Sound) (hlevel : level < levels)
    (l : Nat) (set : QueueSet) (value : Int32) :
    (q.adjustLane l set fun lane => { lane with quantum := value }).Trails level first second :=
  h.congr ((hq.spells.setTicks l set value).members hlevel .active)
    fun hsecond => (Sound.location_setTicks ..).symm.trans hsecond

end Trails

end FeedbackQueue.Queues
