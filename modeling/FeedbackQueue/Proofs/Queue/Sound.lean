import FeedbackQueue.Proofs.Queue.Moves

/-!
# Sound queues

Queues are sound when they are well-formed and every slot has a home among their levels.  Every move
that the scheduler makes keeps them sound, and what it does can then be told by the places of the
slots alone.
-/

namespace FeedbackQueue.Queues

variable {levels nproc : Nat}

/-- The queues are well-formed and every home level exists. -/
structure Sound (q : Queues levels nproc) : Prop where
  wellFormed : q.WellFormed
  home_lt : ∀ slot, (q.link slot).home < levels

theorem isLinked_eq_isSome_location (q : Queues levels nproc) (slot : Fin nproc) :
    q.isLinked slot = (q.location slot).isSome := by
  simp [isLinked, location, Link.isLinked, Link.location]

theorem lt_of_mem_members {q : Queues levels nproc} {slot : Fin nproc} {level : Nat}
    {set : QueueSet} (h : slot ∈ q.members level set) : level < levels := by
  refine Nat.lt_of_not_le fun hl => ?_
  simp [members, lane?_eq_none q set hl] at h

namespace Sound

variable {q : Queues levels nproc}

theorem spells (h : q.Sound) : q.Spells q.sequences := by
  obtain ⟨s, hs⟩ := h.wellFormed
  exact hs.sequences

theorem location_eq_some_iff (h : q.Sound) (slot : Fin nproc) (level : Nat) (set : QueueSet) :
    q.location slot = some (level, set) ↔ level < levels ∧ slot ∈ q.members level set :=
  h.spells.location_eq_some_iff slot level set

theorem level_lt (h : q.Sound) {slot : Fin nproc} {level : Nat} {set : QueueSet}
    (hplace : q.location slot = some (level, set)) : level < levels :=
  ((h.location_eq_some_iff slot level set).mp hplace).1

/-- A slot is linked exactly when it is a member of a queue. -/
theorem isLinked_iff (h : q.Sound) (slot : Fin nproc) :
    q.isLinked slot = true ↔ ∃ level < levels, ∃ set, slot ∈ q.members level set :=
  h.spells.isLinked_iff slot

/-- What is linked is what a walk finds. -/
theorem exists_mem_members_iff (h : q.Sound) (slot : Fin nproc) :
    (∃ level set, slot ∈ q.members level set) ↔ q.isLinked slot = true := by
  rw [h.isLinked_iff]
  constructor
  · rintro ⟨level, set, hmem⟩
    exact ⟨level, lt_of_mem_members hmem, set, hmem⟩
  · rintro ⟨level, -, set, hmem⟩
    exact ⟨level, set, hmem⟩

/-- The level that a slot is in, or else its home, exists. -/
theorem levelOrHome_lt (h : q.Sound) (slot : Fin nproc) :
    (q.link slot).level?.getD (q.link slot).home < levels := by
  cases hlevel : (q.link slot).level? with
  | none => exact h.home_lt slot
  | some level =>
    have hplace : q.location slot = some (level, .ofExpired (q.link slot).inExpired) := by
      simp [location, Link.location, hlevel]
    exact h.level_lt hplace

/-! ## Moves -/

variable (slot y : Fin nproc)

theorem relink (h : q.Sound) {level : Nat} (hl : level < levels) (set : QueueSet) :
    (q.relink slot level set).Sound where
  wellFormed := ⟨_, h.spells.relink slot hl set⟩
  home_lt y := by simpa using h.home_lt y

theorem location_relink (h : q.Sound) {level : Nat} (hl : level < levels) (set : QueueSet) :
    (q.relink slot level set).location y = if y = slot then some (level, set) else q.location y :=
  h.spells.location_relink slot y hl set

theorem isLinked_relink (h : q.Sound) {level : Nat} (hl : level < levels) (set : QueueSet) :
    (q.relink slot level set).isLinked y = (decide (y = slot) || q.isLinked y) := by
  rw [isLinked_eq_isSome_location, h.location_relink slot y hl set, isLinked_eq_isSome_location]
  by_cases hy : y = slot <;> simp [hy]

theorem remove (h : q.Sound) : (q.remove slot).Sound where
  wellFormed := ⟨_, h.spells.remove slot⟩
  home_lt y := by simpa using h.home_lt y

theorem isLinked_remove (q : Queues levels nproc) :
    (q.remove slot).isLinked y = (!decide (y = slot) && q.isLinked y) := by
  rw [isLinked_eq_isSome_location, location_remove, isLinked_eq_isSome_location]
  by_cases hy : y = slot <;> simp [hy]

theorem swap (h : q.Sound) (isLive : Fin nproc → Bool) : (q.swap isLive).Sound where
  wellFormed := ⟨_, h.spells.swap isLive⟩
  home_lt y := by simpa using h.home_lt y

theorem isLinked_swap (q : Queues levels nproc) (isLive : Fin nproc → Bool) :
    (q.swap isLive).isLinked y = q.isLinked y := by
  simp [isLinked_eq_isSome_location, location_swap]

/-- An exchange turns the members of each set into those of the other. -/
theorem members_swap (h : q.Sound) (isLive : Fin nproc → Bool) (level : Nat) (set : QueueSet) :
    (q.swap isLive).members level set = q.members level set.other := by
  by_cases hl : level < levels
  · exact (h.spells.swap isLive).members hl set
  · have hl := Nat.not_lt.mp hl
    simp [members, lane?_eq_none _ _ hl]

theorem detach (h : q.Sound) (hfree : q.isLinked slot = false) {home : Nat}
    (hhome : home < levels) :
    (q.adjustLink slot fun _ => .detached home).Sound where
  wellFormed := ⟨_, h.spells.detach (fun _ hl set => h.spells.not_linked hfree hl set) home⟩
  home_lt y := by
    rw [link_adjustLink]
    split
    · exact hhome
    · exact h.home_lt y

theorem location_detach (q : Queues levels nproc) (home : Nat) :
    (q.adjustLink slot fun _ => .detached home).location y
      = if y = slot then none else q.location y := by
  unfold location
  rw [link_adjustLink]
  split <;> rfl

theorem setTicks (h : q.Sound) (level : Nat) (set : QueueSet) (value : Int32) :
    (q.adjustLane level set fun lane => { lane with quantum := value }).Sound where
  wellFormed := ⟨_, h.spells.setTicks level set value⟩
  home_lt y := by simpa using h.home_lt y

theorem location_setTicks (q : Queues levels nproc) (level : Nat) (set : QueueSet)
    (f : Lane nproc → Lane nproc) : (q.adjustLane level set f).location y = q.location y := by
  simp [location]

/-! ## Draining a queue -/

section Drain

variable {source target : Nat} (set : QueueSet) (skip : Option Nat)

theorem relinkAll (h : q.Sound) (ht : target < levels) (slots : List (Fin nproc)) :
    (q.relinkAll target set slots).Sound where
  wellFormed := ⟨_, h.spells.relinkAll set ht h.home_lt slots⟩
  home_lt y := by simpa using h.home_lt y

theorem location_relinkAll (h : q.Sound) (ht : target < levels) (slots : List (Fin nproc)) :
    (q.relinkAll target set slots).location y
      = if y ∈ slots then some (q.destination target set y, set) else q.location y :=
  h.spells.location_relinkAll ht h.home_lt y

theorem drain_eq (h : q.Sound) (hsource : source < levels) (ht : target < levels)
    (hne : set = .active → target ≠ source) :
    q.drain source target set skip
      = .ok ((q.sequences.movers source skip).length,
          q.relinkAll target set (q.sequences.movers source skip)) :=
  h.spells.drain_eq hsource ht hne h.home_lt skip

/-- The slots that leave a drained queue were in it. -/
theorem location_of_mem_movers (h : q.Sound) (hsource : source < levels)
    (hmem : slot ∈ q.sequences.movers source skip) :
    q.location slot = some (source, .active) :=
  (h.location_eq_some_iff ..).mpr ⟨hsource, (List.mem_filter.mp hmem).1⟩

theorem isLinked_cascade (h : q.Sound) (hsource : source < levels) (ht : target < levels) :
    (q.relinkAll target set (q.sequences.movers source skip)).isLinked y = q.isLinked y := by
  rw [isLinked_eq_isSome_location, h.location_relinkAll y set ht, isLinked_eq_isSome_location]
  split
  case isTrue hmem => simp [h.location_of_mem_movers y skip hsource hmem]
  case isFalse => rfl

end Drain

end Sound

theorem sound_empty (levels nproc : Nat) (hl : 0 < levels) (refill : Int32) :
    (empty levels nproc refill).Sound where
  wellFormed := ⟨_, spells_empty levels nproc refill⟩
  home_lt slot := by simpa [empty, link, Link.detached] using hl

end FeedbackQueue.Queues
