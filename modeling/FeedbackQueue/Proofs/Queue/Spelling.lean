import FeedbackQueue.Proofs.Queue.Links
import Mathlib.Data.Fintype.Card
import Mathlib.Data.List.Basic

/-!
# Moves keep queues well-formed

Linked queues that spell out some sequences still do so after a move, and the sequences have moved
in the same way.

* `Queues.Spells.remove`, `Queues.Spells.append`, `Queues.Spells.relink` — a slot leaves, joins or
  changes its queue;
* `Queues.Spells.swap` — the sets are exchanged;
* `Queues.Spells.members`, `Queues.Spells.location_eq_some_iff` — what is read off the links is what
  the sequences say.

A slot is taken out by bridging the gap it leaves: of the two halves of its queue, only the last
link of the first (`Chained.of_next`) and the first link of the second (`Chained.of_prev`) change.
-/

namespace FeedbackQueue

/-! ## Ends of a list

The head of a queue changes only when the queue has nothing in front, and so does its tail.
-/

section Ends

variable {α : Type} (front back : List α) (x : α)

theorem head?_append_eq_elim :
    (front ++ back).head? = front.getLast?.elim back.head? fun _ => (front ++ x :: back).head? := by
  cases front with
  | nil => rfl
  | cons first front => simp [List.getLast?_cons]

theorem getLast?_append_eq_elim :
    (front ++ back).getLast?
      = back.head?.elim front.getLast? fun _ => (front ++ x :: back).getLast? := by
  cases back with
  | nil => simp
  | cons first back => simp [List.getLast?_cons]

theorem head?_concat_eq_elim :
    (front ++ [x]).head? = front.getLast?.elim (some x) fun _ => front.head? := by
  cases front with
  | nil => rfl
  | cons first front => simp [List.getLast?_cons]

theorem getLast?_cons_or (before : Option α) :
    (x :: back).getLast?.or before = back.getLast?.or (some x) := by
  rw [List.getLast?_cons]
  cases back.getLast? <;> rfl

variable {front back x} in
theorem filter_ne_eq_append [DecidableEq α] (h : (front ++ x :: back).Nodup) :
    (front ++ x :: back).filter (· != x) = front ++ back := by
  have hnot : x ∉ front := fun hmem =>
    (List.nodup_append.mp h).2.2 x hmem x List.mem_cons_self rfl
  rw [← h.erase_eq_filter, List.erase_append_right _ hnot, List.erase_cons_head]

end Ends

/-! ## Sequences after a move -/

namespace Sequences

variable {nproc : Nat} (s : Sequences nproc) {slot : Fin nproc} {level l : Nat} {set t : QueueSet}

theorem not_mem_remove (s : Sequences nproc) (slot : Fin nproc) (level : Nat) (set : QueueSet) :
    slot ∉ (s.remove slot) level set := by
  simp [remove]

theorem remove_of_not_mem (h : slot ∉ s level set) : (s.remove slot) level set = s level set := by
  refine List.filter_eq_self.mpr fun y hy => bne_iff_ne.mpr ?_
  rintro rfl
  exact h hy

theorem append_self : (s.append slot level set) level set = s level set ++ [slot] :=
  if_pos ⟨rfl, rfl⟩

theorem append_of_ne (h : ¬(l = level ∧ t = set)) : (s.append slot level set) l t = s l t :=
  if_neg h

theorem mem_append {y : Fin nproc} :
    y ∈ (s.append slot level set) l t ↔ y ∈ s l t ∨ y = slot ∧ l = level ∧ t = set := by
  unfold append
  split
  case isTrue h => simp [h]
  case isFalse h => simp [h]

end Sequences

namespace Queues

variable {levels nproc : Nat}

/-! ## Chains -/

section Chains

variable {q q' : Queues levels nproc} {level : Nat} {set : QueueSet}
variable {before after before' after' : Option (Fin nproc)} {slots : List (Fin nproc)}

theorem Chained.congr (h : ∀ slot ∈ slots, q'.link slot = q.link slot)
    (hc : q.Chained level set before slots after) : q'.Chained level set before slots after := by
  induction slots generalizing before with
  | nil => trivial
  | cons slot rest ih =>
    obtain ⟨hslot, hrest⟩ := hc
    refine ⟨?_, ih (fun x hx => h x (List.mem_cons_of_mem _ hx)) hrest⟩
    rw [h slot List.mem_cons_self]
    exact hslot

theorem Chained.place_of_mem (hc : q.Chained level set before slots after) {slot : Fin nproc}
    (h : slot ∈ slots) :
    (q.link slot).level? = some level ∧ (q.link slot).inExpired = set.isExpired := by
  induction slots generalizing before with
  | nil => cases h
  | cons first rest ih =>
    obtain ⟨⟨hlevel, hset, -, -⟩, hrest⟩ := hc
    cases List.mem_cons.mp h with
    | inl heq => exact heq ▸ ⟨hlevel, hset⟩
    | inr hmem => exact ih hrest hmem

theorem chained_append_iff (front back : List (Fin nproc)) :
    q.Chained level set before (front ++ back) after
      ↔ q.Chained level set before front (back.head?.or after)
        ∧ q.Chained level set (front.getLast?.or before) back after := by
  induction front generalizing before with
  | nil => simp [Chained]
  | cons slot rest ih =>
    simp only [List.cons_append, Chained, ih, List.head?_append, getLast?_cons_or, Option.or_assoc,
      and_assoc]

/-- Only the last link of a chain says what follows it. -/
theorem Chained.of_next (hn : slots.Nodup)
    (h : ∀ slot ∈ slots, q'.link slot
      = if slots.getLast? = some slot then { q.link slot with next := after' } else q.link slot)
    (hc : q.Chained level set before slots after) : q'.Chained level set before slots after' := by
  induction slots generalizing before with
  | nil => trivial
  | cons slot rest ih =>
    obtain ⟨hslot, hrest⟩ := hc
    obtain ⟨hnot, hnodup⟩ := List.nodup_cons.mp hn
    cases rest with
    | nil =>
      rw [Chained, h slot List.mem_cons_self]
      exact ⟨by simpa using hslot.imp_right (·.imp_right And.left), trivial⟩
    | cons second tail =>
      have hlast : (slot :: second :: tail).getLast? = (second :: tail).getLast? := by simp
      refine ⟨?_, ih hnodup (fun x hx => ?_) hrest⟩
      · have hne : (slot :: second :: tail).getLast? ≠ some slot := fun heq =>
          hnot (List.mem_of_getLast? (hlast ▸ heq))
        rw [h slot List.mem_cons_self, if_neg hne]
        simpa using hslot
      · rw [h x (List.mem_cons_of_mem _ hx), hlast]

/-- Only the first link of a chain says what comes before it. -/
theorem Chained.of_prev (hn : slots.Nodup)
    (h : ∀ slot ∈ slots, q'.link slot
      = if slots.head? = some slot then { q.link slot with prev := before' } else q.link slot)
    (hc : q.Chained level set before slots after) : q'.Chained level set before' slots after := by
  cases slots with
  | nil => trivial
  | cons slot rest =>
    obtain ⟨hslot, hrest⟩ := hc
    obtain ⟨hnot, -⟩ := List.nodup_cons.mp hn
    refine ⟨?_, hrest.congr fun x hx => ?_⟩
    · rw [h slot List.mem_cons_self]
      simpa using ⟨hslot.1, hslot.2.1, hslot.2.2.2⟩
    · have hne : (slot :: rest).head? ≠ some x := by
        rintro ⟨⟩
        exact hnot hx
      rw [h x (List.mem_cons_of_mem _ hx), if_neg hne]

/-- The halves of a chain, with the gap between them bridged, are a chain. -/
theorem Chained.bridge {front back : List (Fin nproc)} {slot : Fin nproc}
    (hn : (front ++ slot :: back).Nodup)
    (h : ∀ y ≠ slot, q'.link y = { q.link y with
      next := if front.getLast? = some y then back.head? else (q.link y).next
      prev := if back.head? = some y then front.getLast? else (q.link y).prev })
    (hfront : q.Chained level set none front (some slot))
    (hback : q.Chained level set (some slot) back none) :
    q'.Chained level set none (front ++ back) none := by
  obtain ⟨hnfront, hncons, hapart⟩ := List.nodup_append.mp hn
  obtain ⟨hnotback, hnback⟩ := List.nodup_cons.mp hncons
  refine (chained_append_iff front back).mpr ⟨hfront.of_next hnfront fun y hy => ?_,
    hback.of_prev hnback fun y hy => ?_⟩
  · have hyb : back.head? ≠ some y := fun heq =>
      hapart y hy y (List.mem_cons_of_mem _ (List.mem_of_head? heq)) rfl
    rw [h y (hapart y hy slot List.mem_cons_self), if_neg hyb, Option.or_none]
    split <;> rfl
  · have hyf : front.getLast? ≠ some y := fun heq =>
      hapart y (List.mem_of_getLast? heq) y (List.mem_cons_of_mem _ hy) rfl
    rw [h y (fun heq => hnotback (heq ▸ hy)), if_neg hyf, Option.or_none]
    split <;> rfl

end Chains

namespace Spells

variable {q : Queues levels nproc} {s : Sequences nproc}

/-! ## What well-formed queues show -/

/-- Only the queues that exist matter. -/
theorem congr {s' : Sequences nproc} (h : q.Spells s)
    (hs : ∀ level < levels, ∀ set, s' level set = s level set) : q.Spells s' where
  ends level hl set := hs level hl set ▸ h.ends level hl set
  chained level hl set := hs level hl set ▸ h.chained level hl set
  nodup level hl set := hs level hl set ▸ h.nodup level hl set
  disjoint level hl level' hl' set set' :=
    hs level hl set ▸ hs level' hl' set' ▸ h.disjoint level hl level' hl' set set'
  detached slot hslot := h.detached slot fun level hl set => hs level hl set ▸ hslot level hl set

theorem length_le (h : q.Spells s) {level : Nat} (hl : level < levels) (set : QueueSet) :
    (s level set).length ≤ nproc := by
  simpa using (h.nodup level hl set).length_le_card

theorem walk_head? {level : Nat} {set : QueueSet} {before : Option (Fin nproc)}
    {slots : List (Fin nproc)} (hc : q.Chained level set before slots none) {fuel : Nat}
    (hf : slots.length ≤ fuel) : q.walk fuel slots.head? = slots := by
  induction slots generalizing before fuel with
  | nil => cases fuel <;> rfl
  | cons slot rest ih =>
    obtain ⟨⟨-, -, -, hnext⟩, hrest⟩ := hc
    cases fuel with
    | zero => simp at hf
    | succ fuel =>
      rw [List.head?_cons, walk, hnext, Option.or_none, ih hrest (by simpa using hf)]

theorem lane_eq (h : q.Spells s) {level : Nat} (hl : level < levels) (set : QueueSet) :
    ∃ lane, q.lane? level set = some lane ∧ lane.head = (s level set).head?
      ∧ lane.tail = (s level set).getLast? :=
  ⟨_, q.lane?_of_lt set hl, h.ends level hl set _ (q.lane?_of_lt set hl)⟩

theorem members (h : q.Spells s) {level : Nat} (hl : level < levels) (set : QueueSet) :
    q.members level set = s level set := by
  obtain ⟨lane, hlane, hhead, -⟩ := h.lane_eq hl set
  simp only [Queues.members, hlane, hhead]
  exact walk_head? (h.chained level hl set) (h.length_le hl set)

/-- The sequences of well-formed queues are the ones that are read off the links. -/
theorem sequences (h : q.Spells s) : q.Spells q.sequences :=
  h.congr fun _ hl set => h.members hl set

theorem location_eq_some_iff (h : q.Spells s) (slot : Fin nproc) (level : Nat) (set : QueueSet) :
    q.location slot = some (level, set) ↔ level < levels ∧ slot ∈ s level set := by
  have hplace : ∀ {l : Nat} {t : QueueSet}, l < levels → slot ∈ s l t →
      q.location slot = some (l, t) := by
    intro l t hl hmem
    obtain ⟨hlevel, hset⟩ := (h.chained l hl t).place_of_mem hmem
    simp [location, Link.location, hlevel, hset, QueueSet.ofExpired_isExpired]
  constructor
  · intro hloc
    by_cases hin : ∃ l < levels, ∃ t, slot ∈ s l t
    · obtain ⟨l, hl, t, hmem⟩ := hin
      obtain ⟨rfl, rfl⟩ : l = level ∧ t = set := by simpa [hplace hl hmem] using hloc
      exact ⟨hl, hmem⟩
    · push Not at hin
      simp [location, Link.location, (h.detached slot hin).1] at hloc
  · rintro ⟨hl, hmem⟩
    exact hplace hl hmem

theorem isLinked_iff (h : q.Spells s) (slot : Fin nproc) :
    q.isLinked slot = true ↔ ∃ level < levels, ∃ set, slot ∈ s level set := by
  have hsome : q.isLinked slot = (q.location slot).isSome := by
    simp [isLinked, location, Link.location, Link.isLinked]
  rw [hsome, Option.isSome_iff_exists]
  simp only [Prod.exists, h.location_eq_some_iff]
  constructor
  · rintro ⟨level, set, hl, hmem⟩
    exact ⟨level, hl, set, hmem⟩
  · rintro ⟨level, hl, set, hmem⟩
    exact ⟨level, set, hl, hmem⟩

theorem not_linked (h : q.Spells s) {slot : Fin nproc} (hs : q.isLinked slot = false) {level : Nat}
    (hl : level < levels) (set : QueueSet) : slot ∉ s level set := fun hmem => by
  rw [(h.isLinked_iff slot).mpr ⟨level, hl, set, hmem⟩] at hs
  cases hs

/-! ## A move that touches one queue -/

/-- After a move that touches one queue alone, only that queue and the slots in none have to be seen
to. -/
theorem of_touched {q' : Queues levels nproc} {s' : Sequences nproc} (h : q.Spells s) (level : Nat)
    (set : QueueSet)
    (hkept : ∀ l < levels, ∀ t, ¬(l = level ∧ t = set) →
      s' l t = s l t ∧ q'.lane? l t = q.lane? l t ∧
        ∀ y ∈ s l t, y ∉ s' level set ∧ q'.link y = q.link y)
    (hends : ∀ lane, q'.lane? level set = some lane →
      lane.head = (s' level set).head? ∧ lane.tail = (s' level set).getLast?)
    (hchained : q'.Chained level set none (s' level set) none) (hnodup : (s' level set).Nodup)
    (hdetached : ∀ y, (∀ l < levels, ∀ t, y ∉ s' l t) →
      (q'.link y).level? = none ∧ (q'.link y).prev = none ∧ (q'.link y).next = none) :
    q'.Spells s' where
  ends l hl t lane hlane := by
    by_cases hlt : l = level ∧ t = set
    · obtain ⟨rfl, rfl⟩ := hlt
      exact hends lane hlane
    · obtain ⟨hsame, hlanes, -⟩ := hkept l hl t hlt
      rw [hsame]
      exact h.ends l hl t lane (hlanes ▸ hlane)
  chained l hl t := by
    by_cases hlt : l = level ∧ t = set
    · obtain ⟨rfl, rfl⟩ := hlt
      exact hchained
    · obtain ⟨hsame, -, hlinks⟩ := hkept l hl t hlt
      rw [hsame]
      exact (h.chained l hl t).congr fun y hy => (hlinks y hy).2
  nodup l hl t := by
    by_cases hlt : l = level ∧ t = set
    · obtain ⟨rfl, rfl⟩ := hlt
      exact hnodup
    · rw [(hkept l hl t hlt).1]
      exact h.nodup l hl t
  disjoint l hl l' hl' t t' y hy hy' := by
    by_cases hlt : l = level ∧ t = set <;> by_cases hlt' : l' = level ∧ t' = set
    · exact ⟨hlt.1.trans hlt'.1.symm, hlt.2.trans hlt'.2.symm⟩
    · obtain ⟨rfl, rfl⟩ := hlt
      obtain ⟨hsame, -, hlinks⟩ := hkept l' hl' t' hlt'
      exact absurd hy (hlinks y (hsame ▸ hy')).1
    · obtain ⟨rfl, rfl⟩ := hlt'
      obtain ⟨hsame, -, hlinks⟩ := hkept l hl t hlt
      exact absurd hy' (hlinks y (hsame ▸ hy)).1
    · rw [(hkept l hl t hlt).1] at hy
      rw [(hkept l' hl' t' hlt').1] at hy'
      exact h.disjoint l hl l' hl' t t' y hy hy'
  detached := hdetached

/-! ## A slot leaves its queue -/

/-- The queue of a slot falls into what comes before it and what comes after. -/
theorem exists_split (h : q.Spells s) {level : Nat} (hl : level < levels) {set : QueueSet}
    {slot : Fin nproc} (hmem : slot ∈ s level set) :
    ∃ front back, s level set = front ++ slot :: back
      ∧ (front ++ slot :: back).Nodup
      ∧ q.Chained level set none front (some slot)
      ∧ (q.link slot).prev = front.getLast? ∧ (q.link slot).next = back.head?
      ∧ q.Chained level set (some slot) back none := by
  obtain ⟨front, back, hsplit⟩ := List.append_of_mem hmem
  have hc := h.chained level hl set
  rw [hsplit, chained_append_iff] at hc
  obtain ⟨hfront, ⟨-, -, hprev, hnext⟩, hback⟩ := hc
  exact ⟨front, back, hsplit, hsplit ▸ h.nodup level hl set, by simpa using hfront,
    by simpa using hprev, by simpa using hnext, hback⟩

theorem remove (h : q.Spells s) (slot : Fin nproc) : (q.remove slot).Spells (s.remove slot) := by
  by_cases hin : ∃ level < levels, ∃ set, slot ∈ s level set
  case neg =>
    push Not at hin
    rw [remove_of_not_linked q slot (h.detached slot hin).1]
    exact h.congr fun level hl set => s.remove_of_not_mem (hin level hl set)
  obtain ⟨level, hl, set, hmem⟩ := hin
  have hloc : q.location slot = some (level, set) :=
    (h.location_eq_some_iff slot level set).mpr ⟨hl, hmem⟩
  obtain ⟨hlevel, -⟩ := (h.chained level hl set).place_of_mem hmem
  obtain ⟨front, back, hsplit, hnodup, hfront, hprev, hnext, hback⟩ := h.exists_split hl hmem
  -- the queue of the slot closes the gap, and its other members alone are linked differently
  have hleft : (s.remove slot) level set = front ++ back := by
    rw [Sequences.remove, hsplit, filter_ne_eq_append hnodup]
  have hlink : ∀ y ≠ slot, (q.remove slot).link y = { q.link y with
      next := if front.getLast? = some y then back.head? else (q.link y).next
      prev := if back.head? = some y then front.getLast? else (q.link y).prev } := by
    intro y hy
    rw [link_remove q slot y (by simp [hlevel]), if_neg hy, hprev, hnext]
  have hother : ∀ y, y ∉ s level set → (q.remove slot).link y = q.link y := by
    intro y hy
    rw [hsplit] at hy
    have hyf : front.getLast? ≠ some y := fun heq =>
      hy (List.mem_append_left _ (List.mem_of_getLast? heq))
    have hyb : back.head? ≠ some y := fun heq =>
      hy (List.mem_append_right _ (List.mem_cons_of_mem _ (List.mem_of_head? heq)))
    rw [hlink y (fun heq => hy (heq ▸ by simp)), if_neg hyf, if_neg hyb]
  refine h.of_touched level set ?kept ?ends ?chained ?nodup ?detached
  case kept =>
    intro l hl' t hlt
    have hapart : ∀ y ∈ s l t, y ∉ s level set := fun y hy hy' =>
      hlt (h.disjoint l hl' level hl t set y hy hy')
    refine ⟨s.remove_of_not_mem fun hy => hapart slot hy hmem, ?_, fun y hy => ⟨?_, ?_⟩⟩
    · rw [lane?_remove q slot hloc, if_neg hlt]
    · exact fun hy' => hapart y hy (List.mem_of_mem_filter hy')
    · exact hother y (hapart y hy)
  case ends =>
    intro lane hlane
    obtain ⟨old, hold, hhead, htail⟩ := h.lane_eq hl set
    rw [lane?_remove q slot hloc, if_pos ⟨rfl, rfl⟩, hold, Option.map_some,
      Option.some.injEq] at hlane
    rw [← hlane, hleft, hprev, hnext, hhead, htail, hsplit]
    exact ⟨(head?_append_eq_elim front back slot).symm,
      (getLast?_append_eq_elim front back slot).symm⟩
  case chained =>
    rw [hleft]
    exact Chained.bridge hnodup hlink hfront hback
  case nodup => exact (h.nodup level hl set).filter _
  case detached =>
    intro y hy
    by_cases hys : y = slot
    · subst hys
      rw [link_remove q y y (by simp [hlevel]), if_pos rfl]
      exact ⟨rfl, rfl, rfl⟩
    · have hnot : ∀ l < levels, ∀ t, y ∉ s l t := fun l hl' t hmem' =>
        hy l hl' t (List.mem_filter.mpr ⟨hmem', bne_iff_ne.mpr hys⟩)
      rw [hother y (hnot level hl set)]
      exact h.detached y hnot

/-! ## A slot joins a queue -/

theorem append (h : q.Spells s) {slot : Fin nproc}
    (hfree : ∀ level < levels, ∀ set, slot ∉ s level set) {level : Nat} (hl : level < levels)
    (set : QueueSet) : (q.append slot level set).Spells (s.append slot level set) := by
  obtain ⟨old, hold, hhead, htail⟩ := h.lane_eq hl set
  have hlast : (q.lane? level set).bind Lane.tail = (s level set).getLast? := by
    rw [hold, Option.bind_some, htail]
  have hne : (s level set).getLast? ≠ some slot := fun heq =>
    hfree level hl set (List.mem_of_getLast? heq)
  have hlink : ∀ y, (q.append slot level set).link y
      = if y = slot then { q.link y with
            level? := some level, inExpired := set.isExpired
            prev := (s level set).getLast?, next := none }
        else if (s level set).getLast? = some y then { q.link y with next := some slot }
        else q.link y := by
    intro y
    rw [link_append q slot y level set (hlast ▸ hne), hlast]
  have hapart : ∀ l < levels, ∀ t, ∀ y ∈ s l t, y ≠ slot := by
    rintro l hl' t y hy rfl
    exact hfree l hl' t hy
  -- of the members of all queues, only the one at the tail is linked differently
  have hother : ∀ y, y ≠ slot → y ∉ s level set → (q.append slot level set).link y = q.link y := by
    intro y hys hy
    rw [hlink y, if_neg hys, if_neg fun heq => hy (List.mem_of_getLast? heq)]
  refine h.of_touched level set ?kept ?ends ?chained ?nodup ?detached
  case kept =>
    intro l hl' t hlt
    have hnot : ∀ y ∈ s l t, y ∉ s level set := fun y hy hy' =>
      hlt (h.disjoint l hl' level hl t set y hy hy')
    refine ⟨s.append_of_ne hlt, ?_, fun y hy => ⟨fun hy' => ?_, ?_⟩⟩
    · rw [lane?_append, if_neg hlt]
    · obtain hin | ⟨rfl, -⟩ := s.mem_append.mp hy'
      · exact hnot y hy hin
      · exact hfree l hl' t hy
    · exact hother y (hapart l hl' t y hy) (hnot y hy)
  case ends =>
    intro lane hlane
    rw [lane?_append, if_pos ⟨rfl, rfl⟩, hold, Option.map_some, Option.some.injEq] at hlane
    rw [← hlane, s.append_self, htail, hhead]
    exact ⟨(head?_concat_eq_elim (s level set) slot).symm, by simp⟩
  case chained =>
    rw [s.append_self, chained_append_iff]
    refine ⟨(h.chained level hl set).of_next (h.nodup level hl set) fun y hy => ?_, ⟨?_, trivial⟩⟩
    · rw [hlink y, if_neg (hapart level hl set y hy)]
      rfl
    · rw [hlink slot, if_pos rfl]
      simp
  case nodup =>
    rw [s.append_self]
    exact List.concat_eq_append ▸ (h.nodup level hl set).concat (hfree level hl set)
  case detached =>
    intro y hy
    have hys : y ≠ slot := fun heq => hy level hl set (s.mem_append.mpr (.inr ⟨heq, rfl, rfl⟩))
    have hnot : ∀ l < levels, ∀ t, y ∉ s l t := fun l hl' t hin =>
      hy l hl' t (s.mem_append.mpr (.inl hin))
    rw [hother y hys (hnot level hl set)]
    exact h.detached y hnot

theorem relink (h : q.Spells s) (slot : Fin nproc) {level : Nat} (hl : level < levels)
    (set : QueueSet) : (q.relink slot level set).Spells (s.relink slot level set) :=
  (h.remove slot).append (fun l _ t => s.not_mem_remove slot l t) hl set

end Spells

end Queues

end FeedbackQueue
