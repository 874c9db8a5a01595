import FeedbackQueue.Proofs.Queue.Sound

/-!
# Bounds of the queues

No slot is queued above its home level, and no queue has more ticks than it is filled with.  A move
down, or home, keeps that.
-/

namespace FeedbackQueue.Queues

variable {levels nproc : Nat}

/-- Every slot in a queue is at its home level or below, and no queue has more ticks than the
bound. -/
structure Bounded (q : Queues levels nproc) (bound : Int32) : Prop where
  home_le : ∀ slot level set, q.location slot = some (level, set) → (q.link slot).home ≤ level
  ticks_le : ∀ level set ticks, q.quantum level set = .ok ticks → ticks ≤ bound
  refill_le : q.refill ≤ bound

theorem bounded_empty (levels nproc : Nat) (refill : Int32) :
    (empty levels nproc refill).Bounded refill where
  home_le slot level set hplace := by
    simp [empty, location, link, Link.detached, Link.location] at hplace
  ticks_le level set ticks hticks := by
    have hrefill : ∀ lane, (empty levels nproc refill).lane? level set = some lane →
        lane.quantum = refill := by
      intro lane hlane
      cases set <;> simp [empty, lane?, lanes, Vector.getElem?_replicate] at hlane <;>
        rw [← hlane.2] <;> rfl
    cases hlane : (empty levels nproc refill).lane? level set with
    | none => simp [quantum, Queues.lane, hlane, Except.map] at hticks
    | some lane =>
      rw [quantum_eq_of_lane? _ _ _ lane hlane, hrefill lane hlane] at hticks
      cases hticks
      exact Int32.le_refl _
  refill_le := Int32.le_refl _

/-- An answer that is replaced, whatever it was. -/
theorem eq_of_map_const {ε α β : Type} {x : Except ε α} {b c : β}
    (h : (x.map fun _ => b) = .ok c) : b = c := by
  cases x with
  | error fault => cases h
  | ok a => exact Except.ok.inj h

namespace Bounded

variable {q : Queues levels nproc} {bound : Int32} {slot : Fin nproc}

/-- A move that changes neither homes nor ticks has to take no slot above its home. -/
theorem of_move {q' : Queues levels nproc} (h : q.Bounded bound)
    (hplace : ∀ y level set, q'.location y = some (level, set) → (q.link y).home ≤ level)
    (hhome : ∀ y, (q'.link y).home = (q.link y).home)
    (hquantum : ∀ level set, q'.quantum level set = q.quantum level set)
    (hrefill : q'.refill = q.refill) : q'.Bounded bound where
  home_le y level set hy := (hhome y).symm ▸ hplace y level set hy
  ticks_le level set ticks hticks := h.ticks_le level set ticks (hquantum level set ▸ hticks)
  refill_le := hrefill ▸ h.refill_le

theorem relink (h : q.Bounded bound) (hq : q.Sound) {level : Nat} (hl : level < levels)
    (set : QueueSet) (hhome : (q.link slot).home ≤ level) :
    (q.relink slot level set).Bounded bound := by
  refine h.of_move ?_ (fun y => home_relink ..) (fun l t => quantum_relink ..) (refill_relink ..)
  intro y l t hy
  rw [hq.location_relink slot y hl set] at hy
  split at hy
  case isTrue heq =>
    cases hy
    exact heq ▸ hhome
  case isFalse => exact h.home_le y l t hy

theorem remove (h : q.Bounded bound) (slot : Fin nproc) : (q.remove slot).Bounded bound := by
  refine h.of_move ?_ (fun y => home_remove ..) (fun l t => quantum_remove ..) (refill_remove ..)
  intro y l t hy
  rw [location_remove] at hy
  split at hy
  case isTrue => cases hy
  case isFalse => exact h.home_le y l t hy

/-- Slots that are moved at once go down to the target level, or home. -/
theorem relinkAll (h : q.Bounded bound) (hq : q.Sound) {target : Nat} (ht : target < levels)
    (set : QueueSet) {slots : List (Fin nproc)}
    (hhome : set = .active → ∀ slot ∈ slots, (q.link slot).home ≤ target) :
    (q.relinkAll target set slots).Bounded bound := by
  refine h.of_move ?_ home_relinkAll quantum_relinkAll refill_relinkAll
  intro y l t hy
  rw [hq.location_relinkAll y set ht] at hy
  split at hy
  case isTrue hmem =>
    cases hy
    unfold destination
    split
    case isTrue hset => exact hhome hset y hmem
    case isFalse => exact Nat.le_refl _
  case isFalse => exact h.home_le y l t hy

theorem detach (h : q.Bounded bound) (slot : Fin nproc) (home : Nat) :
    (q.adjustLink slot fun _ => .detached home).Bounded bound where
  home_le y level set hy := by
    rw [Sound.location_detach] at hy
    split at hy
    case isTrue => cases hy
    case isFalse hne =>
      rw [link_adjustLink, if_neg hne]
      exact h.home_le y level set hy
  ticks_le level set ticks hticks :=
    h.ticks_le level set ticks ((quantum_congr level set rfl).symm.trans hticks)
  refill_le := h.refill_le

theorem setTicks (h : q.Bounded bound) (level : Nat) (set : QueueSet) {value : Int32}
    (hvalue : value ≤ bound) :
    (q.adjustLane level set fun lane => { lane with quantum := value }).Bounded bound where
  home_le y l t hy := by
    rw [link_adjustLane]
    exact h.home_le y l t (Sound.location_setTicks y q level set _ ▸ hy)
  ticks_le l t ticks hticks := by
    rw [quantum_adjustLane] at hticks
    split at hticks
    case isTrue => exact eq_of_map_const hticks ▸ hvalue
    case isFalse => exact h.ticks_le l t ticks hticks
  refill_le := by
    rw [refill_adjustLane]
    exact h.refill_le

theorem swap (h : q.Bounded bound) (isLive : Fin nproc → Bool) :
    (q.swap isLive).Bounded bound where
  home_le y level set hy := by
    rw [location_swap, Option.map_eq_some_iff] at hy
    obtain ⟨⟨l, t⟩, hplace, hlevel⟩ := hy
    cases hlevel
    rw [home_swap]
    exact h.home_le y l t hplace
  ticks_le level set ticks hticks := by
    rw [quantum_swap] at hticks
    cases set with
    | active => exact eq_of_map_const hticks ▸ h.refill_le
    | expired => exact h.ticks_le level .active ticks hticks
  refill_le := h.refill_le

end Bounded

end FeedbackQueue.Queues
