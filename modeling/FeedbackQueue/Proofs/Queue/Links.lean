import FeedbackQueue.Queue.Sequences

/-!
# Links and lanes after a move

How each move of `FeedbackQueue.Queue.Moves` changes single links and lanes, whatever shape the
queues are in.

* `Queues.link_append`, `Queues.lane?_append` — after a slot has been put at a tail;
* `Queues.link_remove`, `Queues.lane?_remove` — after a slot has been taken out;
* `Queues.link_swap`, `Queues.lane?_swap` — after the sets have been exchanged.

The formulas name the neighbours by the links themselves, so that they need no well-formedness; what
the neighbours are in a well-formed queue is the matter of `FeedbackQueue.Proofs.Queue.Spelling`.
-/

namespace FeedbackQueue

@[simp] theorem QueueSet.isExpired_other (set : QueueSet) :
    set.other.isExpired = !set.isExpired := by
  cases set <;> rfl

@[simp] theorem QueueSet.other_other (set : QueueSet) : set.other.other = set := by
  cases set <;> rfl

theorem QueueSet.ofExpired_not (expired : Bool) :
    QueueSet.ofExpired (!expired) = (QueueSet.ofExpired expired).other := by
  cases expired <;> rfl

namespace Queues

variable {levels nproc : Nat}

/-! ## Lanes -/

theorem lane?_eq_none (q : Queues levels nproc) {level : Nat} (set : QueueSet)
    (h : levels ≤ level) : q.lane? level set = none := by
  simp [lane?, h]

theorem lane?_of_lt (q : Queues levels nproc) {level : Nat} (set : QueueSet) (h : level < levels) :
    q.lane? level set = some (q.lanes set)[level] := by
  simp [lane?, h]

theorem getElem?_adjustAt {α : Type} {n : Nat} (v : Vector α n) (i j : Nat) (f : α → α) :
    (adjustAt v i f)[j]? = if j = i then v[j]?.map f else v[j]? := by
  unfold adjustAt
  split
  case isTrue h =>
    rw [Vector.getElem?_set]
    by_cases hji : j = i
    · subst hji
      simp [h]
    · simp [hji, Ne.symm hji]
  case isFalse h =>
    by_cases hji : j = i
    · subst hji
      simp [Nat.not_lt.mp h]
    · simp [hji]

theorem adjustAt_adjustAt {α : Type} {n : Nat} (v : Vector α n) (i : Nat) (f g : α → α) :
    adjustAt (adjustAt v i f) i g = adjustAt v i fun x => g (f x) := by
  unfold adjustAt
  split <;> simp

theorem adjustAt_id {α : Type} {n : Nat} (v : Vector α n) (i : Nat) :
    adjustAt v i (fun x => x) = v := by
  unfold adjustAt
  split <;> simp

theorem adjustAt_congr {α : Type} {n : Nat} {v : Vector α n} {i : Nat} {f g : α → α}
    (h : v[i]?.map f = v[i]?.map g) : adjustAt v i f = adjustAt v i g := by
  unfold adjustAt
  split
  case isTrue hi =>
    have hsame : f v[i] = g v[i] := by simpa [hi] using h
    rw [hsame]
  case isFalse => rfl

theorem lane?_adjustLane (q : Queues levels nproc) (level l : Nat) (set t : QueueSet)
    (f : Lane nproc → Lane nproc) :
    (q.adjustLane level set f).lane? l t
      = if l = level ∧ t = set then (q.lane? l t).map f else q.lane? l t := by
  cases set <;> cases t <;> simp [adjustLane, lane?, lanes, getElem?_adjustAt]

theorem adjustLane_adjustLane (q : Queues levels nproc) (level : Nat) (set : QueueSet)
    (f g : Lane nproc → Lane nproc) : (q.adjustLane level set f).adjustLane level set g
      = q.adjustLane level set fun lane => g (f lane) := by
  cases set <;> simp only [adjustLane, adjustAt_adjustAt]

theorem adjustLane_id (q : Queues levels nproc) (level : Nat) (set : QueueSet) :
    q.adjustLane level set (fun lane => lane) = q := by
  cases set <;> simp only [adjustLane, adjustAt_id]

theorem adjustLane_congr {q : Queues levels nproc} {level : Nat} {set : QueueSet}
    {f g : Lane nproc → Lane nproc}
    (h : (q.lane? level set).map f = (q.lane? level set).map g) :
    q.adjustLane level set f = q.adjustLane level set g := by
  cases set with
  | active => exact congrArg (fun active => { q with active }) (adjustAt_congr h)
  | expired => exact congrArg (fun expired => { q with expired }) (adjustAt_congr h)

@[simp] theorem link_adjustLane (q : Queues levels nproc) (level : Nat) (set : QueueSet)
    (f : Lane nproc → Lane nproc) (slot : Fin nproc) :
    (q.adjustLane level set f).link slot = q.link slot := by
  cases set <;> rfl

/-! ## Links -/

@[simp] theorem lane?_adjustLink (q : Queues levels nproc) (slot : Fin nproc)
    (f : Link nproc → Link nproc) (level : Nat) (set : QueueSet) :
    (q.adjustLink slot f).lane? level set = q.lane? level set := by
  cases set <;> rfl

theorem link_adjustLink (q : Queues levels nproc) (slot y : Fin nproc)
    (f : Link nproc → Link nproc) :
    (q.adjustLink slot f).link y = if y = slot then f (q.link y) else (q.link y) := by
  simp only [link, adjustLink, Vector.getElem_set]
  by_cases h : y = slot
  · subst h
    simp
  · simp [h, Fin.val_ne_of_ne (Ne.symm h)]

/-! ## Putting a slot at a tail -/

theorem lane?_append (q : Queues levels nproc) (slot : Fin nproc) (level l : Nat)
    (set t : QueueSet) :
    (q.append slot level set).lane? l t
      = if l = level ∧ t = set then
          (q.lane? l t).map fun lane =>
            { lane with head := lane.tail.elim (some slot) fun _ => lane.head, tail := some slot }
        else q.lane? l t := by
  unfold append
  simp only [lane?_adjustLane]
  by_cases hl : l = level ∧ t = set
  · obtain ⟨rfl, rfl⟩ := hl
    cases hlane : q.lane? l t with
    | none => cases h : (Option.bind (q.lane? l t) Lane.tail) <;> simp_all [lane?_adjustLane]
    | some lane => cases htail : lane.tail <;> simp [lane?_adjustLane, hlane, htail]
  · rw [if_neg hl, if_neg hl]
    split <;> simp [lane?_adjustLane, hl]

theorem link_append (q : Queues levels nproc) (slot y : Fin nproc) (level : Nat)
    (set : QueueSet) (h : (q.lane? level set).bind Lane.tail ≠ some slot) :
    ((q.append slot level set).link y)
      = if y = slot then
          { (q.link y) with
            level? := some level, inExpired := set.isExpired
            prev := (q.lane? level set).bind Lane.tail, next := none }
        else if (q.lane? level set).bind Lane.tail = some y then
          { (q.link y) with next := some slot }
        else (q.link y) := by
  unfold append
  cases htail : (q.lane? level set).bind Lane.tail with
  | none => simp [link_adjustLink]
  | some last =>
    have hne : last ≠ slot := fun hls => h (by rw [htail, hls])
    simp only [link_adjustLane, link_adjustLink, Option.some.injEq]
    by_cases hy : y = slot
    · subst hy
      simp [Ne.symm hne]
    · by_cases hy' : y = last
      · subst hy'
        simp [hy]
      · simp [hy, hy', Ne.symm hy']

/-! ## Taking a slot out -/

/-- The link of a slot that has been taken out of its queue. -/
def cut (link : Link nproc) : Link nproc :=
  { link with level? := none, prev := none, next := none }

theorem remove_of_not_linked (q : Queues levels nproc) (slot : Fin nproc)
    (h : (q.link slot).level? = none) : q.remove slot = q := by
  simp [remove, Link.location, h]

theorem lane?_remove (q : Queues levels nproc) (slot : Fin nproc) {level : Nat} {set : QueueSet}
    (h : q.location slot = some (level, set)) (l : Nat) (t : QueueSet) :
    (q.remove slot).lane? l t
      = if l = level ∧ t = set then
          (q.lane? l t).map fun lane =>
            { lane with
              head := (q.link slot).prev.elim (q.link slot).next fun _ => lane.head
              tail := (q.link slot).next.elim (q.link slot).prev fun _ => lane.tail }
        else q.lane? l t := by
  have hloc : (q.link slot).location = some (level, set) := h
  unfold remove
  simp only [hloc]
  by_cases hl : l = level ∧ t = set
  · obtain ⟨rfl, rfl⟩ := hl
    cases hp : (q.link slot).prev <;> cases hn : (q.link slot).next <;>
      simp [lane?_adjustLane, Function.comp_def]
  · rw [if_neg hl]
    cases hp : (q.link slot).prev <;> cases hn : (q.link slot).next <;>
      simp [lane?_adjustLane, hl]

theorem link_remove (q : Queues levels nproc) (slot y : Fin nproc)
    (h : (q.link slot).level? ≠ none) :
    ((q.remove slot).link y)
      = if y = slot then cut (q.link y)
        else
          { (q.link y) with
            next := if (q.link slot).prev = some y then (q.link slot).next else (q.link y).next
            prev := if (q.link slot).next = some y then (q.link slot).prev
              else (q.link y).prev } := by
  obtain ⟨level, hlevel⟩ := Option.ne_none_iff_exists'.mp h
  unfold remove
  simp only [Link.location, hlevel, Option.map_some]
  by_cases hy : y = slot
  · subst hy
    rw [if_pos rfl, link_adjustLink, if_pos rfl]
    -- whatever the neighbours are, the link of the slot itself is overwritten in the end
    cases hp : (q.link y).prev <;> cases hn : (q.link y).next <;>
      simp only [link_adjustLane, link_adjustLink] <;> (repeat' split) <;> rfl
  · rw [if_neg hy, link_adjustLink, if_neg hy]
    cases hp : (q.link slot).prev <;> cases hn : (q.link slot).next <;>
      simp only [link_adjustLane, link_adjustLink, Option.some.injEq, reduceCtorEq, if_false,
        @eq_comm _ y] <;>
      (repeat' split) <;> simp_all

/-! ## Exchanging the sets -/

theorem lane?_swap (q : Queues levels nproc) (isLive : Fin nproc → Bool) (level : Nat)
    (set : QueueSet) :
    (q.swap isLive).lane? level set = match set with
      | .active => (q.lane? level .expired).map fun lane => { lane with quantum := q.refill }
      | .expired => q.lane? level .active := by
  cases set <;> simp [swap, lane?, lanes]

theorem link_swap (q : Queues levels nproc) (isLive : Fin nproc → Bool) (slot : Fin nproc) :
    (q.swap isLive).link slot
      = if (q.link slot).isLinked || isLive slot then
          { (q.link slot) with inExpired := !(q.link slot).inExpired }
        else (q.link slot) := by
  simp [link, swap]

/-- An exchange asks only of the slots that are in no queue whether they hold a process. -/
theorem swap_congr {q : Queues levels nproc} {isLive isLive' : Fin nproc → Bool}
    (h : ∀ slot, q.isLinked slot = false → isLive slot = isLive' slot) :
    q.swap isLive = q.swap isLive' := by
  have hturned : ∀ slot, ((q.link slot).isLinked || isLive slot)
      = ((q.link slot).isLinked || isLive' slot) := by
    intro slot
    cases hlinked : (q.link slot).isLinked with
    | false => rw [h slot hlinked]
    | true => rfl
  simp only [swap, hturned]

end Queues

end FeedbackQueue
