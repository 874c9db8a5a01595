import FeedbackQueue.Queue.Lanes

/-!
# Moving processes between queues

* `Queues.append`, `Queues.remove` — the two changes of the lists, one slot each;
* `Queues.enqueue` — to the tail of a queue, out of any other queue;
* `Queues.drain` — the members of an active queue, in order, to another queue;
* `Queues.swap` — exchanges the active and expired sets;
* `Queues.reset`, `Queues.setQuantum`, `Queues.charge` — links and ticks.

Levels that come from a caller are checked before anything changes.
-/

namespace FeedbackQueue.Queues

variable {levels nproc : Nat}

/-! ## One lane, one link -/

/-- Replaces one entry by a function of it; an index beyond the end replaces nothing. -/
def adjustAt {α : Type} {n : Nat} (v : Vector α n) (i : Nat) (f : α → α) : Vector α n :=
  if h : i < n then v.set i (f v[i]) else v

/-- Replaces the lane of a queue by a function of it. -/
def adjustLane (q : Queues levels nproc) (level : Nat) (set : QueueSet)
    (f : Lane nproc → Lane nproc) : Queues levels nproc :=
  match set with
  | .active => { q with active := adjustAt q.active level f }
  | .expired => { q with expired := adjustAt q.expired level f }

/-- Replaces the link of a slot by a function of it. -/
def adjustLink (q : Queues levels nproc) (slot : Fin nproc) (f : Link nproc → Link nproc) :
    Queues levels nproc :=
  { q with links := q.links.set slot (f (q.link slot)) slot.isLt }

/-! ## One slot -/

/-- Puts a slot that is in no queue at the tail of a queue. -/
def append (q : Queues levels nproc) (slot : Fin nproc) (level : Nat) (set : QueueSet) :
    Queues levels nproc :=
  let tail := (q.lane? level set).bind Lane.tail
  let q := q.adjustLink slot fun link =>
    { link with level? := some level, inExpired := set.isExpired, prev := tail, next := none }
  let q := match tail with
    | some last => q.adjustLink last fun link => { link with next := some slot }
    | none => q.adjustLane level set fun lane => { lane with head := some slot }
  q.adjustLane level set fun lane => { lane with tail := some slot }

/-- Takes a slot out of its queue, if it is in one.  The home level and the flag of the set stay. -/
def remove (q : Queues levels nproc) (slot : Fin nproc) : Queues levels nproc :=
  let link := q.link slot
  match link.location with
  | none => q
  | some (level, set) =>
    let q := match link.prev with
      | some before => q.adjustLink before fun l => { l with next := link.next }
      | none => q.adjustLane level set fun lane => { lane with head := link.next }
    let q := match link.next with
      | some after => q.adjustLink after fun l => { l with prev := link.prev }
      | none => q.adjustLane level set fun lane => { lane with tail := link.prev }
    q.adjustLink slot fun l => { l with level? := none, prev := none, next := none }

/-- Moves a slot to the tail of a queue. -/
def relink (q : Queues levels nproc) (slot : Fin nproc) (level : Nat) (set : QueueSet) :
    Queues levels nproc :=
  (q.remove slot).append slot level set

/-- Moves a slot to the tail of a queue, wherever it was before. -/
def enqueue (q : Queues levels nproc) (slot : Fin nproc) (level : Nat) (set : QueueSet) :
    Except Fault (Queues levels nproc) :=
  if level < levels then .ok (q.relink slot level set) else .error (.enqueueLevel level)

/-- Gives a slot that is in no queue a fresh link with a home level. -/
def reset (q : Queues levels nproc) (slot : Fin nproc) (home : Nat) :
    Except Fault (Queues levels nproc) :=
  if levels ≤ home then .error (.homeLevel home)
  else if q.isLinked slot then .error .resetLinked
  else .ok (q.adjustLink slot fun _ => .detached home)

/-! ## Whole queues -/

/-- Moves one slot of a drained queue: to the target level in the active set, and to its own home
level in the expired set. -/
def follow (target : Nat) (set : QueueSet) (q : Queues levels nproc) (slot : Fin nproc) :
    Except Fault (Queues levels nproc) :=
  let level := match set with
    | .active => target
    | .expired => (q.link slot).home
  if level < levels then .ok (q.relink slot level set) else .error (.outOfBounds levels level)

/-- Walks on from `cursor`, for at most `fuel` members, and moves every slot it meets but one.  The
next slot is looked up before a slot is moved, because the move changes the link.  Answers how many
slots have moved, given how many have moved before. -/
def drainFrom (target : Nat) (set : QueueSet) (skip : Option Nat) :
    Nat → Option (Fin nproc) → Nat → Queues levels nproc → Except Fault (Nat × Queues levels nproc)
  | fuel + 1, some slot, moved, q =>
    let next := (q.link slot).next
    if skip = some slot.val then drainFrom target set skip fuel next moved q
    else
      match follow target set q slot with
      | .ok q => drainFrom target set skip fuel next (moved + 1) q
      | .error fault => .error fault
  | _, _, moved, q => .ok (moved, q)

/-- Moves the members of the active queue of `source`, in order, leaving one slot where it is.
Answers how many moved. -/
def drain (q : Queues levels nproc) (source target : Nat) (set : QueueSet) (skip : Option Nat) :
    Except Fault (Nat × Queues levels nproc) :=
  if levels ≤ source then .error (.drainLevel source)
  else if levels ≤ target then .error (.drainLevel target)
  else if set = .active ∧ target = source then .error (.drainOntoItself source)
  else drainFrom target set skip nproc ((q.lane? source .active).bind Lane.head) 0 q

/-- Exchanges the two sets.  The set that becomes active gets full ticks.  The flag of a link is
turned over with the sets, for every slot in a queue and every other slot that holds a process. -/
def swap (q : Queues levels nproc) (isLive : Fin nproc → Bool) : Queues levels nproc where
  refill := q.refill
  active := q.expired.map fun lane => { lane with quantum := q.refill }
  expired := q.active
  links := Vector.ofFn fun slot =>
    let link := q.link slot
    if link.isLinked || isLive slot then { link with inExpired := !link.inExpired } else link

/-! ## Ticks -/

/-- Sets the ticks of a queue. -/
def setQuantum (q : Queues levels nproc) (level : Nat) (set : QueueSet) (value : Int32) :
    Except Fault (Queues levels nproc) :=
  (q.lane level set).map fun _ =>
    q.adjustLane level set fun lane => { lane with quantum := value }

/-- Charges one tick to a queue and answers what is left.  The ticks of a queue do not stop at the
least 32-bit value, so one tick more is a fault. -/
def charge (q : Queues levels nproc) (level : Nat) (set : QueueSet) :
    Except Fault (Int32 × Queues levels nproc) :=
  match q.lane level set with
  | .error fault => .error fault
  | .ok lane =>
    if lane.quantum = Int32.minValue then .error (.overflow .subtract)
    else
      let left := lane.quantum - 1
      .ok (left, q.adjustLane level set fun lane => { lane with quantum := left })

end FeedbackQueue.Queues
