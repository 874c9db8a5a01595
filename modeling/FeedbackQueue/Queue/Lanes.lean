import FeedbackQueue.Fault

/-!
# Run queues

Every level has two queues, one in the *active* set and one in the *expired* set.  A queue is a
doubly linked list through one arena: the *link* of a slot names its neighbours, and the *lane* of a
queue names its ends and counts the ticks its processes may still share.

* `Queues.empty` — no slot in any queue;
* `Queues.members` — a queue as a list, head first;
* `Queues.location` — the queue a slot is in.

The functions that change the lists are in `FeedbackQueue.Queue.Moves`.
-/

namespace FeedbackQueue

/-- The two sets of queues. -/
inductive QueueSet
  /-- Processes that may be dispatched. -/
  | active
  /-- Processes that wait for the next exchange of the sets. -/
  | expired
  deriving DecidableEq, Repr

namespace QueueSet

/-- The set of a link, from its flag. -/
def ofExpired (expired : Bool) : QueueSet :=
  if expired then .expired else .active

/-- The flag of a set in a link. -/
def isExpired : QueueSet → Bool
  | active => false
  | expired => true

/-- The set that trades places with a set in an exchange. -/
def other : QueueSet → QueueSet
  | active => expired
  | expired => active

/-- The name of a set in dumps and log lines. -/
def name : QueueSet → String
  | active => "active"
  | expired => "expired"

theorem ofExpired_isExpired (set : QueueSet) : ofExpired set.isExpired = set := by
  cases set <;> rfl

end QueueSet

/-- The place of a slot in the queues. -/
structure Link (nproc : Nat) where
  /-- Level of the queue that the slot is in, or nothing when it is in none. -/
  level? : Option Nat
  /-- Level that the process was created for, where it goes when it expires. -/
  home : Nat
  /-- Whether the queue is in the expired set.  Means nothing while the slot is in no queue. -/
  inExpired : Bool
  /-- Neighbour towards the head. -/
  prev : Option (Fin nproc)
  /-- Neighbour towards the tail. -/
  next : Option (Fin nproc)
  deriving DecidableEq, Repr

namespace Link

variable {nproc : Nat}

/-- A link of a slot that is in no queue. -/
def detached (home : Nat) : Link nproc where
  level? := none
  home := home
  inExpired := false
  prev := none
  next := none

/-- Whether the slot is in a queue. -/
def isLinked (link : Link nproc) : Bool :=
  link.level?.isSome

/-- Level and set of the queue the slot is in. -/
def location (link : Link nproc) : Option (Nat × QueueSet) :=
  link.level?.map fun level => (level, .ofExpired link.inExpired)

end Link

/-- The ends of a queue and the ticks left to its processes. -/
structure Lane (nproc : Nat) where
  head : Option (Fin nproc)
  tail : Option (Fin nproc)
  quantum : Int32
  deriving DecidableEq, Repr

/-- A queue without members. -/
def Lane.vacant {nproc : Nat} (quantum : Int32) : Lane nproc where
  head := none
  tail := none
  quantum := quantum

/-- All run queues over `nproc` slots. -/
structure Queues (levels nproc : Nat) where
  /-- The ticks given to a queue when it becomes active. -/
  refill : Int32
  /-- The active queue of every level. -/
  active : Vector (Lane nproc) levels
  /-- The expired queue of every level. -/
  expired : Vector (Lane nproc) levels
  /-- The link of every slot. -/
  links : Vector (Link nproc) nproc
  deriving DecidableEq

namespace Queues

variable {levels nproc : Nat}

/-- Queues without members, all of them with full ticks. -/
def empty (levels nproc : Nat) (refill : Int32) : Queues levels nproc where
  refill := refill
  active := Vector.replicate levels (.vacant refill)
  expired := Vector.replicate levels (.vacant refill)
  links := Vector.replicate nproc (.detached 0)

/-- The link of a slot. -/
def link (q : Queues levels nproc) (slot : Fin nproc) : Link nproc :=
  getElem q.links slot.val slot.isLt

/-- The queues of a set. -/
def lanes (q : Queues levels nproc) : QueueSet → Vector (Lane nproc) levels
  | .active => q.active
  | .expired => q.expired

/-- The lane of a queue, if the level exists. -/
def lane? (q : Queues levels nproc) (level : Nat) (set : QueueSet) : Option (Lane nproc) :=
  (q.lanes set)[level]?

/-- The lane of a queue; a level that does not exist is an index out of bounds. -/
def lane (q : Queues levels nproc) (level : Nat) (set : QueueSet) : Except Fault (Lane nproc) :=
  match q.lane? level set with
  | some lane => .ok lane
  | none => .error (.outOfBounds levels level)

/-- Follows the links towards the tail, for at most `fuel` members. -/
def walk (q : Queues levels nproc) : Nat → Option (Fin nproc) → List (Fin nproc)
  | 0, _ => []
  | _, none => []
  | fuel + 1, some slot => slot :: q.walk fuel (q.link slot).next

/-- The members of a queue, head first.  No queue has more members than there are slots, and a level
that does not exist has none. -/
def members (q : Queues levels nproc) (level : Nat) (set : QueueSet) : List (Fin nproc) :=
  match q.lane? level set with
  | some lane => q.walk nproc lane.head
  | none => []

/-- The members of the active queues of the first `count` levels, level by level. -/
def activeMembers (q : Queues levels nproc) (count : Nat) : List (Fin nproc) :=
  (List.range count).flatMap fun level => q.members level .active

/-- Whether a slot is in a queue. -/
def isLinked (q : Queues levels nproc) (slot : Fin nproc) : Bool :=
  (q.link slot).isLinked

/-- Level and set of the queue that a slot is in. -/
def location (q : Queues levels nproc) (slot : Fin nproc) : Option (Nat × QueueSet) :=
  (q.link slot).location

/-- The ticks left to a queue. -/
def quantum (q : Queues levels nproc) (level : Nat) (set : QueueSet) : Except Fault Int32 :=
  (q.lane level set).map Lane.quantum

end Queues

end FeedbackQueue
