import FeedbackQueue.Queue.Lanes

/-!
# Auditing the queues

The audit walks every queue from its head, active queues first, and then looks at every link.  It
stops at the first flaw.

A walk marks the slots it meets, and a queue that goes on for more steps than there are slots is
circular.
-/

namespace FeedbackQueue

/-- What can be wrong with the queues. -/
inductive Flaw
  /-- A queue goes round in a circle. -/
  | circular
  /-- A slot is met twice. -/
  | metTwice
  /-- The link of a member names another level. -/
  | wrongLevel
  /-- The link of a member names the other set. -/
  | wrongSet
  /-- The link of a member does not lead back where the walk came from. -/
  | wrongBack
  /-- The tail of a queue is not its last member. -/
  | wrongTail
  /-- A link names a queue that the slot is not in. -/
  | missing
  /-- The link of a slot in no queue names neighbours. -/
  | stale
  deriving DecidableEq, Repr

/-- The wording of a flaw. -/
def Flaw.message : Flaw → String
  | circular => "queue contains a cycle"
  | metTwice => "process linked twice"
  | wrongLevel => "priority level disagrees with queue"
  | wrongSet => "expired flag disagrees with queue"
  | wrongBack => "back link broken"
  | wrongTail => "tail does not match last member"
  | missing => "linked process missing from its queue"
  | stale => "unlinked process keeps stale links"

namespace Queues

variable {levels nproc : Nat}

/-- The slots that a walk has met, each marked by a flag. -/
structure Met (nproc : Nat) where
  flags : Vector Bool nproc

namespace Met

/-- No slot has been met. -/
def none (nproc : Nat) : Met nproc :=
  ⟨Vector.replicate nproc false⟩

/-- Whether a slot has been met. -/
def has (met : Met nproc) (slot : Fin nproc) : Bool :=
  getElem met.flags slot.val slot.isLt

/-- Marks a slot as met. -/
def mark (met : Met nproc) (slot : Fin nproc) : Met nproc :=
  ⟨met.flags.set slot true slot.isLt⟩

end Met

/-- Walks on from `cursor`, which was reached from `prev`, for at most `fuel` more members. -/
def auditFrom (q : Queues levels nproc) (level : Nat) (set : QueueSet) (tail : Option (Fin nproc)) :
    Nat → Option (Fin nproc) → Option (Fin nproc) → Met nproc → Except Flaw (Met nproc)
  | _, none, prev, met => if tail = prev then .ok met else .error .wrongTail
  | 0, some _, _, _ => .error .circular
  | fuel + 1, some slot, prev, met =>
    let link := q.link slot
    if met.has slot then .error .metTwice
    else if link.level? ≠ some level then .error .wrongLevel
    else if link.inExpired ≠ set.isExpired then .error .wrongSet
    else if link.prev ≠ prev then .error .wrongBack
    else q.auditFrom level set tail fuel link.next (some slot) (met.mark slot)

/-- Walks one queue. -/
def auditLane (q : Queues levels nproc) (met : Met nproc) (queue : Nat × QueueSet) :
    Except Flaw (Met nproc) :=
  match q.lane? queue.1 queue.2 with
  | none => .ok met
  | some lane => q.auditFrom queue.1 queue.2 lane.tail nproc lane.head none met

/-- Every queue, active queues first, the highest level first. -/
def allQueues (levels : Nat) : List (Nat × QueueSet) :=
  (List.range levels).map (·, .active) ++ (List.range levels).map (·, .expired)

/-- Looks at the link of one slot, once all queues have been walked. -/
def auditLink (q : Queues levels nproc) (met : Met nproc) (slot : Fin nproc) : Except Flaw Unit :=
  let link := q.link slot
  if link.isLinked ≠ met.has slot then .error .missing
  else if !met.has slot && (link.prev.isSome || link.next.isSome) then .error .stale
  else .ok ()

/-- The first flaw of the queues, if they have one. -/
def audit (q : Queues levels nproc) : Except Flaw Unit := do
  let met ← (allQueues levels).foldlM q.auditLane (.none nproc)
  (List.finRange nproc).forM (q.auditLink met)

end Queues

end FeedbackQueue
