import FeedbackQueue.Queue.Lanes

/-!
# Where a yielding process goes

While the process and its level both have ticks left, it goes to the tail of its own level.
Otherwise it sinks to the first lower level that has ticks left, or, when there is none, to the
expired queue of its home level; its budget is then filled again.  A level without ticks takes its
other processes along.
-/

namespace FeedbackQueue

/-- The destination of a yielding process. -/
structure Decision where
  level : Nat
  set : QueueSet
  /-- Whether the budget of the process is filled again. -/
  replenish : Bool
  /-- Whether the other processes of the level follow. -/
  cascade : Bool
  deriving DecidableEq, Repr

namespace Queues

variable {levels nproc : Nat}

/-- Whether the active queue of a level has ticks left. -/
def hasTicks (q : Queues levels nproc) (level : Nat) : Bool :=
  (q.lane? level .active).any fun lane => 0 < lane.quantum

/-- The first level below `level` whose active queue has ticks left. -/
def lowerLevel? (q : Queues levels nproc) (level : Nat) : Option Nat :=
  (List.range levels).find? fun lower => level < lower && q.hasTicks lower

/-- The decision for a process of a given home level that yields from `level` with `left` ticks. -/
def decision (q : Queues levels nproc) (level home : Nat) (left : Int32) : Except Fault Decision :=
  (q.quantum level .active).map fun (shared : Int32) =>
    let exhausted : Bool := shared ≤ 0
    if !exhausted && 0 < left then
      { level, set := .active, replenish := false, cascade := false }
    else
      match q.lowerLevel? level with
      | some lower => { level := lower, set := .active, replenish := true, cascade := exhausted }
      | none => { level := home, set := .expired, replenish := true, cascade := exhausted }

end Queues

end FeedbackQueue
