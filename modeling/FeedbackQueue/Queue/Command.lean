import FeedbackQueue.Queue.Decision
import FeedbackQueue.Queue.Moves

/-!
# Commands on the queues

The queues seen from outside: a command names slots and levels by number, and is answered or faults.
`Queues.perform` carries out one command and `Queues.performAll` a list of them.

Numbers are checked where a command needs them: a level that a process is put into before the slot,
and in every other case the slot or the level that is looked up first.
-/

namespace FeedbackQueue

/-- What can be asked of the queues. -/
inductive QueueCommand
  /-- Give a slot a fresh link with a home level. -/
  | reset (slot home : Nat)
  /-- Move a slot to the tail of a queue. -/
  | enqueue (slot level : Nat) (set : QueueSet)
  /-- Take a slot out of its queue. -/
  | dequeue (slot : Nat)
  /-- Move the members of an active queue. -/
  | drain (source target : Nat) (set : QueueSet) (skip : Option Nat)
  /-- Exchange the sets; the slots that are listed hold a process. -/
  | swap (live : List Nat)
  /-- Set the ticks of a queue. -/
  | setQuantum (level : Nat) (set : QueueSet) (value : Int32)
  /-- Charge a tick to a queue. -/
  | charge (level : Nat) (set : QueueSet)
  /-- Look up the ticks of a queue. -/
  | quantum (level : Nat) (set : QueueSet)
  /-- Ask whether a slot is in a queue. -/
  | linked (slot : Nat)
  /-- Ask which queue a slot is in. -/
  | location (slot : Nat)
  /-- Look up the link of a slot. -/
  | link (slot : Nat)
  /-- Look up the ends of a queue. -/
  | ends (level : Nat) (set : QueueSet)
  /-- List a queue. -/
  | members (level : Nat) (set : QueueSet)
  /-- Ask where a yielding process goes. -/
  | decision (level home : Nat) (left : Int32)
  deriving DecidableEq, Repr

/-- The answer to a command. -/
inductive QueueAnswer (nproc : Nat)
  | done
  | count (n : Nat)
  | ticks (left : Int32)
  | flag (flag : Bool)
  | location (place : Option (Nat × QueueSet))
  | link (link : Link nproc)
  | ends (head tail : Option (Fin nproc))
  | members (slots : List (Fin nproc))
  | decision (decision : Decision)
  deriving DecidableEq, Repr

namespace Queues

variable {levels nproc : Nat}

/-- The slot with a number. -/
def slotAt (i : Nat) : Except Fault (Fin nproc) :=
  if h : i < nproc then .ok ⟨i, h⟩ else .error (.outOfBounds nproc i)

/-- Carries out one command. -/
def perform (q : Queues levels nproc) :
    QueueCommand → Except Fault (QueueAnswer nproc × Queues levels nproc)
  | .reset slot home => do
    if levels ≤ home then throw (.homeLevel home)
    let slot ← slotAt slot
    return (.done, ← q.reset slot home)
  | .enqueue slot level set => do
    if levels ≤ level then throw (.enqueueLevel level)
    let slot ← slotAt slot
    return (.done, ← q.enqueue slot level set)
  | .dequeue slot => do
    let slot ← slotAt slot
    return (.done, q.remove slot)
  | .drain source target set skip => do
    let (count, q) ← q.drain source target set skip
    return (.count count, q)
  | .swap live => return (.done, q.swap fun slot => live.contains slot.val)
  | .setQuantum level set value => return (.done, ← q.setQuantum level set value)
  | .charge level set => do
    let (left, q) ← q.charge level set
    return (.ticks left, q)
  | .quantum level set => return (.ticks (← q.quantum level set), q)
  | .linked slot => return (.flag (q.isLinked (← slotAt slot)), q)
  | .location slot => return (.location (q.location (← slotAt slot)), q)
  | .link slot => do
    let slot : Fin nproc ← slotAt slot
    return (.link (q.link slot), q)
  | .ends level set => do
    let lane ← q.lane level set
    return (.ends lane.head lane.tail, q)
  | .members level set => do
    let _ ← q.lane level set
    return (.members (q.members level set), q)
  | .decision level home left => return (.decision (← q.decision level home left), q)

/-- Carries out commands one after another and collects the answers. -/
def performAll (q : Queues levels nproc) :
    List QueueCommand → Except Fault (List (QueueAnswer nproc) × Queues levels nproc)
  | [] => .ok ([], q)
  | command :: rest => do
    let (answer, q) ← q.perform command
    let (answers, q) ← q.performAll rest
    return (answer :: answers, q)

end Queues

end FeedbackQueue
