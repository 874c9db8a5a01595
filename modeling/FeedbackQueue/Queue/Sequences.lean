import FeedbackQueue.Queue.Audit
import FeedbackQueue.Queue.Command

/-!
# Queues as sequences

What the linked queues stand for: one sequence of slots per queue.  On sequences every move is a
list operation — take a slot out wherever it is, put it at the end, send the members of one queue
elsewhere in order, exchange the sets.

* `Sequences` and its moves;
* `Queues.WellFormed` — the links and lanes of some queues spell out given sequences;
* `PlainQueues` — sequences, home levels and ticks, and what a command does to them.
-/

namespace FeedbackQueue

instance {P : QueueSet → Prop} [DecidablePred P] : Decidable (∀ set, P set) :=
  decidable_of_iff (P .active ∧ P .expired)
    ⟨fun h set => by cases set <;> simp [h], fun h => ⟨h _, h _⟩⟩

/-- The members of every queue, head first. -/
abbrev Sequences (nproc : Nat) := Nat → QueueSet → List (Fin nproc)

namespace Sequences

variable {nproc : Nat}

/-- No members. -/
def empty : Sequences nproc := fun _ _ => []

/-- Takes a slot out of every queue. -/
def remove (s : Sequences nproc) (slot : Fin nproc) : Sequences nproc := fun level set =>
  (s level set).filter (· != slot)

/-- Puts a slot at the end of a queue. -/
def append (s : Sequences nproc) (slot : Fin nproc) (level : Nat) (set : QueueSet) :
    Sequences nproc := fun l t =>
  if l = level ∧ t = set then s l t ++ [slot] else s l t

/-- Moves a slot to the end of a queue. -/
def relink (s : Sequences nproc) (slot : Fin nproc) (level : Nat) (set : QueueSet) :
    Sequences nproc :=
  (s.remove slot).append slot level set

/-- The slots that leave the active queue of `source` when it is drained and one slot stays. -/
def movers (s : Sequences nproc) (source : Nat) (skip : Option Nat) : List (Fin nproc) :=
  (s source .active).filter fun slot => skip != some slot.val

/-- Moves slots, in order: to the target level in the active set, and to the home level of each in
the expired set. -/
def relinkAll (homes : Fin nproc → Nat) (target : Nat) (set : QueueSet) (s : Sequences nproc)
    (slots : List (Fin nproc)) : Sequences nproc :=
  slots.foldl (fun s slot => s.relink slot (if set = .active then target else homes slot) set) s

/-- Drains the active queue of `source`, leaving one slot where it is. -/
def drain (homes : Fin nproc → Nat) (s : Sequences nproc) (source target : Nat) (set : QueueSet)
    (skip : Option Nat) : Sequences nproc :=
  s.relinkAll homes target set (s.movers source skip)

/-- Exchanges the sets. -/
def swap (s : Sequences nproc) : Sequences nproc := fun level set =>
  s level set.other

end Sequences

namespace Queues

variable {levels nproc : Nat}

/-- The members of every queue. -/
def sequences (q : Queues levels nproc) : Sequences nproc :=
  q.members

/-- The home level of every slot. -/
def homes (q : Queues levels nproc) (slot : Fin nproc) : Nat :=
  (q.link slot).home

/-- Where a slot goes that leaves a drained queue. -/
def destination (q : Queues levels nproc) (target : Nat) (set : QueueSet) (slot : Fin nproc) :
    Nat :=
  if set = .active then target else (q.link slot).home

/-- Moves slots, in order, to where they go when a queue is drained. -/
def relinkAll (target : Nat) (set : QueueSet) (q : Queues levels nproc) (slots : List (Fin nproc)) :
    Queues levels nproc :=
  slots.foldl (fun q slot => q.relink slot (q.destination target set slot) set) q

/-- The links of some slots lead from each to its neighbours.  The first comes after `before`, and
the last is followed by `after`. -/
def Chained (q : Queues levels nproc) (level : Nat) (set : QueueSet) :
    Option (Fin nproc) → List (Fin nproc) → Option (Fin nproc) → Prop
  | _, [], _ => True
  | before, slot :: rest, after =>
    ((q.link slot).level? = some level ∧ (q.link slot).inExpired = set.isExpired ∧
      (q.link slot).prev = before ∧ (q.link slot).next = rest.head?.or after) ∧
    q.Chained level set (some slot) rest after

/-- The queues spell out the sequences `s`: every queue has the ends and the links of its sequence,
no slot occurs twice, and a slot that occurs nowhere has no place and no neighbours. -/
structure Spells (q : Queues levels nproc) (s : Sequences nproc) : Prop where
  ends : ∀ level < levels, ∀ set lane, q.lane? level set = some lane →
    lane.head = (s level set).head? ∧ lane.tail = (s level set).getLast?
  chained : ∀ level < levels, ∀ set, q.Chained level set none (s level set) none
  nodup : ∀ level < levels, ∀ set, (s level set).Nodup
  disjoint : ∀ level < levels, ∀ level' < levels, ∀ set set' slot,
    slot ∈ s level set → slot ∈ s level' set' → level = level' ∧ set = set'
  detached : ∀ slot : Fin nproc, (∀ level < levels, ∀ set, slot ∉ s level set) →
    (q.link slot).level? = none ∧ (q.link slot).prev = none ∧ (q.link slot).next = none

/-- The queues spell out some sequences. -/
def WellFormed (q : Queues levels nproc) : Prop :=
  ∃ s, q.Spells s

end Queues

/-! ## Plain queues -/

/-- Run queues without links: the sequences, the home level of every slot and the ticks left to
every queue. -/
structure PlainQueues (nproc : Nat) where
  lists : Sequences nproc
  homes : Fin nproc → Nat
  ticks : Nat → QueueSet → Int32

namespace PlainQueues

variable {nproc : Nat}

/-- Plain queues without members, all of them with full ticks. -/
def empty (nproc : Nat) (refill : Int32) : PlainQueues nproc where
  lists := .empty
  homes := fun _ => 0
  ticks := fun _ _ => refill

/-- Sets the ticks of a queue. -/
def setTicks (p : PlainQueues nproc) (level : Nat) (set : QueueSet) (value : Int32) :
    PlainQueues nproc :=
  { p with ticks := fun l t => if l = level ∧ t = set then value else p.ticks l t }

/-- Carries out a command, given the ticks of a queue that becomes active. -/
def perform (refill : Int32) (p : PlainQueues nproc) : QueueCommand → PlainQueues nproc
  | .reset slot home =>
    { p with homes := fun other => if other.val = slot then home else p.homes other }
  | .enqueue slot level set =>
    if h : slot < nproc then { p with lists := p.lists.relink ⟨slot, h⟩ level set } else p
  | .dequeue slot => if h : slot < nproc then { p with lists := p.lists.remove ⟨slot, h⟩ } else p
  | .drain source target set skip =>
    { p with lists := p.lists.drain p.homes source target set skip }
  | .swap _ =>
    { p with
      lists := p.lists.swap
      ticks := fun level set => match set with
        | .active => refill
        | .expired => p.ticks level .active }
  | .setQuantum level set value => p.setTicks level set value
  | .charge level set => p.setTicks level set (p.ticks level set - 1)
  | _ => p

/-- Carries out commands one after another. -/
def performAll (refill : Int32) (p : PlainQueues nproc) (commands : List QueueCommand) :
    PlainQueues nproc :=
  commands.foldl (perform refill) p

/-- Whether a command names slots and levels that exist, resets no slot that is in a queue, drains
no queue onto itself and charges no queue below the least number of ticks. -/
def Allows (levels : Nat) (p : PlainQueues nproc) : QueueCommand → Prop
  | .reset slot home =>
    home < levels ∧ ∃ h : slot < nproc, ∀ level < levels, ∀ set, ⟨slot, h⟩ ∉ p.lists level set
  | .enqueue slot level _ => level < levels ∧ slot < nproc
  | .dequeue slot | .linked slot | .location slot | .link slot => slot < nproc
  | .drain source target set _ =>
    source < levels ∧ target < levels ∧ (set = .expired ∨ source ≠ target)
  | .swap _ => True
  | .charge level set => level < levels ∧ p.ticks level set ≠ Int32.minValue
  | .setQuantum level _ _ | .quantum level _ | .ends level _ | .members level _
  | .decision level _ _ => level < levels

instance (levels : Nat) (p : PlainQueues nproc) : DecidablePred (p.Allows levels)
  | .reset .. | .enqueue .. | .drain .. | .charge .. => inferInstanceAs (Decidable (_ ∧ _))
  | .dequeue .. | .linked .. | .location .. | .link .. | .setQuantum .. | .quantum .. | .ends ..
  | .members .. | .decision .. => inferInstanceAs (Decidable (_ < _))
  | .swap _ => inferInstanceAs (Decidable True)

/-- Whether each of some commands is allowed when its turn comes. -/
def AllowsAll (levels : Nat) (refill : Int32) : PlainQueues nproc → List QueueCommand → Prop
  | _, [] => True
  | p, command :: rest =>
    p.Allows levels command ∧ AllowsAll levels refill (p.perform refill command) rest

instance decidableAllowsAll (levels : Nat) (refill : Int32) :
    (p : PlainQueues nproc) → DecidablePred (p.AllowsAll levels refill)
  | _, [] => inferInstanceAs (Decidable True)
  | p, command :: rest =>
    have := decidableAllowsAll levels refill (p.perform refill command) rest
    inferInstanceAs (Decidable (_ ∧ _))

/-- What a command is answered, as far as the sequences and ticks decide it: how many slots moved,
the ticks left, whether and where a slot is linked, and the ends and members of a queue. -/
def Answers (levels : Nat) (p : PlainQueues nproc) : QueueCommand → QueueAnswer nproc → Prop
  | .drain source _ _ skip, answer => answer = .count (p.lists.movers source skip).length
  | .charge level set, answer => answer = .ticks (p.ticks level set - 1)
  | .quantum level set, answer => answer = .ticks (p.ticks level set)
  | .linked slot, answer => ∃ linked, answer = .flag linked ∧
      (linked = true ↔ ∃ level < levels, ∃ set, ∃ member ∈ p.lists level set, member.val = slot)
  | .location slot, answer => ∃ place, answer = .location place ∧
      ∀ level set, place = some (level, set) ↔
        level < levels ∧ ∃ member ∈ p.lists level set, member.val = slot
  | .ends level set, answer => answer = .ends (p.lists level set).head? (p.lists level set).getLast?
  | .members level set, answer => answer = .members (p.lists level set)
  | .reset .., answer | .enqueue .., answer | .dequeue .., answer | .swap .., answer
  | .setQuantum .., answer => answer = .done
  | .link .., _ | .decision .., _ => True

/-- What some commands are answered, one after another. -/
def AnswersAll (levels : Nat) (refill : Int32) :
    PlainQueues nproc → List QueueCommand → List (QueueAnswer nproc) → Prop
  | _, [], answers => answers = []
  | p, command :: rest, answers =>
    ∃ first others, answers = first :: others ∧ p.Answers levels command first ∧
      AnswersAll levels refill (p.perform refill command) rest others

end PlainQueues

namespace Queues

variable {levels nproc : Nat}

/-- Linked queues stand for plain ones: they spell out their sequences, and have the same home
levels and ticks. -/
structure StandsFor (q : Queues levels nproc) (refill : Int32) (p : PlainQueues nproc) : Prop where
  spells : q.Spells p.lists
  homes : ∀ slot, (q.link slot).home = p.homes slot
  homes_lt : ∀ slot, p.homes slot < levels
  ticks : ∀ level < levels, ∀ set, q.quantum level set = .ok (p.ticks level set)
  refill_eq : q.refill = refill

/-- Seen from outside, linked queues look like plain ones: the members, the ends and the ticks of
every queue, and the place of every slot, are those of the sequences. -/
structure LooksLike (q : Queues levels nproc) (p : PlainQueues nproc) : Prop where
  members : ∀ level < levels, ∀ set, q.members level set = p.lists level set
  ends : ∀ level < levels, ∀ set, (q.lane level set).map (fun lane => (lane.head, lane.tail))
    = .ok ((p.lists level set).head?, (p.lists level set).getLast?)
  ticks : ∀ level < levels, ∀ set, q.quantum level set = .ok (p.ticks level set)
  location : ∀ slot level set,
    q.location slot = some (level, set) ↔ level < levels ∧ slot ∈ p.lists level set

end Queues

end FeedbackQueue
