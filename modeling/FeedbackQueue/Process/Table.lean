import FeedbackQueue.Process.Record

/-!
# The process table

A table has a fixed number of slots, and a slot never moves.  A process is named from outside by its
pid and inside by its slot.

* `Table.claim` — turns a free slot into a fresh process with the next pid;
* `Table.firstFree?`, `Table.find?` — the least slot that is free, or that carries a pid.
-/

namespace FeedbackQueue

/-- A table of `size` slots. -/
structure Table (size : Nat) where
  /-- The record of every slot. -/
  records : Vector Record size
  /-- The pid of the next process. -/
  nextPid : Pid
  deriving DecidableEq

namespace Table

variable {size : Nat}

/-- A table of free slots.  Pids start at one, so that zero is no process. -/
def empty (size : Nat) : Table size where
  records := Vector.replicate size .vacant
  nextPid := 1

/-- Every slot, in ascending order. -/
def slots (_ : Table size) : List (Fin size) :=
  List.finRange size

/-- The record of a slot. -/
def record (t : Table size) (slot : Fin size) : Record :=
  getElem t.records slot.val slot.isLt

/-- Replaces the record of a slot by a function of it. -/
def adjust (slot : Fin size) (f : Record → Record) (t : Table size) : Table size :=
  { t with records := t.records.set slot (f (t.record slot)) slot.isLt }

/-- Puts a fresh process into a slot, whatever the slot held, and moves on to the next pid. -/
def claim (slot : Fin size) (t : Table size) : Table size :=
  let fresh := { Record.vacant with state := .used, pid := t.nextPid }
  { records := t.records.set slot fresh slot.isLt
    nextPid := t.nextPid + 1 }

/-- A slot is wanted for a new process when it is free. -/
def isFree (r : Record) : Bool :=
  !r.isLive

/-- A slot answers to a pid when it is live and carries it. -/
def answersTo (pid : Pid) (r : Record) : Bool :=
  r.isLive && r.pid == pid

/-- The least free slot. -/
def firstFree? (t : Table size) : Option (Fin size) :=
  t.slots.find? fun slot => isFree (t.record slot)

/-- The least slot that answers to a pid. -/
def find? (pid : Pid) (t : Table size) : Option (Fin size) :=
  t.slots.find? fun slot => answersTo pid (t.record slot)

end Table

end FeedbackQueue
