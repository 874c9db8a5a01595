import FeedbackQueue.Fault

/-!
# Process records

What the process table knows about a process apart from its place in the run queues.
-/

namespace FeedbackQueue

/-- A process identifier.  Free slots carry zero, and identifiers are handed out in ascending order
from one on, modulo `2 ^ 32`. -/
abbrev Pid := UInt32

/-- The fields of a process that its own lock guards. -/
structure Record where
  /-- State of the slot. -/
  state : ProcState
  /-- Identifier, zero in a free slot. -/
  pid : Pid
  /-- Name for listings. -/
  name : String
  /-- Ticks that are left before the process has to yield. -/
  quantum : Int32
  /-- What a sleeping process waits on. -/
  channel : Option Nat
  /-- Set once the process has been asked to end. -/
  killed : Bool
  /-- Identifier of the parent. -/
  parent : Option Pid
  /-- Status given at the end of the process. -/
  exitStatus : Int32
  deriving DecidableEq, Repr

namespace Record

/-- The record of a free slot. -/
def vacant : Record where
  state := .unused
  pid := 0
  name := ""
  quantum := 0
  channel := none
  killed := false
  parent := none
  exitStatus := 0

/-- Only a runnable process may be picked. -/
def isSchedulable (r : Record) : Bool :=
  r.state.isSchedulable

/-- Whether the slot holds a process. -/
def isLive (r : Record) : Bool :=
  r.state.isLive

/-- Moves to another state, if the change is allowed. -/
def enter (target : ProcState) (r : Record) : Except Fault Record :=
  if r.state.mayBecome target then .ok { r with state := target }
  else .error (.illegalTransition r.pid r.state target)

/-- Charges one tick; the budget stops at the least 32-bit value, because under the table scan it
is never filled again. -/
def charge (r : Record) : Record :=
  { r with quantum := if r.quantum = Int32.minValue then r.quantum else r.quantum - 1 }

end Record

end FeedbackQueue
