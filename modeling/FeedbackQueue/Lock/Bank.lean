import FeedbackQueue.Lock.Interrupts

/-!
# Banks of locks

Every lock is held with interrupts masked: taking a lock puts a mask on, releasing it takes one
away, and locks may be released in any order.

A lock is held through a *guard*, which releases it when dropped, or it has been *forgotten*: the
guard is gone and the lock stays held until it is released by force.  That is how a lock crosses a
context switch, taken on one side and released on the other.
-/

namespace FeedbackQueue.Lock

/-- The locks that are held, by name, and the interrupt state they share. -/
structure Bank (ι : Type) where
  /-- The interrupt state. -/
  interrupts : Interrupts
  /-- Locks held through a guard, latest first. -/
  guarded : List ι := []
  /-- Locks whose guard was forgotten, latest first. -/
  forgotten : List ι := []
  deriving DecidableEq

namespace Bank

variable {ι : Type} [DecidableEq ι]

/-- Whether a lock is held, with or without a guard. -/
def isHeld (b : Bank ι) (lock : ι) : Bool :=
  lock ∈ b.guarded || lock ∈ b.forgotten

/-- Number of masks in force. -/
def depth (b : Bank ι) : Nat :=
  b.interrupts.depth

/-- Takes a lock that is free. -/
def acquire? (b : Bank ι) (lock : ι) : Option (Bank ι) :=
  if b.isHeld lock then none
  else some { b with interrupts := b.interrupts.push, guarded := lock :: b.guarded }

/-- Drops the guard of a lock. -/
def release (b : Bank ι) (lock : ι) : Bank ι :=
  if lock ∈ b.guarded then
    { b with interrupts := b.interrupts.pop, guarded := b.guarded.erase lock }
  else b

/-- Forgets the guard of a lock, which stays held. -/
def forget (b : Bank ι) (lock : ι) : Bank ι :=
  if lock ∈ b.guarded then
    { b with guarded := b.guarded.erase lock, forgotten := lock :: b.forgotten }
  else b

/-- Releases a lock whose guard was forgotten. -/
def forceRelease (b : Bank ι) (lock : ι) : Bank ι :=
  if lock ∈ b.forgotten then
    { b with interrupts := b.interrupts.pop, forgotten := b.forgotten.erase lock }
  else b

/-- Turns interrupts on. -/
def enable (b : Bank ι) : Bank ι :=
  { b with interrupts := b.interrupts.enable }

end Bank

end FeedbackQueue.Lock
