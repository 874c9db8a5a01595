import FeedbackQueue.Lock.Bank

/-!
# Locked cells

A row of integers, each behind a lock of its own.  A cell is read when its lock is taken and written
through the guard.

`Cells.perform` carries out one request; a request that would wait for ever, or that has no guard to
act on, is answered and changes nothing.
-/

namespace FeedbackQueue.Lock

/-- A row of cells and the locks that guard them. -/
structure Cells (n : Nat) where
  /-- The locks, named by the index of the cell. -/
  bank : Bank (Fin n)
  /-- The contents of the cells. -/
  values : Vector Int n

/-- What can be asked of a row of cells. -/
inductive Request (n : Nat)
  /-- Take the lock and read the cell. -/
  | lock (cell : Fin n)
  /-- Drop the guard. -/
  | unlock (cell : Fin n)
  /-- Write through the guard. -/
  | set (cell : Fin n) (value : Int)
  /-- Forget the guard. -/
  | forget (cell : Fin n)
  /-- Release a lock whose guard was forgotten. -/
  | force (cell : Fin n)
  /-- Turn interrupts on. -/
  | enable
  deriving DecidableEq, Repr

/-- The answer to a request. -/
inductive Answer
  | value (value : Int)
  | flag (flag : Bool)
  | wouldBlock
  | noGuard
  | notForgotten
  | nothing
  deriving DecidableEq, Repr

namespace Cells

variable {n : Nat}

/-- A row of cells with no lock held. -/
def ofValues (enabled : Bool) (values : Vector Int n) : Cells n where
  bank := { interrupts := { enabled } }
  values := values

/-- Carries out one request. -/
def perform (c : Cells n) : Request n → Answer × Cells n
  | .lock cell =>
    match c.bank.acquire? cell with
    | none => (.wouldBlock, c)
    | some bank => (.value c.values[cell], { c with bank })
  | .unlock cell => (.flag (cell ∈ c.bank.guarded), { c with bank := c.bank.release cell })
  | .set cell value =>
    if cell ∈ c.bank.guarded then
      (.value c.values[cell], { c with values := c.values.set cell value })
    else (.noGuard, c)
  | .forget cell => (.flag (cell ∈ c.bank.guarded), { c with bank := c.bank.forget cell })
  | .force cell =>
    if cell ∈ c.bank.forgotten then (.flag true, { c with bank := c.bank.forceRelease cell })
    else (.notForgotten, c)
  | .enable => (.nothing, { c with bank := c.bank.enable })

/-- Carries out requests one after another. -/
def performAll (c : Cells n) (requests : List (Request n)) : Cells n :=
  requests.foldl (fun c request => (c.perform request).2) c

end Cells

end FeedbackQueue.Lock
