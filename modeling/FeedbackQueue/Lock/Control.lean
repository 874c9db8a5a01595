import FeedbackQueue.Lock.Cells

/-!
# Interrupt controls

How interrupts are masked is up to the hardware.  A *control* is what locks know of it: two calls,
the number of masks in force, and whether interrupts are on.

* `Control.Nests` — what locks rely on;
* `Interrupts.control` — the masks of `FeedbackQueue.Lock.Interrupts` as a control;
* `Cells.callsAll` — the calls that requests make.  Locks act on interrupts in no other way.
-/

namespace FeedbackQueue.Lock

/-- What locks ask of an interrupt control. -/
inductive Call
  /-- Turn interrupts off, with one more mask. -/
  | push
  /-- Take one mask away. -/
  | pop
  deriving DecidableEq, Repr

/-- An interrupt control whose states are a `σ`. -/
structure Control (σ : Type) where
  push : σ → σ
  pop : σ → σ
  /-- Number of masks in force. -/
  depth : σ → Nat
  /-- Whether interrupts are on. -/
  enabled : σ → Bool

namespace Control

variable {σ : Type}

/-- Masks nest.  The outermost one saves whether interrupts were on, and as long as nobody else
turns them on, they are off until it is taken away, and then as they were. -/
structure Nests (c : Control σ) (saved : σ → Bool) : Prop where
  depth_push : ∀ i, c.depth (c.push i) = c.depth i + 1
  depth_pop : ∀ i, 0 < c.depth i → c.depth (c.pop i) = c.depth i - 1
  enabled_push : ∀ i, c.enabled (c.push i) = false
  saved_push_outermost : ∀ i, c.depth i = 0 → saved (c.push i) = c.enabled i
  saved_push : ∀ i, 0 < c.depth i → saved (c.push i) = saved i
  saved_pop : ∀ i, 1 < c.depth i → saved (c.pop i) = saved i
  enabled_pop : ∀ i, 1 < c.depth i → c.enabled i = false → c.enabled (c.pop i) = false
  enabled_pop_outermost : ∀ i, c.depth i = 1 → c.enabled i = false → c.enabled (c.pop i) = saved i

/-- Answers a call. -/
def call (c : Control σ) (i : σ) : Call → σ
  | .push => c.push i
  | .pop => c.pop i

/-- Answers calls one after another. -/
def callAll (c : Control σ) (i : σ) (calls : List Call) : σ :=
  calls.foldl c.call i

end Control

/-- The masks of a CPU as a control. -/
def Interrupts.control : Control Interrupts where
  push := push
  pop := pop
  depth := depth
  enabled := enabled

namespace Cells

variable {n : Nat}

/-- The calls that a request makes.  One that is answered without a change makes none. -/
def calls (c : Cells n) : Request n → List Call
  | .lock cell => if c.bank.isHeld cell then [] else [.push]
  | .unlock cell => if c.bank.guarded.contains cell then [.pop] else []
  | .force cell => if c.bank.forgotten.contains cell then [.pop] else []
  | .set .. | .forget _ | .enable => []

/-- The calls that requests make, one after another. -/
def callsAll (c : Cells n) : List (Request n) → List Call
  | [] => []
  | request :: rest => c.calls request ++ (c.perform request).2.callsAll rest

end Cells

end FeedbackQueue.Lock
