/-!
# Interrupt masking

Interrupts are turned off by nested masks.  The outermost mask remembers whether they were on, and
they come back on only when it is taken away.

The state is kept in a normal form: what the outermost mask remembers is there exactly while there
is a mask.  So a mask put on and taken away again leaves no trace.
-/

namespace FeedbackQueue.Lock

/-- The masks in force, at least one. -/
structure Mask where
  /-- Number of masks above the outermost one. -/
  extra : Nat
  /-- Whether interrupts were on before the outermost mask. -/
  resume : Bool
  deriving DecidableEq, Repr

/-- The interrupt state of a CPU. -/
structure Interrupts where
  /-- Whether interrupts are on. -/
  enabled : Bool
  /-- The masks in force. -/
  mask : Option Mask := none
  deriving DecidableEq, Repr

namespace Interrupts

/-- Number of masks in force. -/
def depth (i : Interrupts) : Nat :=
  match i.mask with
  | none => 0
  | some mask => mask.extra + 1

/-- Turns interrupts off and adds a mask. -/
def push (i : Interrupts) : Interrupts where
  enabled := false
  mask := match i.mask with
    | none => some { extra := 0, resume := i.enabled }
    | some mask => some { mask with extra := mask.extra + 1 }

/-- Takes one mask away.  Taking away the outermost one turns interrupts on if they were on before
it. -/
def pop (i : Interrupts) : Interrupts :=
  match i.mask with
  | none => i
  | some ⟨0, resume⟩ => { enabled := i.enabled || resume, mask := none }
  | some ⟨extra + 1, resume⟩ => { i with mask := some ⟨extra, resume⟩ }

/-- Turns interrupts on, whatever masks there are. -/
def enable (i : Interrupts) : Interrupts :=
  { i with enabled := true }

theorem depth_push (i : Interrupts) : i.push.depth = i.depth + 1 := by
  rcases i with ⟨_, _ | _⟩ <;> rfl

theorem depth_pop (i : Interrupts) : i.pop.depth = i.depth - 1 := by
  rcases i with ⟨_, _ | ⟨_ | _, _⟩⟩ <;> rfl

theorem enabled_push (i : Interrupts) : i.push.enabled = false := rfl

end Interrupts

end FeedbackQueue.Lock
