import FeedbackQueue.Kernel.Machine

/-!
# Picking the next process

* the table scan takes the first runnable slot from the cursor of the CPU on, round the table;
* round robin takes the first runnable member of its queue;
* feedback takes the first runnable member of the highest active queue that has one, and exchanges
  the sets first when no active queue has one.

The process that is picked comes with its lock held.
-/

namespace FeedbackQueue.Kernel

variable {cfg : Config}

/-- Exchanges the active and expired sets.  Whether a slot holds a process is looked up for the
slots that are in no queue. -/
def swapSets : Kernel cfg Unit := do
  let q ← queues
  let unlinked := (allSlots cfg).filter fun slot => !q.isLinked slot
  let live ← unlinked.filterM fun slot => return (← peek slot).isLive
  setQueues (q.swap fun slot => live.contains slot)
  count .swap
  note .swapped

/-- Under feedback, exchanges the sets when no active queue has a runnable member. -/
def swapIfIdle (levels : Nat) : Kernel cfg Unit := do
  if cfg.effectivePolicy = .feedback then
    let runnable ← locate Record.isSchedulable ((← queues).activeMembers levels)
    if runnable.isNone then swapSets

/-- Picks from the active queues of the first `levels` levels. -/
def pickQueued (levels : Nat) : Kernel cfg (Option (Fin cfg.maxProcs)) :=
  locked .queues do
    swapIfIdle levels
    seize Record.isSchedulable ((← queues).activeMembers levels)

/-- The slot at an offset from the cursor, round the table.  The sum is a machine word. -/
def scanSlot (cursor offset : Nat) : Kernel cfg (Fin cfg.maxProcs) :=
  if cursor + offset < UInt64.size then slotAt ((cursor + offset) % cfg.maxProcs)
  else throw (.overflow .add)

/-- Looks for a runnable process at some offsets from the cursor.  The lock of the slot that is
found stays held. -/
def scan (cursor : Nat) : List Nat → Kernel cfg (Option (Fin cfg.maxProcs))
  | [] => return none
  | offset :: rest => do
    let slot ← scanSlot cursor offset
    if ← grab Record.isSchedulable slot then
      return some slot
    scan cursor rest

/-- Picks by table scan, and moves the cursor just past the slot that is found. -/
def pickScanned (cpu : Nat) : Kernel cfg (Option (Fin cfg.maxProcs)) := do
  let cursor ← withCpu cpu fun c => (c.cursor, c)
  let found ← scan cursor (List.range cfg.maxProcs)
  if let some slot := found then
    withCpu cpu fun c => ((), { c with cursor := (slot.val + 1) % cfg.maxProcs })
  return found

/-- Picks the next process for a CPU. -/
def pick (cpu : Nat) : Kernel cfg (Option (Fin cfg.maxProcs)) :=
  match cfg.effectivePolicy with
  | .fifo => pickScanned cpu
  | .roundRobin => pickQueued 1
  | .feedback => pickQueued cfg.levels

/-- Picks the next process and gives it up at once. -/
def pickAndDrop (cpu : Nat) : Kernel cfg (Option (Fin cfg.maxProcs)) := do
  let found ← pick cpu
  if let some slot := found then release (.process slot)
  return found

end FeedbackQueue.Kernel
