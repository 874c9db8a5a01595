import FeedbackQueue.Kernel.Turn
import FeedbackQueue.Queue.Sequences

/-!
# Effects

What operations do to a scheduler, taken apart into the least changes that make sense: the record of
a process changes together with its place in the queues and with the CPU that runs it.

* `Effect.apply` — the change itself;
* `Effect.Allowed` — what holds whenever an operation makes the change;
* `Effect.AllowedAll`, `Effect.applyAll` — changes one after another.

No operation does anything else, and a property that every allowed effect keeps is kept by all of
them.
-/

namespace FeedbackQueue

/-- The record of a process whose turn has ended. -/
def Ending.record (r : Record) : Ending → Record
  | .yield => { r with state := .runnable }
  | .sleep channel => { r with channel := some channel, state := .sleeping }
  | .exit status => { r with exitStatus := status, state := .zombie }

/-- The record of a sleeper that has been woken.  Round robin fills its budget. -/
def Record.woken (cfg : Config) (r : Record) : Record :=
  { r with
    state := .runnable
    channel := none
    quantum := if cfg.effectivePolicy = .roundRobin then cfg.procQuantum else r.quantum }

/-- A change of a scheduler. -/
inductive Effect (cfg : Config)
  /-- A free slot gets a fresh process with a home level. -/
  | create (slot : Fin cfg.maxProcs) (name : String) (parent : Option Pid) (home : Nat)
  /-- A fresh process becomes runnable, and is put into a queue if there are queues. -/
  | activate (slot : Fin cfg.maxProcs)
  /-- The slot of a process that has exited becomes free. -/
  | reap (slot : Fin cfg.maxProcs)
  /-- A process is asked to end. -/
  | mark (slot : Fin cfg.maxProcs)
  /-- A tick is charged to the budget of a process. -/
  | charge (slot : Fin cfg.maxProcs)
  /-- The budget of a process is filled again. -/
  | refill (slot : Fin cfg.maxProcs)
  /-- A sleeper becomes runnable, in the queue that it is in. -/
  | wake (slot : Fin cfg.maxProcs)
  /-- A runnable process gets a CPU. -/
  | dispatch (cpu : Fin cfg.ncpu) (slot : Fin cfg.maxProcs)
  /-- The process that a CPU runs gives the CPU back.  One that exits leaves its queue. -/
  | stop (cpu : Fin cfg.ncpu) (slot : Fin cfg.maxProcs) (ending : Ending)
  /-- The next table scan of a CPU starts elsewhere. -/
  | aim (cpu : Fin cfg.ncpu) (cursor : Nat)
  /-- The sets are exchanged. -/
  | swap (isLive : Fin cfg.maxProcs → Bool)
  /-- An active queue is drained. -/
  | cascade (source target : Nat) (set : QueueSet) (skip : Option Nat)
  /-- A process that yields is moved to the tail of a queue. -/
  | requeue (slot : Fin cfg.maxProcs) (level : Nat) (set : QueueSet)
  /-- A process that was woken is moved to the tail of the active queue of its level. -/
  | rejoin (slot : Fin cfg.maxProcs) (pid : Pid)
  /-- The ticks of a queue change. -/
  | setTicks (level : Nat) (set : QueueSet) (value : Int32)
  /-- Something is counted. -/
  | count (occurrence : Occurrence)
  /-- The window of dumps changes. -/
  | setWindow (window : Window)

namespace Effect

variable {cfg : Config}

/-- Changes a scheduler. -/
def apply (s : Scheduler cfg) : Effect cfg → Scheduler cfg
  | create slot name parent home =>
    { s with
      table := (s.table.claim slot).adjust slot fun r =>
        { r with name, quantum := cfg.procQuantum, parent }
      queues := s.queues.adjustLink slot fun _ => .detached home }
  | activate slot =>
    { s with
      table := s.table.adjust slot fun r => { r with state := .runnable }
      queues := if cfg.effectivePolicy.usesQueues then
          s.queues.relink slot (s.queues.link slot).home .active
        else s.queues }
  | reap slot => { s with table := s.table.adjust slot fun _ => .vacant }
  | mark slot => { s with table := s.table.adjust slot fun r => { r with killed := true } }
  | charge slot => { s with table := s.table.adjust slot Record.charge }
  | refill slot =>
    { s with table := s.table.adjust slot fun r => { r with quantum := cfg.procQuantum } }
  | wake slot => { s with table := s.table.adjust slot (Record.woken cfg) }
  | dispatch cpu slot =>
    { s with
      table := s.table.adjust slot fun r => { r with state := .running }
      cpus := s.replaceCpu cpu { s.cpu cpu with current := some slot } }
  | stop cpu slot ending =>
    { s with
      table := s.table.adjust slot fun r => ending.record r
      cpus := s.replaceCpu cpu { s.cpu cpu with current := none }
      queues := match ending with
        | .exit _ => if cfg.effectivePolicy.usesQueues then s.queues.remove slot else s.queues
        | _ => s.queues }
  | aim cpu cursor => { s with cpus := s.replaceCpu cpu { s.cpu cpu with cursor } }
  | swap isLive => { s with queues := s.queues.swap isLive, stats := s.stats.record .swap }
  | cascade source target set skip =>
    { s with queues := s.queues.relinkAll target set (s.queues.sequences.movers source skip) }
  | requeue slot level set => { s with queues := s.queues.relink slot level set }
  | rejoin slot _ =>
    let link := s.queues.link slot
    { s with queues := s.queues.relink slot (link.level?.getD link.home) .active }
  | setTicks level set value =>
    { s with queues := s.queues.adjustLane level set fun lane => { lane with quantum := value } }
  | count occurrence => { s with stats := s.stats.record occurrence }
  | setWindow window => { s with window }

/-- What holds of a scheduler when an operation makes a change. -/
def Allowed (s : Scheduler cfg) : Effect cfg → Prop
  | create slot _ _ home => (s.table.record slot).state = .unused ∧ home < cfg.levels
  | activate slot => (s.table.record slot).state = .used
  | reap slot => (s.table.record slot).state = .zombie
  | wake slot => (s.table.record slot).state = .sleeping
  | dispatch cpu slot =>
    (s.table.record slot).state = .runnable ∧ (s.cpu cpu).current = none ∧
      (cfg.effectivePolicy.usesQueues → ∃ level, s.queues.location slot = some (level, .active))
  | stop cpu slot _ => (s.cpu cpu).current = some slot
  | aim _ cursor => cursor < cfg.maxProcs
  | cascade source target set _ =>
    source < cfg.levels ∧ target < cfg.levels ∧ (set = .active → target ≠ source)
  | requeue slot level _ =>
    cfg.effectivePolicy.usesQueues ∧ (s.table.record slot).state = .running ∧ level < cfg.levels
  | rejoin slot pid =>
    cfg.effectivePolicy.usesQueues ∧ (s.table.record slot).pid = pid ∧
      ((s.table.record slot).state = .runnable ∨ (s.table.record slot).state = .sleeping)
  | count occurrence => occurrence ≠ .swap
  | mark _ | charge _ | refill _ | swap _ | setTicks .. | setWindow _ => True

/-- Changes one after another. -/
def applyAll (s : Scheduler cfg) (effects : List (Effect cfg)) : Scheduler cfg :=
  effects.foldl apply s

/-- Whether each of some changes is allowed when its turn comes. -/
def AllowedAll (s : Scheduler cfg) : List (Effect cfg) → Prop
  | [] => True
  | effect :: rest => effect.Allowed s ∧ AllowedAll (effect.apply s) rest

end Effect

end FeedbackQueue
