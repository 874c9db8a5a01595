import FeedbackQueue.Fault

/-!
# Statistics

Counters of what the scheduler did.  They are 64-bit words and wrap, and no decision depends on
them.

* `Statistics.record` — counts one occurrence;
* `Statistics.utilization` — the share of rounds that ran a process, in percent.
-/

namespace FeedbackQueue

/-- The things that are counted. -/
inductive Occurrence
  /-- A process was handed to a CPU. -/
  | pick
  /-- A round found nothing runnable. -/
  | idle
  /-- The active and expired sets were exchanged. -/
  | swap
  /-- A process yielded. -/
  | yield
  /-- A yield moved the process to a lower active level. -/
  | demotion
  /-- A yield moved the process to the expired set. -/
  | expiration
  /-- An exhausted level was drained, which moved so many other processes. -/
  | cascade (moved : Nat)
  /-- A sleeper was made runnable. -/
  | wakeup
  /-- A kill reached a process. -/
  | kill
  /-- A process was made runnable for the first time. -/
  | fork
  /-- A process exited. -/
  | exit
  deriving DecidableEq, Repr

/-- The counters. -/
structure Statistics where
  picks : UInt64 := 0
  idle : UInt64 := 0
  swaps : UInt64 := 0
  yields : UInt64 := 0
  demotions : UInt64 := 0
  expirations : UInt64 := 0
  /-- Drains of a level. -/
  cascades : UInt64 := 0
  /-- Processes that drains have moved. -/
  cascaded : UInt64 := 0
  wakeups : UInt64 := 0
  kills : UInt64 := 0
  forks : UInt64 := 0
  exits : UInt64 := 0
  deriving DecidableEq, Repr

namespace Statistics

/-- Counts one occurrence. -/
def record (s : Statistics) : Occurrence → Statistics
  | .pick => { s with picks := s.picks + 1 }
  | .idle => { s with idle := s.idle + 1 }
  | .swap => { s with swaps := s.swaps + 1 }
  | .yield => { s with yields := s.yields + 1 }
  | .demotion => { s with demotions := s.demotions + 1 }
  | .expiration => { s with expirations := s.expirations + 1 }
  | .cascade moved =>
    { s with cascades := s.cascades + 1, cascaded := s.cascaded + UInt64.ofNat moved }
  | .wakeup => { s with wakeups := s.wakeups + 1 }
  | .kill => { s with kills := s.kills + 1 }
  | .fork => { s with forks := s.forks + 1 }
  | .exit => { s with exits := s.exits + 1 }

/-- The share of rounds that ran a process, in percent rounded down, and zero before the first
round.  Sum and product are computed in 64 bits and fault when they do not fit. -/
def utilization (s : Statistics) : Except Fault Nat :=
  let rounds := s.picks.toNat + s.idle.toNat
  let scaled := s.picks.toNat * 100
  if UInt64.size ≤ rounds then .error (.overflow .add)
  else if rounds = 0 then .ok 0
  else if UInt64.size ≤ scaled then .error (.overflow .multiply)
  else .ok (scaled / rounds)

end Statistics

end FeedbackQueue
