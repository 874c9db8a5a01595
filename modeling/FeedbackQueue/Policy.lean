import FeedbackQueue.Text.Blank

/-!
# Scheduling policies

* the table scan (`fifo`) looks for the next runnable slot and keeps no queues;
* round robin (`roundRobin`) keeps one queue and fills the budget of a process on every requeue;
* multi-level feedback (`feedback`) keeps an active and an expired queue per level and lets
  processes that use up a budget sink.
-/

namespace FeedbackQueue

/-- How the next process is chosen. -/
inductive Policy
  | fifo
  | roundRobin
  | feedback
  deriving DecidableEq, Repr

namespace Policy

/-- The number of a policy. -/
def number : Policy → Nat
  | fifo => 0
  | roundRobin => 1
  | feedback => 2

/-- The name of a policy in boot lines, dumps and log lines. -/
def name : Policy → String
  | fifo => "FIFO"
  | roundRobin => "RR"
  | feedback => "MQSS"

/-- Every policy but the table scan keeps run queues. -/
def usesQueues : Policy → Bool
  | fifo => false
  | _ => true

/-- Reads a policy.  Only the start of the word counts, after any blanks: a word that starts with
neither queue policy's name selects the table scan. -/
def ofText (text : List Char) : Policy :=
  let word := Text.skipBlanks text
  if feedback.name.toList.isPrefixOf word then feedback
  else if roundRobin.name.toList.isPrefixOf word then roundRobin
  else fifo

end Policy

end FeedbackQueue
