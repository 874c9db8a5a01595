import FeedbackQueue.Config
import FeedbackQueue.Text.Numeral

/-!
# Boot lines

A boot line is a text of words divided by blanks.  A word `key=value` whose key belongs to the
scheduler is a *setting*; every other word is meant for someone else and is passed over.

* `Setting.ofWord?` — reads one word, and `Setting.word` writes one;
* `Config.apply` — carries out one setting, so that the last setting of a key counts;
* `Config.ofBootLine` — the whole line, on top of the feedback defaults.

Malformed numbers are refused before anything else is looked at, since a line that cannot be read
says nothing about the configuration.
-/

namespace FeedbackQueue

/-- One setting of a boot line. -/
inductive Setting
  | policy (value : Policy)
  | levels (value : Nat)
  | levelQuantum (value : Int32)
  | procQuantum (value : Int32)
  | startLevel (value : Nat)
  | maxProcs (value : Nat)
  | ncpu (value : Nat)
  deriving DecidableEq, Repr

namespace Setting

/-- The size or level that a value spells. -/
def size (value : List Char) : Except Refusal Nat :=
  match Text.natural? Text.wordBound value with
  | some n => .ok n
  | none => .error (.invalidConfig .malformedNumber)

/-- The budget that a value spells. -/
def budget (value : List Char) : Except Refusal Int32 :=
  match Text.integer32? value with
  | some n => .ok n
  | none => .error (.invalidConfig .malformedNumber)

/-- The setting of a key, or nothing when the key is not the scheduler's. -/
def ofPair? (key : String) (value : List Char) : Except Refusal (Option Setting) :=
  match key with
  | "sched" => .ok (some (.policy (Policy.ofText value)))
  | "levels" => (size value).map fun n => some (.levels n)
  | "level_quantum" => (budget value).map fun n => some (.levelQuantum n)
  | "proc_quantum" => (budget value).map fun n => some (.procQuantum n)
  | "start_level" => (size value).map fun n => some (.startLevel n)
  | "nproc" => (size value).map fun n => some (.maxProcs n)
  | "ncpu" => (size value).map fun n => some (.ncpu n)
  | _ => .ok none

/-- The setting that a word spells, or nothing when the word has no `=` or a foreign key. -/
def ofWord? (word : List Char) : Except Refusal (Option Setting) :=
  match Text.splitAtFirst '=' word with
  | none => .ok none
  | some (key, value) => ofPair? (String.ofList key) value

/-- The key and the value of a setting, as they are written. -/
def pair : Setting → String × String
  | policy value => ("sched", value.name)
  | levels value => ("levels", toString value)
  | levelQuantum value => ("level_quantum", toString value)
  | procQuantum value => ("proc_quantum", toString value)
  | startLevel value => ("start_level", toString value)
  | maxProcs value => ("nproc", toString value)
  | ncpu value => ("ncpu", toString value)

/-- The word that spells a setting. -/
def word (setting : Setting) : List Char :=
  setting.pair.1.toList ++ '=' :: setting.pair.2.toList

/-- Whether a setting gives the number of levels. -/
def isLevels : Setting → Bool
  | levels _ => true
  | _ => false

/-- The settings of a boot line, in order. -/
def ofLine (line : List Char) : Except Refusal (List Setting) :=
  ((Text.words line).mapM ofWord?).map fun settings => settings.filterMap id

end Setting

namespace Config

/-- The settings that describe a configuration completely. -/
def settings (c : Config) : List Setting :=
  [.policy c.policy, .levels c.levels, .levelQuantum c.levelQuantum, .procQuantum c.procQuantum,
   .startLevel c.startLevel, .maxProcs c.maxProcs, .ncpu c.ncpu]

/-- Carries out one setting. -/
def apply (c : Config) : Setting → Config
  | .policy value => { c with policy := value }
  | .levels value => { c with levels := value }
  | .levelQuantum value => { c with levelQuantum := value }
  | .procQuantum value => { c with procQuantum := value }
  | .startLevel value => { c with startLevel := value }
  | .maxProcs value => { c with maxProcs := value }
  | .ncpu value => { c with ncpu := value }

/-- The configuration that settings describe.  A policy other than feedback has a single level
unless the settings say how many there are; the starting level is then that level. -/
def ofSettings (settings : List Setting) : Config :=
  let c := settings.foldl apply feedback
  if c.policy ≠ .feedback ∧ !settings.any Setting.isLevels then
    { c with levels := 1, startLevel := 0 }
  else c

/-- Reads a boot line and checks the configuration it describes. -/
def ofBootLine (line : List Char) : Except Refusal Config := do
  let settings ← Setting.ofLine line
  (ofSettings settings).validate

end Config

end FeedbackQueue
