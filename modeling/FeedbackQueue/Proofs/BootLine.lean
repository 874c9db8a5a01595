import FeedbackQueue.BootLine
import FeedbackQueue.Proofs.Text
import Mathlib.Data.List.Induction

/-!
# What a boot line says

A boot line is read word by word, and the configuration changes as it goes.  What comes out can be
said without the order: a line with a malformed number is refused, and otherwise only the last value
of each key counts (`Config.ofBootLine_eq`).

The seven keys are treated alike: `Field` is a field of a configuration with the key that sets it,
and what holds of all seven is proved of a `Field`.
-/

namespace FeedbackQueue

namespace Setting

/-- The key of a setting. -/
def key (setting : Setting) : String :=
  setting.pair.1

/-- The keys whose values are sizes or levels. -/
def sizeKeys : List String :=
  ["levels", "start_level", "nproc", "ncpu"]

/-- The keys whose values are budgets. -/
def budgetKeys : List String :=
  ["level_quantum", "proc_quantum"]

/-- The keys that belong to the scheduler. -/
def keys : List String :=
  "sched" :: sizeKeys ++ budgetKeys

/-- What a piece of a line gives for a key: the text after its first `=`, if the key is the text
before. -/
def given? (key : String) (piece : List Char) : Option (List Char) :=
  if piece.takeWhile (· != '=') = key.toList then (piece.dropWhile (· != '=')).tail? else none

/-- The values that a line gives for a key, in order. -/
def given (key : String) (line : List Char) : List (List Char) :=
  (line.splitOnP Text.isBlank).filterMap (given? key)

/-- A line is malformed if any value of a numeric key is not a number of its type. -/
def Malformed (line : List Char) : Prop :=
  (∃ key ∈ sizeKeys, ∃ value ∈ given key line, Text.natural? Text.wordBound value = none) ∨
    ∃ key ∈ budgetKeys, ∃ value ∈ given key line, Text.integer32? value = none

instance : DecidablePred Malformed :=
  fun _ => inferInstanceAs (Decidable (_ ∨ _))

theorem given_eq_words (key : String) (line : List Char) :
    given key line = (Text.words line).filterMap (given? key) := by
  have hempty : (fun piece => if !piece.isEmpty then given? key piece else none) = given? key := by
    funext piece
    cases piece with
    | nil => simp [given?]
    | cons c rest => rfl
  rw [given, Text.words, Text.pieces_eq_splitOnP, List.filterMap_filter, hempty]

/-! ## Pairs -/

/-- The settings of sizes and levels with their keys. -/
def sizes : List (String × (Nat → Setting)) :=
  [("levels", levels), ("start_level", startLevel), ("nproc", maxProcs), ("ncpu", ncpu)]

/-- The settings of budgets with their keys. -/
def budgets : List (String × (Int32 → Setting)) :=
  [("level_quantum", levelQuantum), ("proc_quantum", procQuantum)]

/-- How a value is read under a key. -/
inductive Reads (value : List Char) : String → Except Refusal (Option Setting) → Prop
  | policy : Reads value "sched" (.ok (some (.policy (Policy.ofText value))))
  | size {k : String} {set : Nat → Setting} {n : Nat} (own : (k, set) ∈ sizes)
    (number : Text.natural? Text.wordBound value = some n) : Reads value k (.ok (some (set n)))
  | notSize {k : String} {set : Nat → Setting} (own : (k, set) ∈ sizes)
    (malformed : Text.natural? Text.wordBound value = none) :
    Reads value k (.error (.invalidConfig .malformedNumber))
  | budget {k : String} {set : Int32 → Setting} {n : Int32} (own : (k, set) ∈ budgets)
    (number : Text.integer32? value = some n) : Reads value k (.ok (some (set n)))
  | notBudget {k : String} {set : Int32 → Setting} (own : (k, set) ∈ budgets)
    (malformed : Text.integer32? value = none) :
    Reads value k (.error (.invalidConfig .malformedNumber))
  | foreign {k : String} (foreign : k ∉ keys) : Reads value k (.ok none)

section Pairs

variable {k : String} {value : List Char} {setting : Setting} {refusal : Refusal}

theorem reads_size {set : Nat → Setting} (own : (k, set) ∈ sizes) :
    Reads value k ((size value).map fun n => some (set n)) := by
  unfold size
  cases hread : Text.natural? Text.wordBound value with
  | none => exact .notSize own hread
  | some n => exact .size own hread

theorem reads_budget {set : Int32 → Setting} (own : (k, set) ∈ budgets) :
    Reads value k ((budget value).map fun n => some (set n)) := by
  unfold budget
  cases hread : Text.integer32? value with
  | none => exact .notBudget own hread
  | some n => exact .budget own hread

theorem reads_ofPair? (k : String) (value : List Char) : Reads value k (ofPair? k value) := by
  unfold ofPair?
  split
  case h_1 => exact .policy
  case h_2 | h_5 | h_6 | h_7 => exact reads_size (by simp [sizes])
  case h_3 | h_4 => exact reads_budget (by simp [budgets])
  case h_8 => exact .foreign (by simp_all [keys, sizeKeys, budgetKeys])

/-- A setting is read under its own key. -/
theorem Reads.key_eq {result : Except Refusal (Option Setting)} (h : Reads value k result)
    (hok : result = .ok (some setting)) : setting.key = k := by
  cases h with
  | policy => cases hok; rfl
  | size own =>
    cases hok
    simp only [sizes, List.mem_cons, List.not_mem_nil, or_false, Prod.mk.injEq] at own
    obtain ⟨rfl, rfl⟩ | ⟨rfl, rfl⟩ | ⟨rfl, rfl⟩ | ⟨rfl, rfl⟩ := own <;> rfl
  | budget own =>
    cases hok
    simp only [budgets, List.mem_cons, List.not_mem_nil, or_false, Prod.mk.injEq] at own
    obtain ⟨rfl, rfl⟩ | ⟨rfl, rfl⟩ := own <;> rfl
  | notSize | notBudget | foreign => cases hok

/-- A value is refused only for a malformed number. -/
theorem Reads.refused {result : Except Refusal (Option Setting)} (h : Reads value k result)
    (herror : result = .error refusal) : refusal = .invalidConfig .malformedNumber ∧
      (k ∈ sizeKeys ∧ Text.natural? Text.wordBound value = none ∨
        k ∈ budgetKeys ∧ Text.integer32? value = none) := by
  cases h with
  | notSize own malformed =>
    cases herror
    exact ⟨rfl, .inl ⟨List.mem_map_of_mem (f := Prod.fst) own, malformed⟩⟩
  | notBudget own malformed =>
    cases herror
    exact ⟨rfl, .inr ⟨List.mem_map_of_mem (f := Prod.fst) own, malformed⟩⟩
  | policy | size | budget | foreign => cases herror

end Pairs

/-! ## Single words -/

section Words

variable {k : String} {word value : List Char} {setting : Setting} {refusal : Refusal}

theorem given?_eq_some_iff : given? k word = some value ↔
    ∃ before, Text.splitAtFirst '=' word = some (before, value) ∧ String.ofList before = k := by
  unfold given? Text.splitAtFirst
  cases hafter : word.dropWhile (· != '=') with
  | nil => simp
  | cons c after =>
    have hkey : word.takeWhile (· != '=') = k.toList ↔
        String.ofList (word.takeWhile (· != '=')) = k := by
      rw [← String.toList_inj, String.toList_ofList]
    simp [hkey, and_comm]

/-- A word that gives a value for a key is read as that pair. -/
theorem ofWord?_of_given? (h : given? k word = some value) : ofWord? word = ofPair? k value := by
  obtain ⟨before, hsplit, rfl⟩ := given?_eq_some_iff.mp h
  rw [ofWord?, hsplit]

/-- Only a word that gives a value for a key is read as anything. -/
theorem exists_given? (h : ofWord? word ≠ .ok none) :
    ∃ k value, given? k word = some value ∧ Reads value k (ofWord? word) := by
  cases hsplit : Text.splitAtFirst '=' word with
  | none => exact absurd (by rw [ofWord?, hsplit]) h
  | some pair =>
    have hgiven : given? (String.ofList pair.1) word = some pair.2 :=
      given?_eq_some_iff.mpr ⟨pair.1, hsplit, rfl⟩
    exact ⟨_, _, hgiven, ofWord?_of_given? hgiven ▸ reads_ofPair? _ _⟩

/-- The setting that a word spells, if its number is not malformed. -/
def ofWord (word : List Char) : Option Setting :=
  (ofWord? word).toOption.join

theorem given?_of_ofWord (h : ofWord word = some setting) :
    ∃ value, given? setting.key word = some value := by
  have hread : ofWord? word = .ok (some setting) := by
    unfold ofWord at h
    cases hword : ofWord? word with
    | error refusal => rw [hword] at h; cases h
    | ok read => rw [hword] at h; exact congrArg _ h
  obtain ⟨k, value, hgiven, hreads⟩ := exists_given? (by rw [hread]; simp)
  exact ⟨value, hreads.key_eq hread ▸ hgiven⟩

end Words

/-! ## Lines -/

theorem refused_of_error {word : List Char} {refusal : Refusal}
    (h : ofWord? word = .error refusal) :
    refusal = .invalidConfig .malformedNumber ∧ ∃ key value, given? key word = some value ∧
      (key ∈ sizeKeys ∧ Text.natural? Text.wordBound value = none ∨
        key ∈ budgetKeys ∧ Text.integer32? value = none) := by
  obtain ⟨key, value, hgiven, hreads⟩ := exists_given? (by rw [h]; simp)
  obtain ⟨hrefusal, hmalformed⟩ := hreads.refused h
  exact ⟨hrefusal, key, value, hgiven, hmalformed⟩

/-- A line is malformed exactly if one of its words is refused. -/
theorem malformed_iff (line : List Char) : Malformed line ↔
    ∃ word ∈ Text.words line, ofWord? word = .error (.invalidConfig .malformedNumber) := by
  have hsize : ∀ key ∈ sizeKeys, ∀ value, Text.natural? Text.wordBound value = none →
      ofPair? key value = .error (.invalidConfig .malformedNumber) := by
    intro key hkey value hnone
    simp only [sizeKeys, List.mem_cons, List.not_mem_nil, or_false] at hkey
    obtain rfl | rfl | rfl | rfl := hkey <;> simp [ofPair?, size, hnone, Except.map]
  have hbudget : ∀ key ∈ budgetKeys, ∀ value, Text.integer32? value = none →
      ofPair? key value = .error (.invalidConfig .malformedNumber) := by
    intro key hkey value hnone
    simp only [budgetKeys, List.mem_cons, List.not_mem_nil, or_false] at hkey
    obtain rfl | rfl := hkey <;> simp [ofPair?, budget, hnone, Except.map]
  unfold Malformed
  simp only [given_eq_words, List.mem_filterMap]
  constructor
  · rintro (⟨key, hkey, value, ⟨word, hmem, hgiven⟩, hnone⟩ |
      ⟨key, hkey, value, ⟨word, hmem, hgiven⟩, hnone⟩)
    · exact ⟨word, hmem, (ofWord?_of_given? hgiven).trans (hsize key hkey value hnone)⟩
    · exact ⟨word, hmem, (ofWord?_of_given? hgiven).trans (hbudget key hkey value hnone)⟩
  · rintro ⟨word, hmem, herror⟩
    obtain ⟨-, key, value, hgiven, ⟨hkey, hnone⟩ | ⟨hkey, hnone⟩⟩ := refused_of_error herror
    · exact .inl ⟨key, hkey, value, ⟨word, hmem, hgiven⟩, hnone⟩
    · exact .inr ⟨key, hkey, value, ⟨word, hmem, hgiven⟩, hnone⟩

/-- A line that is not malformed has the settings of its words. -/
theorem ofLine_eq (line : List Char) : ofLine line
    = if Malformed line then .error (.invalidConfig .malformedNumber)
      else .ok ((Text.words line).filterMap ofWord) := by
  have hread : ∀ word, ofWord? word = .error (.invalidConfig .malformedNumber) ∨
      ofWord? word = .ok (ofWord word) := by
    intro word
    cases h : ofWord? word with
    | error refusal => exact .inl (by rw [(refused_of_error h).1])
    | ok setting => exact .inr (by simp [ofWord, h, Except.toOption])
  have hmapM : ∀ words : List (List Char), words.mapM ofWord?
      = if ∃ word ∈ words, ofWord? word = .error (.invalidConfig .malformedNumber) then
          .error (.invalidConfig .malformedNumber)
        else .ok (words.map ofWord) := by
    intro words
    induction words with
    | nil => rfl
    | cons word rest ih =>
      rw [List.mapM_cons, ih]
      obtain herror | hok := hread word
      · have hfirst : ∃ other ∈ word :: rest,
            ofWord? other = .error (.invalidConfig .malformedNumber) := ⟨word, by simp, herror⟩
        rw [herror, if_pos hfirst]
        rfl
      · rw [hok]
        by_cases hrest : ∃ word ∈ rest, ofWord? word = .error (.invalidConfig .malformedNumber)
        · rw [if_pos hrest, if_pos (by simpa [hok] using hrest)]
          rfl
        · rw [if_neg hrest, if_neg (by simpa [hok] using hrest)]
          rfl
  rw [ofLine, hmapM]
  simp only [← malformed_iff]
  split
  · rfl
  · simp [Except.map, List.filterMap_map]

end Setting

/-! ## Fields -/

/-- A field of a configuration, with the key that sets it. -/
structure ConfigField (α : Type) where
  key : String
  get : Config → α
  read : List Char → Option α
  set : α → Setting
  ofPair?_key : ∀ value a, read value = some a →
      Setting.ofPair? key value = .ok (some (set a)) := by
    intro value a h
    simp [Setting.ofPair?, Setting.size, Setting.budget, Except.map, h]
  read_none : ∀ value, read value = none →
      key ∈ Setting.sizeKeys ∧ Text.natural? Text.wordBound value = none ∨
        key ∈ Setting.budgetKeys ∧ Text.integer32? value = none := by
    intro value h
    first
    | exact .inl ⟨by simp [Setting.sizeKeys], h⟩
    | exact .inr ⟨by simp [Setting.budgetKeys], h⟩
  get_set : ∀ (c : Config) a, get (c.apply (set a)) = a := by
    exact fun _ _ => rfl
  get_other : ∀ (c : Config) (setting : Setting), setting.key ≠ key →
      get (c.apply setting) = get c := by
    intro c setting hkey
    cases setting <;> first | rfl | exact absurd rfl hkey

namespace ConfigField

def policy : ConfigField Policy where
  key := "sched"
  get := Config.policy
  read value := some (Policy.ofText value)
  set := Setting.policy
  ofPair?_key _ _ h := by cases h; rfl
  read_none _ h := by cases h

def levels : ConfigField Nat where
  key := "levels"
  get := Config.levels
  read := Text.natural? Text.wordBound
  set := Setting.levels

def levelQuantum : ConfigField Int32 where
  key := "level_quantum"
  get := Config.levelQuantum
  read := Text.integer32?
  set := Setting.levelQuantum

def procQuantum : ConfigField Int32 where
  key := "proc_quantum"
  get := Config.procQuantum
  read := Text.integer32?
  set := Setting.procQuantum

def startLevel : ConfigField Nat where
  key := "start_level"
  get := Config.startLevel
  read := Text.natural? Text.wordBound
  set := Setting.startLevel

def maxProcs : ConfigField Nat where
  key := "nproc"
  get := Config.maxProcs
  read := Text.natural? Text.wordBound
  set := Setting.maxProcs

def ncpu : ConfigField Nat where
  key := "ncpu"
  get := Config.ncpu
  read := Text.natural? Text.wordBound
  set := Setting.ncpu

variable {α : Type}

/-- After words none of whose values for the key is malformed, the field has the last of them. -/
theorem get_foldl (field : ConfigField α) (c : Config) (words : List (List Char))
    (hread : ∀ word ∈ words, ∀ value ∈ Setting.given? field.key word, (field.read value).isSome) :
    field.get ((words.filterMap Setting.ofWord).foldl Config.apply c)
      = ((words.filterMap (Setting.given? field.key)).getLast?.bind field.read).getD
          (field.get c) := by
  -- by induction from the end of the line, where the value that counts stands
  induction words using List.reverseRecOn with
  | nil => rfl
  | append_singleton words word ih =>
    have hbefore := ih fun word hmem => hread word (List.mem_append_left _ hmem)
    rw [List.filterMap_append, List.filterMap_append, List.foldl_append]
    cases hgiven : Setting.given? field.key word with
    | none =>
      -- the word may set another field
      have hother : field.get (([word].filterMap Setting.ofWord).foldl Config.apply
          ((words.filterMap Setting.ofWord).foldl Config.apply c))
          = field.get ((words.filterMap Setting.ofWord).foldl Config.apply c) := by
        cases hword : Setting.ofWord word with
        | none => simp [hword]
        | some setting =>
          obtain ⟨value, hvalue⟩ := Setting.given?_of_ofWord hword
          have hkey : setting.key ≠ field.key := by
            intro h
            rw [h, hgiven] at hvalue
            cases hvalue
          simp [hword, field.get_other _ setting hkey]
      rw [hother, hbefore]
      simp [hgiven]
    | some value =>
      obtain ⟨a, ha⟩ := Option.isSome_iff_exists.mp (hread word (by simp) value hgiven)
      have hword : Setting.ofWord word = some (field.set a) := by
        rw [Setting.ofWord, Setting.ofWord?_of_given? hgiven, field.ofPair?_key value a ha]
        rfl
      simp [hgiven, hword, ha, field.get_set]

end ConfigField

/-! ## Configurations -/

namespace Config

open Setting

/-- The feedback defaults with the last values of the keys in their place. -/
def withLast (last : String → Option (List Char)) : Config where
  policy := (last "sched").elim feedback.policy Policy.ofText
  levels := size "levels" feedback.levels
  levelQuantum := budget "level_quantum" feedback.levelQuantum
  procQuantum := budget "proc_quantum" feedback.procQuantum
  startLevel := size "start_level" feedback.startLevel
  maxProcs := size "nproc" feedback.maxProcs
  ncpu := size "ncpu" feedback.ncpu
where
  size (key : String) (default : Nat) : Nat :=
    ((last key).bind (Text.natural? Text.wordBound)).getD default
  budget (key : String) (default : Int32) : Int32 :=
    ((last key).bind Text.integer32?).getD default

/-- The configuration that the last values of the keys describe.  A policy other than feedback has a
single level unless the number of levels is given. -/
def ofLast (last : String → Option (List Char)) : Config :=
  let c := withLast last
  if last "levels" = none ∧ c.policy ≠ .feedback then { c with levels := 1, startLevel := 0 } else c

/-- Only the keys of the scheduler matter. -/
theorem ofLast_congr {last last' : String → Option (List Char)}
    (h : ∀ key ∈ keys, last key = last' key) : ofLast last = ofLast last' := by
  have hlevels := h "levels" (by simp [keys, sizeKeys])
  have hwith : withLast last = withLast last' := by
    simp only [keys, sizeKeys, budgetKeys, List.mem_cons, List.cons_append, List.nil_append,
      List.not_mem_nil, or_false, forall_eq_or_imp, forall_eq] at h
    simp only [withLast, withLast.size, withLast.budget, h]
  rw [ofLast, ofLast, hwith, hlevels]

section WellFormed

variable {line : List Char} (h : ¬Malformed line)
include h

/-- Every value of a key of the scheduler can be read. -/
theorem isSome_read {α : Type} (field : ConfigField α) {value : List Char}
    (hmem : value ∈ given field.key line) : (field.read value).isSome := by
  cases hread : field.read value with
  | some a => rfl
  | none =>
    obtain ⟨hkey, hnone⟩ | ⟨hkey, hnone⟩ := field.read_none value hread
    · exact absurd (.inl ⟨_, hkey, value, hmem, hnone⟩) h
    · exact absurd (.inr ⟨_, hkey, value, hmem, hnone⟩) h

theorem get_settings {α : Type} (field : ConfigField α) :
    field.get (((Text.words line).filterMap ofWord).foldl apply feedback)
      = ((given field.key line).getLast?.bind field.read).getD (field.get feedback) := by
  rw [given_eq_words]
  refine field.get_foldl feedback _ fun word hmem value hgiven => isSome_read h field ?_
  rw [given_eq_words]
  exact List.mem_filterMap.mpr ⟨word, hmem, hgiven⟩

theorem any_isLevels : ((Text.words line).filterMap ofWord).any isLevels = true ↔
    ¬(given "levels" line).getLast? = none := by
  have hlevels : ∀ setting : Setting, setting.isLevels = true ↔ setting.key = "levels" := by
    intro setting
    cases setting <;> simp [isLevels, key, pair]
  rw [List.any_eq_true, List.getLast?_eq_none_iff, given_eq_words]
  simp only [hlevels, List.mem_filterMap]
  constructor
  · rintro ⟨setting, ⟨word, hmem, hword⟩, hkey⟩
    obtain ⟨value, hgiven⟩ := given?_of_ofWord hword
    rw [hkey] at hgiven
    exact List.ne_nil_of_mem (List.mem_filterMap.mpr ⟨word, hmem, hgiven⟩)
  · intro hne
    obtain ⟨value, hvalue⟩ := List.exists_mem_of_ne_nil _ hne
    obtain ⟨word, hmem, hgiven⟩ := List.mem_filterMap.mp hvalue
    have hread : (ConfigField.levels.read value).isSome :=
      isSome_read h ConfigField.levels (by rw [given_eq_words]; exact hvalue)
    obtain ⟨n, hn⟩ := Option.isSome_iff_exists.mp hread
    refine ⟨.levels n, ⟨word, hmem, ?_⟩, rfl⟩
    have hpair : ofPair? "levels" value = .ok (some (.levels n)) :=
      ConfigField.levels.ofPair?_key value n hn
    rw [ofWord, ofWord?_of_given? hgiven, hpair]
    rfl

theorem foldl_settings : ((Text.words line).filterMap ofWord).foldl apply feedback
    = withLast fun key => (given key line).getLast? := by
  have helim : ∀ last : Option (List Char),
      (last.bind ConfigField.policy.read).getD feedback.policy
        = last.elim feedback.policy Policy.ofText := by
    intro last
    cases last <;> rfl
  have hpolicy := (get_settings h .policy).trans (helim _)
  have hlevels := get_settings h .levels
  have hlevelQuantum := get_settings h .levelQuantum
  have hprocQuantum := get_settings h .procQuantum
  have hstartLevel := get_settings h .startLevel
  have hmaxProcs := get_settings h .maxProcs
  have hncpu := get_settings h .ncpu
  generalize ((Text.words line).filterMap ofWord).foldl apply feedback = c at *
  exact (Config.mk.injEq ..).mpr
    ⟨hpolicy, hlevels, hlevelQuantum, hprocQuantum, hstartLevel, hmaxProcs, hncpu⟩

theorem ofSettings_eq : ofSettings ((Text.words line).filterMap ofWord)
    = ofLast fun key => (given key line).getLast? := by
  have hcondition : ∀ policy : Policy,
      (policy ≠ .feedback ∧ (!((Text.words line).filterMap ofWord).any isLevels) = true) ↔
        (given "levels" line).getLast? = none ∧ policy ≠ .feedback := by
    intro policy
    rw [Bool.not_eq_true', ← Bool.not_eq_true, any_isLevels h, not_not, and_comm]
  rw [ofSettings, ofLast, foldl_settings h]
  exact if_congr (hcondition _) rfl rfl

end WellFormed

theorem ofBootLine_eq (line : List Char) : ofBootLine line
    = if Malformed line then .error (.invalidConfig .malformedNumber)
      else (ofLast fun key => (given key line).getLast?).validate := by
  rw [ofBootLine, ofLine_eq]
  split
  case isTrue => rfl
  case isFalse h => exact congrArg validate (ofSettings_eq h)

/-- A boot line with a malformed number is refused.  Any other describes a configuration by the last
value of each key of the scheduler and nothing else, and that is checked.  So words that give each
of these keys at most once may stand in any order. -/
theorem ofBootLine_reads_last_values (line : List Char) :
    (ofBootLine line = if Malformed line then .error (.invalidConfig .malformedNumber)
      else (ofLast fun key => (given key line).getLast?).validate) ∧
    (∀ other : List Char, (Malformed other ↔ Malformed line) →
      (∀ key ∈ keys, (given key other).getLast? = (given key line).getLast?) →
      ofBootLine other = ofBootLine line) ∧
    ∀ other : List Char,
      ((other.splitOnP Text.isBlank).filter (!·.isEmpty)).Perm
        ((line.splitOnP Text.isBlank).filter (!·.isEmpty)) →
      (∀ key ∈ keys, (given key line).length ≤ 1) → ofBootLine other = ofBootLine line := by
  have hsame : ∀ other : List Char, (Malformed other ↔ Malformed line) →
      (∀ key ∈ keys, (given key other).getLast? = (given key line).getLast?) →
      ofBootLine other = ofBootLine line := by
    intro other hmalformed hlast
    rw [ofBootLine_eq, ofBootLine_eq, ofLast_congr hlast]
    simp only [hmalformed]
  refine ⟨ofBootLine_eq line, hsame, fun other hperm hdistinct => ?_⟩
  have hgiven : ∀ key, (given key other).Perm (given key line) := by
    intro key
    rw [given_eq_words, given_eq_words, Text.words, Text.words, Text.pieces_eq_splitOnP,
      Text.pieces_eq_splitOnP]
    exact hperm.filterMap _
  refine hsame other ?_ fun key hkey => ?_
  · simp only [Malformed, (hgiven _).mem_iff]
  -- a list of at most one value has only itself as a permutation
  · have hvalues := hgiven key
    have hlength := hdistinct key hkey
    cases hline : given key line with
    | nil =>
      rw [hline] at hvalues
      rw [hvalues.eq_nil]
    | cons value rest =>
      rw [hline, List.length_cons] at hlength
      obtain rfl : rest = [] := List.eq_nil_of_length_eq_zero (by omega)
      rw [hline] at hvalues
      rw [hvalues.eq_singleton]

/-- Settings in another order, with words of someone else between them. -/
theorem reordered_line_describes_same :
    ofBootLine "proc_quantum=6 quiet levels=2 root=/dev/sda sched=MQSS".toList
      = .ok { feedback with levels := 2, procQuantum := 6 } := by
  have hline : ofBootLine "quiet root=/dev/sda sched=MQSS levels=2 proc_quantum=6".toList
      = .ok { feedback with levels := 2, procQuantum := 6 } := by decide +kernel
  rw [← hline]
  exact (ofBootLine_reads_last_values _).2.2 _ (by decide +kernel) (by decide +kernel)

end Config

end FeedbackQueue
