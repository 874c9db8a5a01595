import FeedbackQueue.Proofs.BootLine
import Mathlib.Data.List.Nodup

/-!
# Writing a boot line

Every valid configuration has boot lines that describe it.  Its seven settings are written with
their values in decimal, and the words may stand in any order with any blanks between them.

* `Setting.ofWord?_word` — the word that spells a setting is read as that setting;
* `Config.ofSettings_of_perm` — the settings of a configuration describe it, in any order;
* `Config.ofBootLine_of_lists` — a line that lists them is read as the configuration.
-/

namespace FeedbackQueue

theorem Policy.ofText_name (p : Policy) : Policy.ofText p.name.toList = p := by
  cases p <;> decide

namespace Setting

variable {setting : Setting} {settings : List Setting} {line : List Char}

/-! ## Words -/

/-- Whether the value of a setting can be held by its type.  Budgets always can. -/
def InRange : Setting → Prop
  | levels value | startLevel value | maxProcs value | ncpu value => value < Text.wordBound
  | policy _ | levelQuantum _ | procQuantum _ => True

instance : DecidablePred InRange
  | levels _ | startLevel _ | maxProcs _ | ncpu _ => inferInstanceAs (Decidable (_ < _))
  | policy _ | levelQuantum _ | procQuantum _ => isTrue trivial

theorem isBlank_of_mem_key {c : Char} (hc : c ∈ setting.key.toList) :
    c ≠ '=' ∧ Text.isBlank c = false := by
  have hkeys : keys.all (·.toList.all fun c => c != '=' && !Text.isBlank c) = true := by decide
  have hkey : setting.key ∈ keys := by
    cases setting <;> simp [key, pair, keys, sizeKeys, budgetKeys]
  simpa using List.all_eq_true.mp (List.all_eq_true.mp hkeys _ hkey) c hc

theorem isBlank_of_mem_value {c : Char} (hc : c ∈ setting.pair.2.toList) :
    Text.isBlank c = false := by
  cases setting with
  | policy value =>
    have hname : value.name.toList.all (!Text.isBlank ·) = true := by cases value <;> decide
    simpa using List.all_eq_true.mp hname c hc
  | levels | startLevel | maxProcs | ncpu => exact Text.isBlank_of_mem_toString hc
  | levelQuantum | procQuantum => exact Text.isBlank_of_mem_toString_int32 hc

theorem word_not_blank (setting : Setting) :
    setting.word ≠ [] ∧ ∀ c ∈ setting.word, Text.isBlank c = false := by
  refine ⟨by simp [word], fun c hc => ?_⟩
  obtain hc | hc := List.mem_append.mp hc
  · exact (isBlank_of_mem_key hc).2
  · obtain rfl | hc := List.mem_cons.mp hc
    · decide
    · exact isBlank_of_mem_value hc

theorem ofPair?_pair (h : setting.InRange) :
    ofPair? setting.pair.1 setting.pair.2.toList = .ok (some setting) := by
  cases setting with
  | policy value =>
    exact ConfigField.policy.ofPair?_key _ value (congrArg some (Policy.ofText_name value))
  | levels value => exact ConfigField.levels.ofPair?_key _ value (Text.natural?_toString h)
  | levelQuantum value =>
    exact ConfigField.levelQuantum.ofPair?_key _ value (Text.integer32?_toString value)
  | procQuantum value =>
    exact ConfigField.procQuantum.ofPair?_key _ value (Text.integer32?_toString value)
  | startLevel value => exact ConfigField.startLevel.ofPair?_key _ value (Text.natural?_toString h)
  | maxProcs value => exact ConfigField.maxProcs.ofPair?_key _ value (Text.natural?_toString h)
  | ncpu value => exact ConfigField.ncpu.ofPair?_key _ value (Text.natural?_toString h)

theorem ofWord?_word (h : setting.InRange) : ofWord? setting.word = .ok (some setting) := by
  have hsplit : Text.splitAtFirst '=' setting.word
      = some (setting.pair.1.toList, setting.pair.2.toList) :=
    Text.splitAtFirst_append _ fun hmem => (isBlank_of_mem_key hmem).1 rfl
  rw [ofWord?, hsplit]
  dsimp only
  rw [String.ofList_toList, ofPair?_pair h]

theorem mapM_ofWord? (h : ∀ setting ∈ settings, setting.InRange) :
    (settings.map word).mapM ofWord? = .ok (settings.map some) := by
  induction settings with
  | nil => rfl
  | cons setting rest ih =>
    rw [List.map_cons, List.mapM_cons, ofWord?_word (h setting List.mem_cons_self),
      ih fun other hmem => h other (List.mem_cons_of_mem _ hmem)]
    rfl

/-- A line that lists the words of some settings has these settings. -/
theorem ofLine_of_lists (h : ∀ setting ∈ settings, setting.InRange)
    (hline : Text.Lists (settings.map word) line) : ofLine line = .ok settings := by
  have hwords : Text.words line = settings.map word := by
    refine Text.words_of_lists hline fun word hmem => ?_
    obtain ⟨setting, -, rfl⟩ := List.mem_map.mp hmem
    exact setting.word_not_blank
  rw [ofLine, hwords, mapM_ofWord? h]
  simp [Except.map, List.filterMap_map]

end Setting

namespace Config

variable {c : Config} {settings : List Setting} {line : List Char}

/-! ## Settings -/

/-- Settings of different keys touch different fields. -/
theorem apply_comm (c : Config) {x y : Setting} (h : x.key ≠ y.key) :
    (c.apply x).apply y = (c.apply y).apply x := by
  cases x <;> cases y <;> first | rfl | exact absurd rfl h

theorem eq_of_key_eq {x y : Setting} (hx : x ∈ c.settings) (hy : y ∈ c.settings)
    (h : x.key = y.key) : x = y := by
  have hkeys : (c.settings.map Setting.key).Nodup := by
    have hkeys : c.settings.map Setting.key = ["sched", "levels", "level_quantum", "proc_quantum",
      "start_level", "nproc", "ncpu"] := rfl
    rw [hkeys]
    decide
  exact List.inj_on_of_nodup_map hkeys hx hy h

/-- All settings of a configuration together leave nothing of the one before. -/
theorem apply_settings (c before : Config) : c.settings.foldl apply before = c := by
  simp only [settings, List.foldl_cons, List.foldl_nil, apply]

theorem ofSettings_of_perm (h : settings.Perm c.settings) : ofSettings settings = c := by
  have hcomm : ∀ x ∈ settings, ∀ y ∈ settings, ∀ d : Config,
      (d.apply x).apply y = (d.apply y).apply x := by
    intro x hx y hy d
    by_cases hkey : x.key = y.key
    · rw [eq_of_key_eq (h.mem_iff.mp hx) (h.mem_iff.mp hy) hkey]
    · exact d.apply_comm hkey
  have hfold : settings.foldl apply feedback = c :=
    (h.foldl_eq' hcomm feedback).trans (c.apply_settings feedback)
  have hlevels : settings.any Setting.isLevels = true :=
    List.any_eq_true.mpr ⟨.levels c.levels, h.mem_iff.mpr (by simp [Config.settings]), rfl⟩
  simp [ofSettings, hfold, hlevels]

/-- A valid configuration is what a boot line describes that lists its settings, in any order and
with any blanks between them. -/
theorem ofBootLine_of_lists (hv : c.IsValid) (hrange : ∀ setting ∈ c.settings, setting.InRange)
    (hperm : settings.Perm c.settings) (hline : Text.Lists (settings.map Setting.word) line) :
    ofBootLine line = .ok c := by
  have hsettings : Setting.ofLine line = .ok settings :=
    Setting.ofLine_of_lists (fun setting hmem => hrange setting (hperm.mem_iff.mp hmem)) hline
  have hvalid : c.validate = .ok c := by
    rw [validate, hv]
  rw [ofBootLine, hsettings]
  exact (congrArg validate (ofSettings_of_perm hperm)).trans hvalid

/-- The table scan with the largest sizes and budgets.  Processes start at the last level. -/
def largest : Config where
  policy := .fifo
  levels := Text.wordBound - 1
  levelQuantum := Int32.maxValue
  procQuantum := Int32.maxValue
  startLevel := Text.wordBound - 2
  maxProcs := Text.wordBound - 1
  ncpu := Text.wordBound - 1

/-- A line with the settings in reverse, between blanks of several kinds. -/
def largestLine : List Char :=
  "ncpu=18446744073709551615\t".toList ++ "nproc=18446744073709551615\r\n ".toList ++
    "start_level=18446744073709551614\u3000".toList ++ "proc_quantum=2147483647 ".toList ++
    "level_quantum=2147483647\u00a0".toList ++ "levels=18446744073709551615  ".toList ++
    "sched=FIFO\n".toList

theorem largestLine_describes_largest : ofBootLine largestLine = .ok largest := by
  have hwords : Text.words largestLine = largest.settings.reverse.map Setting.word := by
    decide +kernel
  exact ofBootLine_of_lists (by decide +kernel) (by decide +kernel) (List.reverse_perm _)
    (hwords ▸ Text.lists_words largestLine)

end Config

end FeedbackQueue
