import FeedbackQueue.Text.Blank
import FeedbackQueue.Text.Numeral
import Mathlib.Data.List.Basic

/-!
# Reading what is written

A text may list words with any blanks between them, and a number may be written in decimal.  Both
are read as they were written.

* `Text.Lists` — a text lists words;
* `Text.words_of_lists` — then they are its words;
* `Text.append_mark_inj`, `Text.append_last_mark_inj` — a mark divides a text in one way;
* `Text.natural?_toString`, `Text.integer32?_toString` — numbers are read from their decimal form.
-/

namespace FeedbackQueue.Text

variable {words : List (List Char)} {text word : List Char} {c : Char}

/-! ## Words -/

/-- A text lists words in an order: between any two there is at least one blank, and at both ends
there may be some. -/
inductive Lists : List (List Char) → List Char → Prop
  | nothing : Lists [] []
  | last (word : List Char) : Lists [word] word
  | word (word : List Char) {words : List (List Char)} {c : Char} {text : List Char}
    (blank : isBlank c = true) (rest : Lists words text) : Lists (word :: words) (word ++ c :: text)
  | blank {words : List (List Char)} {c : Char} {text : List Char} (blank : isBlank c = true)
    (rest : Lists words text) : Lists words (c :: text)

theorem pieces_eq_splitOnP (text : List Char) : pieces text = text.splitOnP isBlank := by
  induction text with
  | nil => rfl
  | cons c rest ih =>
    rw [pieces, List.splitOnP_cons_eq_if_modifyHead, ih]
    split
    · rfl
    · cases hpieces : rest.splitOnP isBlank with
      | nil => exact absurd hpieces (List.splitOnP_ne_nil _ _)
      | cons piece others => rfl

/-- A blank divides the words before it from those after. -/
theorem words_append_cons (before after : List Char) (hc : isBlank c = true) :
    Text.words (before ++ c :: after) = Text.words before ++ Text.words after := by
  simp only [Text.words, pieces_eq_splitOnP, List.splitOnP_append_cons before after hc,
    List.filter_append]

theorem words_cons (text : List Char) (hc : isBlank c = true) :
    Text.words (c :: text) = Text.words text :=
  words_append_cons [] text hc

/-- Characters without a blank are one word. -/
theorem words_of_not_blank (hne : word ≠ []) (hword : ∀ c ∈ word, isBlank c = false) :
    Text.words word = [word] := by
  rw [Text.words, pieces_eq_splitOnP, List.splitOnP_eq_singleton hword]
  simp [hne]

theorem words_of_lists (h : Lists words text)
    (hwords : ∀ word ∈ words, word ≠ [] ∧ ∀ c ∈ word, isBlank c = false) :
    Text.words text = words := by
  induction h with
  | nothing => rfl
  | last word =>
    obtain ⟨hne, hword⟩ := hwords word List.mem_cons_self
    exact words_of_not_blank hne hword
  | @word word words c text hc rest ih =>
    obtain ⟨hne, hword⟩ := hwords word List.mem_cons_self
    rw [words_append_cons word text hc, words_of_not_blank hne hword,
      ih fun other hmem => hwords other (List.mem_cons_of_mem _ hmem)]
    rfl
  | @blank words c text hc rest ih => rw [words_cons text hc, ih hwords]

/-- Every text lists its words. -/
theorem lists_words (text : List Char) : Lists (Text.words text) text := by
  -- the text up to its first blank is the first word, unless it is empty
  cases hfind : text.find? isBlank with
  | none =>
    have hword : ∀ c ∈ text, isBlank c = false := by simpa using hfind
    by_cases hne : text = []
    · subst hne
      exact .nothing
    · rw [words_of_not_blank hne hword]
      exact .last text
  | some c =>
    obtain ⟨hc, word, rest, htext, hword⟩ := List.find?_eq_some_iff_append.mp hfind
    have hshorter : rest.length < text.length := by
      simp only [htext, List.length_append, List.length_cons]
      omega
    have hrest := lists_words rest
    rw [htext]
    by_cases hne : word = []
    · subst hne
      exact words_cons rest hc ▸ .blank hc hrest
    · rw [words_append_cons word rest hc, words_of_not_blank hne (by simpa using hword)]
      exact .word word hc hrest
termination_by text.length

theorem splitAtFirst_append {mark : Char} {before : List Char} (after : List Char)
    (h : mark ∉ before) : splitAtFirst mark (before ++ mark :: after) = some (before, after) := by
  have hbefore : ∀ c ∈ before, (c != mark) = true := fun c hc =>
    bne_iff_ne.mpr (ne_of_mem_of_not_mem hc h)
  rw [splitAtFirst, List.dropWhile_append_of_pos hbefore, List.takeWhile_append_of_pos hbefore]
  simp

/-- A mark that is not in what comes before it divides a text in one way. -/
theorem append_mark_inj {mark : Char} {before before' after after' : List Char}
    (hbefore : mark ∉ before) (hbefore' : mark ∉ before') :
    before ++ mark :: after = before' ++ mark :: after' ↔ before = before' ∧ after = after' := by
  constructor
  · intro h
    have hsplit := splitAtFirst_append after hbefore
    rw [h, splitAtFirst_append after' hbefore'] at hsplit
    exact (Prod.mk.inj (Option.some.inj hsplit)).imp Eq.symm Eq.symm
  · rintro ⟨rfl, rfl⟩
    rfl

/-- A mark that is not in what comes after it divides a text in one way. -/
theorem append_last_mark_inj {mark : Char} {before before' after after' : List Char}
    (hafter : mark ∉ after) (hafter' : mark ∉ after') :
    before ++ mark :: after = before' ++ mark :: after' ↔ before = before' ∧ after = after' := by
  have hreverse : ∀ front back : List Char,
      (front ++ mark :: back).reverse = back.reverse ++ mark :: front.reverse := by simp
  rw [← List.reverse_inj, hreverse, hreverse,
    append_mark_inj (by simpa using hafter) (by simpa using hafter'), List.reverse_inj,
    List.reverse_inj, and_comm]

/-! ## Numerals -/

theorem isBlank_of_isDigit (hc : c.isDigit = true) : isBlank c = false := by
  have hrange : 48 ≤ c.toNat ∧ c.toNat ≤ 57 := by
    simpa [Char.isDigit, UInt32.le_iff_toNat_le] using hc
  simp only [isBlank, blankRanges, List.any_cons, List.any_nil, Bool.or_eq_false_iff,
    Bool.and_eq_false_iff, decide_eq_false_iff_not, and_true]
  omega

theorem isDigit_of_mem_toDigits {n : Nat} (hc : c ∈ Nat.toDigits 10 n) : c.isDigit = true :=
  Nat.isDigit_of_mem_toDigits (by decide) (by decide) hc

/-- Digits do not start with a sign. -/
theorem toDigits_ne_cons {n : Nat} (hc : c.isDigit = false) (rest : List Char) :
    Nat.toDigits 10 n ≠ c :: rest := by
  intro h
  have hdigit : c.isDigit = true := isDigit_of_mem_toDigits (h ▸ List.mem_cons_self)
  rw [hc] at hdigit
  cases hdigit

theorem digits?_toDigits (n : Nat) : digits? (Nat.toDigits 10 n) = some n := by
  have hdigits : (Nat.toDigits 10 n).all Char.isDigit = true :=
    List.all_eq_true.mpr fun c hc => isDigit_of_mem_toDigits hc
  have hvalue : digitsValue (Nat.toDigits 10 n) = n := Nat.ofDigitChars_ten_toDigits
  simp [digits?, hdigits, hvalue]

theorem natural?_toString {bound n : Nat} (h : n < bound) :
    natural? bound (toString n).toList = some n := by
  rw [Nat.toString_eq_repr, Nat.toList_repr]
  unfold natural?
  split
  case h_1 rest hsign => exact absurd hsign (toDigits_ne_cons rfl rest)
  case h_2 => simp [digits?_toDigits, h]

/-- A number of 32 bits is written with digits alone, or with a minus before them. -/
theorem toList_toString_int32 (v : Int32) :
    (∃ n : Nat, v.toInt = n ∧ (toString v).toList = Nat.toDigits 10 n) ∨
      ∃ n : Nat, v.toInt = -n ∧ (toString v).toList = '-' :: Nat.toDigits 10 n := by
  have hwritten : toString v = toString v.toInt := rfl
  rw [hwritten]
  cases v.toInt with
  | ofNat n => exact .inl ⟨n, rfl, Nat.toList_repr⟩
  | negSucc n =>
    refine .inr ⟨n + 1, rfl, ?_⟩
    have hsign : toString (Int.negSucc n) = "-" ++ toString (n + 1) := rfl
    simp [hsign]

theorem integer32?_toString (v : Int32) : integer32? (toString v).toList = some v := by
  have hlow : -2147483648 ≤ v.toInt := v.minValue_le_toInt
  have hhigh : v.toInt ≤ Int32.maxValue.toInt := v.toInt_le
  unfold integer32?
  obtain ⟨n, hvalue, htext⟩ | ⟨n, hvalue, htext⟩ := toList_toString_int32 v
  · rw [htext]
    split
    case h_1 rest hsign => exact absurd hsign (toDigits_ne_cons rfl rest)
    case h_2 rest hsign => exact absurd hsign (toDigits_ne_cons rfl rest)
    case h_3 => simp [digits?_toDigits, ← hvalue, hlow, hhigh]
  · rw [htext]
    simp [digits?_toDigits, ← hvalue, hlow, hhigh]

theorem isDigit_of_mem_toString {n : Nat} (hc : c ∈ (toString n).toList) : c.isDigit = true := by
  rw [Nat.toString_eq_repr, Nat.toList_repr] at hc
  exact isDigit_of_mem_toDigits hc

/-- A number of 32 bits is written with nothing but digits and a sign. -/
theorem isDigit_of_mem_toString_int32 {v : Int32} (hc : c ∈ (toString v).toList) :
    c = '-' ∨ c.isDigit = true := by
  obtain ⟨n, -, htext⟩ | ⟨n, -, htext⟩ := toList_toString_int32 v
  · exact .inr (isDigit_of_mem_toDigits (htext ▸ hc))
  · rw [htext] at hc
    exact (List.mem_cons.mp hc).imp_right isDigit_of_mem_toDigits

theorem isBlank_of_mem_toString {n : Nat} (hc : c ∈ (toString n).toList) : isBlank c = false :=
  isBlank_of_isDigit (isDigit_of_mem_toString hc)

theorem isBlank_of_mem_toString_int32 {v : Int32} (hc : c ∈ (toString v).toList) :
    isBlank c = false := by
  obtain rfl | hdigit := isDigit_of_mem_toString_int32 hc
  · decide
  · exact isBlank_of_isDigit hdigit

/-! Numbers that are written alike are equal. -/

theorem toString_uint32_inj {n n' : UInt32} : toString n = toString n' ↔ n = n' := by
  constructor
  · intro h
    have htext : toString n.toNat = toString n'.toNat := h
    have hsame := natural?_toString n.toNat_lt
    rw [htext, natural?_toString n'.toNat_lt] at hsame
    exact UInt32.toNat_inj.mp (Option.some.inj hsame).symm
  · exact congrArg toString

theorem toString_int32_inj {v v' : Int32} : toString v = toString v' ↔ v = v' := by
  constructor
  · intro h
    have hsame := integer32?_toString v
    rw [h, integer32?_toString] at hsame
    exact (Option.some.inj hsame).symm
  · exact congrArg toString

end FeedbackQueue.Text
