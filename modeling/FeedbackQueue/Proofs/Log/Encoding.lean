import FeedbackQueue.Log.Line
import Mathlib.Algebra.BigOperators.Group.List.Basic

/-!
# Bytes of texts

No character is encoded as the beginning of another one, so the bytes of a text can be read back one
character after another, and reading stops exactly where the bytes have been cut.

* `encodeChar_append_inj` — the first character can be told from the bytes;
* `encode_prefix_iff` — bytes of a text begin with those of another as the texts do;
* `prefix_wholeText_iff` — what is read from the front of some bytes;
* `LongestFit` — the longest beginning of a text that fits, and `longestFit_wholeText` that reading
  bytes that were cut off finds it.
-/

namespace FeedbackQueue.Log

variable {c d : Char} {bytes rest rest' : List UInt8} {text other whole : String} {room : Nat}

/-! ## Encoding -/

/-- The bytes are those of the library's encoding. -/
theorem toByteArray_encode (text : String) : (encode text).toByteArray = text.toByteArray := by
  conv_rhs => rw [← String.ofList_toList (s := text), String.toByteArray_ofList]
  rfl

theorem length_encode (text : String) : (encode text).length = text.utf8ByteSize := by
  rw [← List.size_toByteArray, toByteArray_encode]
  rfl

theorem encode_join (chunks : List String) :
    encode (String.join chunks) = (chunks.map encode).flatten := by
  rw [encode, String.toList_join, List.flatMap_assoc, ← List.flatMap_def]
  rfl

/-! ## Reading one character -/

/-- The bytes of a character are read as that character, whatever follows. -/
theorem decode_encodeChar_append (c : Char) (rest : List UInt8) :
    ((String.utf8EncodeChar c ++ rest).take charCapacity).toByteArray.utf8DecodeChar? 0
      = some c := by
  have hlength : (String.utf8EncodeChar c).length ≤ charCapacity := by
    rw [String.length_utf8EncodeChar]
    exact c.utf8Size_le_four
  rw [List.take_append, List.take_of_length_le hlength, List.toByteArray_append,
    ← List.utf8Encode_singleton]
  exact List.utf8DecodeChar?_utf8Encode_singleton_append

/-- What is read as a character begins with the bytes of that character. -/
theorem exists_of_decode
    (h : (bytes.take charCapacity).toByteArray.utf8DecodeChar? 0 = some c) :
    ∃ rest, bytes = String.utf8EncodeChar c ++ rest := by
  obtain ⟨after, hafter⟩ := ByteArray.exists_of_utf8DecodeChar?_eq_some h
  have hdata := congrArg (fun array : ByteArray => array.data.toList) hafter
  simp only [List.toList_data_toByteArray, ByteArray.data_append, Array.toList_append] at hdata
  refine ⟨after.data.toList ++ bytes.drop charCapacity, ?_⟩
  rw [← List.append_assoc, ← hdata, List.take_append_drop]

/-- Characters are told apart by their bytes, whatever follows them. -/
theorem encodeChar_append_inj
    (h : String.utf8EncodeChar c ++ rest = String.utf8EncodeChar d ++ rest') :
    c = d ∧ rest = rest' := by
  have hsame : some c = some d := by
    rw [← decode_encodeChar_append c rest, h, decode_encodeChar_append]
  obtain rfl := Option.some.inj hsame
  exact ⟨rfl, List.append_cancel_left h⟩

/-! ## Reading a text -/

theorem flatMap_encodeChar_prefix_iff {xs ys : List Char} :
    xs.flatMap String.utf8EncodeChar <+: ys.flatMap String.utf8EncodeChar ↔ xs <+: ys := by
  constructor
  · intro h
    induction xs generalizing ys with
    | nil => exact List.nil_prefix
    | cons c xs ih =>
      obtain ⟨rest, hrest⟩ := h
      rw [List.flatMap_cons, List.append_assoc] at hrest
      cases ys with
      | nil =>
        exact absurd (List.append_eq_nil_iff.mp hrest).1 String.utf8EncodeChar_ne_nil
      | cons d ys =>
        rw [List.flatMap_cons] at hrest
        obtain ⟨rfl, htail⟩ := encodeChar_append_inj hrest
        exact List.cons_prefix_cons.mpr ⟨rfl, ih ⟨rest, htail⟩⟩
  · rintro ⟨after, rfl⟩
    rw [List.flatMap_append]
    exact List.prefix_append _ _

theorem encode_prefix_iff : encode other <+: encode text ↔ other.toList <+: text.toList :=
  flatMap_encodeChar_prefix_iff

/-- The bytes of the characters that are read are at the front. -/
theorem wholeChars_isPrefix (fuel : Nat) (bytes : List UInt8) :
    (wholeChars fuel bytes).flatMap String.utf8EncodeChar <+: bytes := by
  induction fuel generalizing bytes with
  | zero => exact List.nil_prefix
  | succ fuel ih =>
    rw [wholeChars]
    split
    case h_1 => exact List.nil_prefix
    case h_2 c hread =>
      obtain ⟨rest, rfl⟩ := exists_of_decode hread
      rw [List.flatMap_cons, List.drop_left' (String.length_utf8EncodeChar c)]
      exact (List.prefix_append_right_inj _).mpr (ih rest)

/-- Characters whose bytes are at the front are read, with one unit of fuel for each. -/
theorem prefix_wholeChars {fuel : Nat} {chars : List Char} (hfuel : chars.length ≤ fuel)
    (h : chars.flatMap String.utf8EncodeChar <+: bytes) : chars <+: wholeChars fuel bytes := by
  induction chars generalizing fuel bytes with
  | nil => exact List.nil_prefix
  | cons c chars ih =>
    obtain ⟨rest, rfl⟩ := h
    obtain ⟨fuel, rfl⟩ : ∃ less, fuel = less + 1 := ⟨fuel - 1, by simp at hfuel; omega⟩
    rw [List.flatMap_cons, List.append_assoc, wholeChars, decode_encodeChar_append]
    dsimp only
    rw [List.drop_left' (String.length_utf8EncodeChar c)]
    exact List.cons_prefix_cons.mpr
      ⟨rfl, ih (by simpa using hfuel) (List.prefix_append _ _)⟩

/-- A character takes at least one byte. -/
theorem length_le_length_encode (text : String) : text.toList.length ≤ (encode text).length := by
  have hsum := List.length_le_sum_of_one_le
    (text.toList.map fun c => (String.utf8EncodeChar c).length) (by
      intro size hsize
      obtain ⟨c, -, rfl⟩ := List.mem_map.mp hsize
      rw [String.length_utf8EncodeChar]
      exact c.utf8Size_pos)
  rwa [List.length_map, ← List.length_flatMap] at hsum

/-- What is read from the front of some bytes begins with just those texts whose bytes are there. -/
theorem prefix_wholeText_iff :
    text.toList <+: (wholeText bytes).toList ↔ encode text <+: bytes := by
  rw [wholeText, String.toList_ofList]
  constructor
  · intro h
    exact (flatMap_encodeChar_prefix_iff.mpr h).trans
      (wholeChars_isPrefix bytes.length bytes)
  · intro h
    exact prefix_wholeChars (Nat.le_trans (length_le_length_encode text) h.length_le) h

/-! ## Cutting a text -/

/-- The longest beginning of a text, in whole characters, whose bytes fit into some room. -/
structure LongestFit (room : Nat) (whole text : String) : Prop where
  isPrefix : text.toList <+: whole.toList
  fits : text.utf8ByteSize ≤ room
  longest : ∀ other : String, other.toList <+: whole.toList → other.utf8ByteSize ≤ room →
    other.toList <+: text.toList

/-- Reading bytes that were cut off finds all that is left whole. -/
theorem longestFit_wholeText (room : Nat) (whole : String) :
    LongestFit room whole (wholeText ((encode whole).take room)) := by
  -- a text is read from what is left exactly when it begins the whole text and fits
  have hread : ∀ text : String,
      text.toList <+: (wholeText ((encode whole).take room)).toList ↔
        text.toList <+: whole.toList ∧ text.utf8ByteSize ≤ room := by
    intro text
    rw [prefix_wholeText_iff, List.prefix_take_iff, encode_prefix_iff, length_encode]
  obtain ⟨hbegins, hfits⟩ := (hread _).mp (List.prefix_refl _)
  exact ⟨hbegins, hfits, fun other hother hroom => (hread other).mpr ⟨hother, hroom⟩⟩

end FeedbackQueue.Log
