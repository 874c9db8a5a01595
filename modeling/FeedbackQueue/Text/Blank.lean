/-!
# Blank characters and words

A *blank* is a character with the Unicode property `White_Space`: twenty-five characters, of which
six are ASCII.  Boot lines are divided at blanks, and a policy word may have blanks before it.

* `isBlank` — membership in the table of ranges;
* `words` — the maximal runs of characters that are not blank, in order;
* `splitAtFirst` — the text before and after the first occurrence of a character.
-/

namespace FeedbackQueue.Text

/-- First and last code point of each run of blank characters, in ascending order. -/
def blankRanges : List (Nat × Nat) :=
  [(0x9, 0xD), (0x20, 0x20), (0x85, 0x85), (0xA0, 0xA0), (0x1680, 0x1680), (0x2000, 0x200A),
   (0x2028, 0x2029), (0x202F, 0x202F), (0x205F, 0x205F), (0x3000, 0x3000)]

/-- A character is blank when one of the ranges holds its code point. -/
def isBlank (c : Char) : Bool :=
  blankRanges.any fun (first, last) => first ≤ c.toNat && c.toNat ≤ last

/-- The text without the blanks it starts with. -/
def skipBlanks (text : List Char) : List Char :=
  text.dropWhile isBlank

/-- The pieces between blanks.  There is one more piece than there are blanks, so two blanks in a
row enclose an empty piece. -/
def pieces : List Char → List (List Char)
  | [] => [[]]
  | c :: rest =>
    if isBlank c then [] :: pieces rest
    else
      match pieces rest with
      | [] => [[c]]
      | piece :: others => (c :: piece) :: others

/-- The words of a text: its pieces that are not empty. -/
def words (text : List Char) : List (List Char) :=
  (pieces text).filter fun piece => !piece.isEmpty

/-- The text before and after the first `mark`, or nothing when the text has no `mark`. -/
def splitAtFirst (mark : Char) (text : List Char) : Option (List Char × List Char) :=
  match text.dropWhile (· != mark) with
  | [] => none
  | _ :: after => some (text.takeWhile (· != mark), after)

end FeedbackQueue.Text
