/-!
# Numerals

How integers are written in boot lines and log lines.  A numeral is a run of ASCII digits, at least
one, after an optional sign: one `+`, or for signed numbers one `-`.  Leading zeros are allowed, and
a value outside the range of its type is refused.

* `natural?`, `integer32?` — reading;
* `hexadecimal` — the written form of channels.
-/

namespace FeedbackQueue.Text

/-- The value of a decimal digit. -/
def digitValue (c : Char) : Nat :=
  c.toNat - '0'.toNat

/-- The value of a run of digits, most significant first. -/
def digitsValue (digits : List Char) : Nat :=
  digits.foldl (fun value c => 10 * value + digitValue c) 0

/-- Reads one or more ASCII digits and nothing else. -/
def digits? (text : List Char) : Option Nat :=
  if !text.isEmpty && text.all Char.isDigit then some (digitsValue text) else none

/-- Reads an unsigned numeral whose value is below `bound`. -/
def natural? (bound : Nat) (text : List Char) : Option Nat :=
  let digits := match text with
    | '+' :: rest => rest
    | _ => text
  (digits? digits).filter (· < bound)

/-- The number of values of a machine word, which bounds sizes and levels. -/
def wordBound : Nat := UInt64.size

/-- Reads a signed numeral of 32 bits. -/
def integer32? (text : List Char) : Option Int32 :=
  let value? : Option Int := match text with
    | '-' :: rest => (digits? rest).map fun n => -(n : Int)
    | '+' :: rest => (digits? rest).map fun n => (n : Int)
    | _ => (digits? text).map fun n => (n : Int)
  (value?.filter fun n => Int32.minValue.toInt ≤ n && n ≤ Int32.maxValue.toInt).map Int32.ofInt

/-- The hexadecimal form with its mark, such as `0x2a`. -/
def hexadecimal (n : Nat) : String :=
  "0x" ++ String.ofList (Nat.toDigits 16 n)

end FeedbackQueue.Text
