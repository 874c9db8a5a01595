/-!
# Columns of text

Text laid out in a column: cut to at most so many characters, then filled with spaces to at least so
many.  Cutting comes first, so a column is never narrower than its width.
-/

namespace FeedbackQueue.Text

/-- Where a text stands in a column that is wider than the text. -/
inductive Align
  | left
  | right
  | center
  deriving DecidableEq, Repr

/-- How many of `missing` spaces go before the text.  A centred text has the odd space after it. -/
def Align.before (missing : Nat) : Align → Nat
  | .left => 0
  | .right => missing
  | .center => missing / 2

/-- The text filled with spaces to `width` characters, unchanged when it is that long already. -/
def fill (align : Align) (width : Nat) (text : String) : String :=
  let missing := width - text.length
  let before := align.before missing
  String.ofList (List.replicate before ' ') ++ text
    ++ String.ofList (List.replicate (missing - before) ' ')

/-- The first `count` characters. -/
def clip (count : Nat) (text : String) : String :=
  String.ofList (text.toList.take count)

/-- The text cut to `precision` characters, if a precision is given, and then filled to `width`. -/
def column (align : Align) (width : Nat) (precision : Option Nat) (text : String) : String :=
  fill align width (precision.elim text (clip · text))

end FeedbackQueue.Text
