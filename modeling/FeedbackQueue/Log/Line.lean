import FeedbackQueue.Fault

/-!
# Log lines

A log line is `[TAG] message` with a newline.  It is written into a buffer of fixed size, chunk by
chunk; what does not fit is cut off.  The cut may fall inside a character, and then the bytes of
that character are dropped as well.

* `Level.within` — whether a level is let through by a limit;
* `Buffer.write`, `Buffer.writeAll` — chunks of text into a buffer;
* `formatLine` — a whole line in a buffer;
* `line` — the text that reaches the console.
-/

namespace FeedbackQueue.Log

/-! ## Levels -/

/-- How important a message is. -/
inductive Level
  | error
  | warn
  | info
  | debug
  | trace
  deriving DecidableEq, Repr

/-- The rank of a level; the most important is the least. -/
def Level.rank : Level → Nat
  | .error => 1
  | .warn => 2
  | .info => 3
  | .debug => 4
  | .trace => 5

/-- The tag of a level, five characters wide. -/
def Level.tag : Level → String
  | .error => "ERROR"
  | .warn => "WARN "
  | .info => "INFO "
  | .debug => "DEBUG"
  | .trace => "TRACE"

/-- A limit is the least important level that is let through, or `none` when nothing is. -/
abbrev Limit := Option Level

/-- Whether a limit lets a level through. -/
def Level.within (limit : Limit) (level : Level) : Bool :=
  limit.any fun last => level.rank ≤ last.rank

/-! ## Buffers -/

/-- The bytes of a text, its characters encoded one after another. -/
def encode (text : String) : List UInt8 :=
  text.toList.flatMap String.utf8EncodeChar

/-- A buffer of fixed size and the position of the next byte. -/
structure Buffer where
  bytes : List UInt8
  pos : Nat
  deriving DecidableEq

namespace Buffer

/-- A buffer of zero bytes. -/
def blank (capacity : Nat) (pos : Nat) : Buffer where
  bytes := List.replicate capacity 0
  pos := pos

/-- Stores as many bytes of a chunk as there is room for. -/
def store (b : Buffer) (chunk : List UInt8) : Buffer :=
  let count := min chunk.length (b.bytes.length - b.pos)
  { bytes := b.bytes.take b.pos ++ chunk.take count ++ b.bytes.drop (b.pos + count)
    pos := b.pos + count }

/-- Writes a chunk of text.  The room that is left is computed in checked arithmetic, so a position
beyond the end is a fault even if there is nothing to write. -/
def write (b : Buffer) (chunk : String) : Except Fault Buffer :=
  if b.bytes.length < b.pos then .error (.overflow .subtract) else .ok (b.store (encode chunk))

/-- Writes chunks one after another, and answers the position after each. -/
def writeAll (b : Buffer) : List String → Except Fault (List Nat × Buffer)
  | [] => .ok ([], b)
  | chunk :: rest => do
    let b ← b.write chunk
    let (positions, last) ← b.writeAll rest
    return (b.pos :: positions, last)

/-- The bytes before the position. -/
def written (b : Buffer) : List UInt8 :=
  b.bytes.take b.pos

end Buffer

/-! ## Lines -/

/-- The chunks of a line. -/
def lineChunks (level : Level) (message : String) : List String :=
  ["[", level.tag, "] ", message, "\n"]

/-- Writes a line into a blank buffer.  The position starts at the beginning and never passes the
end, so nothing can go wrong. -/
def formatLine (capacity : Nat) (level : Level) (message : String) : Buffer :=
  ((lineChunks level message).map encode).foldl Buffer.store (.blank capacity 0)

/-- The size of the buffer of a console line. -/
def lineCapacity : Nat := 256

/-- The most bytes of one character. -/
def charCapacity : Nat := 4

/-- The characters that can be read from the front, at most `fuel` of them.  Reading stops where the
bytes that follow do not make a character. -/
def wholeChars : Nat → List UInt8 → List Char
  | 0, _ => []
  | fuel + 1, bytes =>
    match (bytes.take charCapacity).toByteArray.utf8DecodeChar? 0 with
    | none => []
    | some c => c :: wholeChars fuel (bytes.drop c.utf8Size)

/-- The longest text whose bytes are at the front.  A character takes at least one byte, so there
are at most as many characters as bytes. -/
def wholeText (bytes : List UInt8) : String :=
  String.ofList (wholeChars bytes.length bytes)

/-- The line that reaches the console. -/
def line (level : Level) (message : String) : String :=
  wholeText (formatLine lineCapacity level message).written

end FeedbackQueue.Log
