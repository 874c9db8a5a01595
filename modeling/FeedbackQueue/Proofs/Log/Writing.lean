import FeedbackQueue.Log.Logger
import FeedbackQueue.Proofs.Log.Encoding

/-!
# Writing log lines

A buffer takes as many bytes as there is room for, however the text is divided into chunks, and
leaves the rest of its bytes alone.  A line is therefore cut off at the end of the buffer, and what
reaches the console is cut back to the last whole character.

* `Buffer.Receives` — what is in a buffer after some bytes were written;
* `Buffer.writeAll_eq` — chunks leave what the whole text in one chunk would;
* `lineText`, `Limit.levels` — the text of a line and the levels let through, spelled out apart from
  the definitions that write and test them;
* `formatLine_eq` — a line in a buffer is its text in one chunk;
* `lines_cut_at_characters` — buffers, lines and what reaches the console.
-/

namespace FeedbackQueue.Log

/-! ## Buffers -/

namespace Buffer

/-- What is in a buffer after some bytes were written at its position: as many of them as there was
room for, and everywhere else what was there before. -/
structure Receives (b : Buffer) (bytes : List UInt8) (b' : Buffer) : Prop where
  length_eq : b'.bytes.length = b.bytes.length
  pos_eq : b'.pos = b.pos + min (b.bytes.length - b.pos) bytes.length
  stored : ∀ i < min (b.bytes.length - b.pos) bytes.length, b'.bytes[b.pos + i]? = bytes[i]?
  kept : ∀ i, i < b.pos ∨ b'.pos ≤ i → b'.bytes[i]? = b.bytes[i]?

variable {b : Buffer}

theorem pos_store (b : Buffer) (chunk : List UInt8) :
    (b.store chunk).pos = b.pos + min (b.bytes.length - b.pos) chunk.length := by
  rw [store, Nat.min_comm]

theorem length_store (h : b.pos ≤ b.bytes.length) (chunk : List UInt8) :
    (b.store chunk).bytes.length = b.bytes.length := by
  simp only [store, List.length_append, List.length_take, List.length_drop]
  omega

theorem pos_store_le (h : b.pos ≤ b.bytes.length) (chunk : List UInt8) :
    (b.store chunk).pos ≤ (b.store chunk).bytes.length := by
  rw [length_store h, pos_store]
  omega

/-- The bytes of a buffer after a chunk, one by one. -/
theorem getElem?_store (h : b.pos ≤ b.bytes.length) (chunk : List UInt8) (i : Nat) :
    (b.store chunk).bytes[i]?
      = if b.pos ≤ i ∧ i < (b.store chunk).pos then chunk[i - b.pos]? else b.bytes[i]? := by
  rw [pos_store]
  simp only [store, List.getElem?_append, List.length_append, List.length_take, List.getElem?_take,
    List.getElem?_drop]
  -- the three parts of the new bytes lie before, within and behind what was stored
  grind

theorem receives_store (h : b.pos ≤ b.bytes.length) (chunk : List UInt8) :
    b.Receives chunk (b.store chunk) where
  length_eq := length_store h chunk
  pos_eq := pos_store b chunk
  stored i hi := by
    rw [getElem?_store h, pos_store, if_pos (by omega), Nat.add_sub_cancel_left]
  kept i hi := by
    rw [getElem?_store h, if_neg (by omega)]

/-- Two chunks leave what both of them in one would. -/
theorem store_store (h : b.pos ≤ b.bytes.length) (first second : List UInt8) :
    (b.store first).store second = b.store (first ++ second) := by
  have hpos : ((b.store first).store second).pos = (b.store (first ++ second)).pos := by
    simp only [pos_store, length_store h, List.length_append]
    omega
  have hbytes : ((b.store first).store second).bytes = (b.store (first ++ second)).bytes := by
    refine List.ext_getElem? fun i => ?_
    rw [getElem?_store (pos_store_le h first), getElem?_store h, getElem?_store h, hpos,
      List.getElem?_append]
    simp only [pos_store, List.length_append]
    -- a byte of the second chunk lies behind the first, unless the first has filled the buffer
    grind
  exact congrArg₂ Buffer.mk hbytes hpos

theorem foldl_store (h : b.pos ≤ b.bytes.length) (chunks : List (List UInt8)) :
    chunks.foldl store b = b.store chunks.flatten := by
  induction chunks generalizing b with
  | nil => simp [store]
  | cons chunk rest ih =>
    rw [List.foldl_cons, ih (pos_store_le h chunk), store_store h, List.flatten_cons]

theorem write_eq (h : b.pos ≤ b.bytes.length) (chunk : String) :
    b.write chunk = .ok (b.store (encode chunk)) :=
  if_neg (Nat.not_lt.mpr h)

/-- However a text is divided into chunks, writing them succeeds and leaves what the whole text in
one chunk would. -/
theorem writeAll_eq (h : b.pos ≤ b.bytes.length) (chunks : List String) :
    ∃ positions, b.writeAll chunks
      = .ok (positions, b.store (encode (String.join chunks))) := by
  induction chunks generalizing b with
  | nil => exact ⟨[], by simp [writeAll, encode, store]⟩
  | cons chunk rest ih =>
    obtain ⟨positions, hrest⟩ := ih (pos_store_le h (encode chunk))
    refine ⟨(b.store (encode chunk)).pos :: positions, ?_⟩
    have hwhole : encode chunk ++ encode (String.join rest)
        = encode (String.join (chunk :: rest)) := by
      rw [encode_join, encode_join, List.map_cons, List.flatten_cons]
    rw [← hwhole, ← store_store h, writeAll, write_eq h]
    simp only [bind, Except.bind, hrest, pure, Except.pure]

/-- What was written to a buffer from its front on. -/
theorem written_store (h : b.pos = 0) (chunk : List UInt8) :
    (b.store chunk).written = chunk.take b.bytes.length := by
  simp only [written, store, h, List.take_zero, List.nil_append, Nat.zero_add, Nat.sub_zero]
  rw [List.take_append_of_le_length (by simp), List.take_take, Nat.min_self, Nat.min_comm,
    List.take_eq_take_iff]
  omega

theorem length_written (h : b.pos ≤ b.bytes.length) : b.written.length = b.pos := by
  rw [written, List.length_take, Nat.min_eq_left h]

end Buffer

/-! ## Lines -/

/-- What comes before the message in a line, spelled out. -/
def Level.mark : Level → String
  | .error => "[ERROR] "
  | .warn => "[WARN ] "
  | .info => "[INFO ] "
  | .debug => "[DEBUG] "
  | .trace => "[TRACE] "

/-- The whole of a line. -/
def lineText (level : Level) (message : String) : String :=
  level.mark ++ message ++ "\n"

/-- The levels that a limit lets through, spelled out. -/
def Limit.levels : Limit → List Level
  | none => []
  | some .error => [.error]
  | some .warn => [.error, .warn]
  | some .info => [.error, .warn, .info]
  | some .debug => [.error, .warn, .info, .debug]
  | some .trace => [.error, .warn, .info, .debug, .trace]

theorem Level.mark_eq (level : Level) : "[" ++ level.tag ++ "] " = level.mark := by
  cases level <;> decide

theorem join_lineChunks (level : Level) (message : String) :
    String.join (lineChunks level message) = lineText level message := by
  rw [lineText, ← Level.mark_eq]
  simp [lineChunks, String.append_assoc]

theorem within_iff (limit : Limit) (level : Level) :
    level.within limit = true ↔ level ∈ limit.levels := by
  rcases limit with _ | last
  · cases level <;> decide
  · cases last <;> cases level <;> decide

theorem formatLine_eq (capacity : Nat) (level : Level) (message : String) :
    formatLine capacity level message
      = (Buffer.blank capacity 0).store (encode (lineText level message)) := by
  rw [formatLine, Buffer.foldl_store (Nat.zero_le _), ← encode_join, join_lineChunks]

theorem written_formatLine (capacity : Nat) (level : Level) (message : String) :
    (formatLine capacity level message).written
      = (encode (lineText level message)).take capacity := by
  rw [formatLine_eq, Buffer.written_store rfl, Buffer.blank, List.length_replicate]

theorem pos_formatLine (capacity : Nat) (level : Level) (message : String) :
    (formatLine capacity level message).pos
      = (formatLine capacity level message).written.length := by
  rw [formatLine_eq]
  exact (Buffer.length_written (Buffer.pos_store_le (Nat.zero_le _) _)).symm

theorem longestFit_line (level : Level) (message : String) :
    LongestFit lineCapacity (lineText level message) (line level message) := by
  rw [line, written_formatLine]
  exact longestFit_wholeText lineCapacity (lineText level message)

/-- Text is cut off where the buffer ends and nowhere else.  However it is divided into chunks, a
buffer takes the bytes that there is room for and keeps all others; so a line in a buffer of any
size is cut to that size; and the console gets as many whole characters of a line as fit, if the
limit lets its level through, and nothing otherwise. -/
theorem lines_cut_at_characters :
    (∀ (b : Buffer) (chunks : List String), b.pos ≤ b.bytes.length →
      ∃ positions b', b.writeAll chunks = .ok (positions, b') ∧
        b.Receives (encode (String.join chunks)) b') ∧
    (∀ (b : Buffer) (level : Level) (message : String) (chunks : List String), b.pos = 0 →
      String.join chunks = lineText level message →
      ∃ positions b', b.writeAll chunks = .ok (positions, b') ∧
        b'.written = (encode (lineText level message)).take b.bytes.length ∧
        b'.pos = b'.written.length ∧
        (formatLine b.bytes.length level message).written = b'.written ∧
        (formatLine b.bytes.length level message).pos = b'.pos) ∧
    ∀ (logger : Logger) (level : Level) (message : String),
      (level ∈ logger.limit.levels → ∃ text, logger.emit level message = [text] ∧
        LongestFit 256 (lineText level message) text) ∧
      (level ∉ logger.limit.levels → logger.emit level message = []) := by
  refine ⟨fun b chunks h => ?_, fun b level message chunks hfront hchunks => ?_,
    fun logger level message => ⟨fun hlevel => ?_, fun hlevel => ?_⟩⟩
  · obtain ⟨positions, hwrite⟩ := Buffer.writeAll_eq h chunks
    exact ⟨positions, _, hwrite, Buffer.receives_store h _⟩
  · have hpos : b.pos ≤ b.bytes.length := hfront ▸ Nat.zero_le _
    obtain ⟨positions, hwrite⟩ := Buffer.writeAll_eq hpos chunks
    rw [hchunks] at hwrite
    have hwritten := Buffer.written_store hfront (encode (lineText level message))
    have hlength := Buffer.length_written
      (Buffer.pos_store_le hpos (encode (lineText level message)))
    refine ⟨positions, _, hwrite, hwritten, hlength.symm, ?_, ?_⟩
    · rw [written_formatLine, hwritten]
    · rw [pos_formatLine, written_formatLine, ← hwritten, hlength]
  · have henabled : logger.enabled level = true := (within_iff logger.limit level).mpr hlevel
    exact ⟨_, if_pos henabled, longestFit_line level message⟩
  · have hdisabled : ¬logger.enabled level = true :=
      fun h => hlevel ((within_iff logger.limit level).mp h)
    exact if_neg hdisabled

/-- A text of characters that take three bytes each. -/
def euros (count : Nat) : String := String.ofList (List.replicate count '€')

theorem utf8ByteSize_euros (count : Nat) : (euros count).utf8ByteSize = 3 * count := by
  have hone : (String.utf8EncodeChar '€').length = 3 := rfl
  rw [← length_encode, encode, euros, String.toList_ofList, List.length_flatMap,
    List.map_replicate, hone, List.sum_replicate]
  exact Nat.mul_comm count 3

/-- Of a message that is too long, 82 characters reach the console, and two bytes of its buffer are
left, too few for the next character. -/
theorem euros_cut : ∃ text, (Logger.mk (some .info)).emit .info (euros 82 ++ euros 18) = [text] ∧
    text.utf8ByteSize ≤ 256 ∧
    ("[INFO ] " ++ euros 82).toList <+: text.toList := by
  obtain ⟨hemits, -⟩ := lines_cut_at_characters.2.2 ⟨some .info⟩ .info (euros 82 ++ euros 18)
  obtain ⟨text, hemit, hfit⟩ := hemits (by decide)
  refine ⟨text, hemit, hfit.fits, hfit.longest ("[INFO ] " ++ euros 82) ?_ ?_⟩
  · refine ⟨(euros 18 ++ "\n").toList, ?_⟩
    simp only [lineText, Level.mark, String.toList_append, List.append_assoc]
  · rw [String.utf8ByteSize_append, utf8ByteSize_euros]
    decide

end FeedbackQueue.Log
