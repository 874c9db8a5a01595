import FeedbackQueue.Kernel.Report
import FeedbackQueue.Proofs.Kernel.Ensures
import FeedbackQueue.Proofs.Queue.Audit
import FeedbackQueue.Proofs.Text

/-!
# Reports change nothing

A dump and a listing only look.  The dump of a dispatch at most closes the window.

What a report writes is spelled out here mark by mark, apart from the definitions that write it.

* `Record.entry`, `DumpRow.text`, `Record.listed` — the texts of an entry, a line of a dump and a
  line of the listing;
* `Record.entry_inj` — the entry of a process tells its pid, name, state and budget;
* `Scheduler.dumpRows` — what a dump shows, with the slots that its records are looked up in;
* `dump_apply`, `listing_apply` — the text of a report, and that nothing else comes of it.
-/

namespace FeedbackQueue

/-! ## Entries -/

/-- The digit that stands for a state in a dump. -/
def ProcState.digit : ProcState → String
  | .unused => "0"
  | .used => "1"
  | .sleeping => "2"
  | .runnable => "3"
  | .running => "4"
  | .zombie => "5"

/-- The word for a state in the listing, with spaces up to six characters. -/
def ProcState.cell : ProcState → String
  | .unused => "unused"
  | .used => "used  "
  | .sleeping => "sleep "
  | .runnable => "runble"
  | .running => "run   "
  | .zombie => "zombie"

/-- The entry of a process in a dump: its pid, name, state and budget. -/
def Record.entry (r : Record) : String :=
  ",[" ++ toString r.pid ++ "]" ++ r.name ++ ":" ++ r.state.digit ++ "(" ++ toString r.quantum
    ++ ")"

/-- The line of a process in the listing: its pid, state and name. -/
def Record.listed (r : Record) : String :=
  toString r.pid ++ " " ++ r.state.cell ++ " " ++ r.name ++ "\n"

theorem ProcState.toString_number (state : ProcState) : toString state.number = state.digit := by
  cases state <;> rfl

theorem ProcState.column_word (state : ProcState) :
    Text.column .left 6 none state.word = state.cell := by
  cases state <;> decide

theorem ProcState.digit_inj {state state' : ProcState} :
    state.digit = state'.digit ↔ state = state' := by
  cases state <;> cases state' <;> decide

theorem Record.entryText_eq (r : Record) : r.entryText = r.entry := by
  rw [entry, ← ProcState.toString_number]
  rfl

example : ({ Record.vacant with state := .runnable, pid := 1, name := "init", quantum := 4 } :
    Record).entryText = ",[1]init:3(4)" := by decide

theorem Record.listingText_eq (r : Record) : r.listingText = r.listed := by
  rw [listed, ← ProcState.column_word]
  rfl

theorem Record.toList_entry (r : Record) : r.entry.toList
    = ',' :: '[' :: ((toString r.pid).toList ++ ']' ::
        ((r.name.toList ++ ':' :: r.state.digit.toList) ++
          '(' :: ((toString r.quantum).toList ++ [')']))) := by
  simp [entry, String.toList_append]

/-- The entry of a process tells its pid, name, state and budget, whatever its name looks like. -/
theorem Record.entry_inj {r r' : Record} : r.entry = r'.entry ↔
    r.pid = r'.pid ∧ r.name = r'.name ∧ r.state = r'.state ∧ r.quantum = r'.quantum := by
  -- a name may hold any mark, so what follows it is told from the end
  have hpid : ∀ pid : Pid, ']' ∉ (toString pid).toList := by
    intro pid hmem
    have hdigit := Text.isDigit_of_mem_toString (n := pid.toNat) hmem
    exact absurd hdigit (by decide)
  have hstate : ∀ state : ProcState, ':' ∉ state.digit.toList := by
    intro state
    cases state <;> decide
  have hquantum : ∀ quantum : Int32, '(' ∉ (toString quantum).toList ++ [')'] := by
    intro quantum hmem
    have hwritten : '(' ∈ (toString quantum).toList := by simpa using hmem
    exact absurd (Text.isDigit_of_mem_toString_int32 hwritten) (by decide)
  rw [← String.toList_inj, toList_entry, toList_entry, List.cons_inj_right,
    List.cons_inj_right, Text.append_mark_inj (hpid _) (hpid _),
    Text.append_last_mark_inj (hquantum _) (hquantum _),
    Text.append_last_mark_inj (hstate _) (hstate _), List.append_left_inj]
  simp only [String.toList_inj, Text.toString_uint32_inj, ProcState.digit_inj,
    Text.toString_int32_inj, and_assoc]

/-! ## Dumps -/

/-- A line of a dump before the records of its processes are looked up. -/
structure DumpRow (nproc : Nat) where
  level : Nat
  set : QueueSet
  /-- The ticks left to the queue, as shown. -/
  quantum : Int32
  /-- The slots of the processes of the line. -/
  slots : List (Fin nproc)

/-- The line that a row makes with the records of a table. -/
def DumpRow.line {nproc : Nat} (row : DumpRow nproc) (table : Table nproc) (tick : UInt64) :
    DumpLine where
  tick := tick
  set := row.set
  level := row.level
  quantum := row.quantum
  entries := row.slots.map table.record

/-- The text of a row: the tick, the set, the level with its ticks, and an entry for each
process. -/
def DumpRow.text {nproc : Nat} (row : DumpRow nproc) (table : Table nproc) (tick : UInt64) :
    String :=
  let set := match row.set with
    | .active => "active"
    | .expired => "expired"
  toString tick ++ "|" ++ set ++ "|" ++ toString row.level ++ "(" ++ toString row.quantum ++ ")"
    ++ String.join (row.slots.map fun slot => (table.record slot).entry) ++ "\n"

theorem DumpRow.text_line {nproc : Nat} (row : DumpRow nproc) (table : Table nproc)
    (tick : UInt64) : (row.line table tick).text = row.text table tick := by
  have hset : row.set.name = match row.set with
    | .active => "active"
    | .expired => "expired" := by cases row.set <;> rfl
  have hentries : Record.entryText = Record.entry := funext Record.entryText_eq
  rw [text, ← hset, ← hentries, DumpLine.text]
  simp only [line, List.map_map]
  rfl

/-- The text of a dump with these rows and the records of a table. -/
def dumpText {nproc : Nat} (rows : List (DumpRow nproc)) (table : Table nproc) (tick : UInt64) :
    String :=
  String.join (rows.map fun row => row.text table tick)

variable {cfg : Config}

/-- The slots of the processes in a table, in ascending order. -/
def Scheduler.liveSlots (s : Scheduler cfg) : List (Fin cfg.maxProcs) :=
  (List.finRange cfg.maxProcs).filter fun slot => (s.table.record slot).isLive

/-- The rows of a dump: one for each queue under feedback, active queues first; one for the only
queue under round robin; and one for the whole table under the table scan. -/
def Scheduler.dumpRows (s : Scheduler cfg) : List (DumpRow cfg.maxProcs) :=
  match cfg.effectivePolicy with
  | .feedback => (Queues.allQueues cfg.levels).map fun (level, set) =>
    { level, set
      quantum := ((s.queues.lane? level set).map Lane.quantum).getD 0
      slots := s.queues.members level set }
  | .roundRobin =>
    [{ level := 0, set := .active, quantum := 0, slots := s.queues.members 0 .active }]
  | .fifo => [{ level := 0, set := .active, quantum := 0, slots := s.liveSlots }]

namespace Kernel

variable {s : Scheduler cfg} {w : Hardware cfg.maxProcs} {e : Bool} {j : Array Event}

theorem liveRecords_apply : liveRecords ⟨s, w, .holding e [] [], j⟩
    = .ok (s.liveSlots.map s.table.record) ⟨s, w, .holding e [] [], j⟩ := by
  rw [liveRecords, bind_of_ok (mapM_apply fun slot _ => peek_apply slot (by simp) (by simp)),
    pure_apply, List.filter_map]
  rfl

theorem dumpQueue_apply (level : Nat) (set : QueueSet) (quantum : Int32) :
    dumpQueue level set quantum ⟨s, w, .holding e [.queues] [], j⟩
      = .ok (DumpRow.line { level, set, quantum, slots := s.queues.members level set } s.table
          w.ticks) ⟨s, w, .holding e [.queues] [], j⟩ := by
  rw [dumpQueue, bind_of_ok (get_apply _), bind_of_ok (queues_apply _),
    bind_of_ok (mapM_apply fun slot _ => peek_apply slot (by simp) (by simp)), pure_apply]
  rfl

theorem dumpLines_apply : dumpLines ⟨s, w, .holding e [] [], j⟩
    = .ok (s.dumpRows.map fun row => row.line s.table w.ticks) ⟨s, w, .holding e [] [], j⟩ := by
  unfold dumpLines Scheduler.dumpRows
  cases cfg.effectivePolicy with
  | fifo =>
    dsimp only
    rw [bind_of_ok (get_apply _), bind_of_ok liveRecords_apply, pure_apply]
    rfl
  | roundRobin =>
    refine locked_apply (by simp) (by simp) ?_
    rw [bind_of_ok (dumpQueue_apply ..), pure_apply]
    rfl
  | feedback =>
    dsimp only
    rw [List.map_map]
    refine locked_apply (by simp) (by simp) (mapM_apply ?_)
    rintro ⟨level, set⟩ hmem
    have hlane := s.queues.lane?_of_lt set (Queues.mem_allQueues.mp hmem)
    simp only [Function.comp, hlane, Option.map_some, Option.getD_some]
    rw [bind_of_ok (queues_apply _), Queues.quantum_eq_of_lane? _ _ _ _ hlane,
      bind_of_ok (ofExcept_ok_apply ..), dumpQueue_apply]

theorem dump_apply : dump ⟨s, w, .holding e [] [], j⟩
    = .ok (dumpText s.dumpRows s.table w.ticks) ⟨s, w, .holding e [] [], j⟩ := by
  rw [dump, bind_of_ok dumpLines_apply, pure_apply, List.map_map, dumpText]
  simp only [Function.comp_def, DumpRow.text_line]

theorem dump_ensures : Ensures (dump : Kernel cfg String) s fun _ effects => effects = [] :=
  fun w e j => ⟨_, [], w, e, j, rfl, trivial, dump_apply⟩

theorem listing_apply : listing ⟨s, w, .holding e [] [], j⟩
    = .ok ("\n" ++ String.join (s.liveSlots.map fun slot => (s.table.record slot).listed))
        ⟨s, w, .holding e [] [], j⟩ := by
  rw [listing, bind_of_ok liveRecords_apply, pure_apply, List.map_map]
  simp only [Function.comp_def, Record.listingText_eq]

theorem listing_ensures : Ensures (listing : Kernel cfg String) s fun _ effects => effects = [] :=
  fun w e j => ⟨_, [], w, e, j, rfl, trivial, listing_apply⟩

/-- The dump of a dispatch at most closes the window. -/
theorem reportDispatch_ensures : Ensures (reportDispatch : Kernel cfg Unit) s fun _ effects =>
    effects = [] ∨ ∃ window, effects = [.setWindow window] := by
  intro w e j
  rw [reportDispatch, bind_of_ok (get_apply _)]
  dsimp only
  split
  · split
    · rw [bind_of_ok dump_apply]
      exact ⟨(), [], _, e, j, .inl rfl, trivial, rfl⟩
    · exact ⟨(), [.setWindow _], w, e, j, .inr ⟨_, rfl⟩, ⟨trivial, trivial⟩, rfl⟩
  · exact ⟨(), [], w, e, j, .inl rfl, trivial, rfl⟩

end Kernel

end FeedbackQueue
