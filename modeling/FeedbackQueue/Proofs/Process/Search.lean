import FeedbackQueue.Process.Table
import Mathlib.Data.List.FinRange

/-!
# Searches of the table

A search for a free slot, or for the slot that carries a pid, finds the least one there is, and
nothing only if there is none.
-/

namespace FeedbackQueue

theorem Record.isLive_iff {r : Record} : r.isLive = true ↔ r.state ≠ .unused := by
  unfold Record.isLive
  cases r.state <;> simp [ProcState.isLive]

namespace Table

variable {size : Nat} {t : Table size} {slot : Fin size} {pid : Pid}

theorem isFree_iff {r : Record} : isFree r = true ↔ r.state = .unused := by
  rw [isFree, Bool.not_eq_true', ← Bool.not_eq_true, Record.isLive_iff, not_not]

theorem answersTo_iff {r : Record} : answersTo pid r = true ↔ r.state ≠ .unused ∧ r.pid = pid := by
  rw [answersTo, Bool.and_eq_true, Record.isLive_iff, beq_iff_eq]

theorem firstFree?_eq_none_iff :
    t.firstFree? = none ↔ ∀ slot, (t.record slot).state ≠ .unused := by
  simp only [firstFree?, slots, List.find?_eq_none, List.mem_finRange, true_imp_iff, isFree_iff,
    ne_eq]

theorem find?_eq_none_iff :
    t.find? pid = none ↔ ∀ slot, (t.record slot).state ≠ .unused → (t.record slot).pid ≠ pid := by
  simp only [find?, slots, List.find?_eq_none, List.mem_finRange, true_imp_iff, answersTo_iff,
    not_and, ne_eq]

theorem firstFree?_eq_some_iff : t.firstFree? = some slot ↔
    (t.record slot).state = .unused ∧ ∀ y < slot, (t.record y).state ≠ .unused := by
  simp only [firstFree?, slots, ← Fin.find?_eq_find?_finRange, Fin.find?_eq_some_iff, isFree_iff,
    ← Bool.not_eq_true, ne_eq]

theorem find?_eq_some_iff : t.find? pid = some slot ↔
    ((t.record slot).state ≠ .unused ∧ (t.record slot).pid = pid) ∧
      ∀ y < slot, ¬((t.record y).state ≠ .unused ∧ (t.record y).pid = pid) := by
  simp only [find?, slots, ← Fin.find?_eq_find?_finRange, Fin.find?_eq_some_iff, answersTo_iff,
    ← Bool.not_eq_true]

end Table

end FeedbackQueue
