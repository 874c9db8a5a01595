import FeedbackQueue.Process.Table

/-!
# Records after a change of the table

A change of one slot is seen in that slot and in no other.
-/

namespace FeedbackQueue.Table

variable {size : Nat} (t : Table size) (slot y : Fin size)

@[simp] theorem record_empty : (empty size).record slot = .vacant := by
  simp [record, empty]

theorem ext_record {t u : Table size} (hrecord : ∀ y, t.record y = u.record y)
    (hnext : t.nextPid = u.nextPid) : t = u := by
  obtain ⟨records, next⟩ := t
  obtain ⟨others, other⟩ := u
  obtain rfl : next = other := hnext
  obtain rfl : records = others := Vector.ext fun i hi => hrecord ⟨i, hi⟩
  rfl

theorem record_adjust (f : Record → Record) :
    (t.adjust slot f).record y = if y = slot then f (t.record slot) else t.record y := by
  simp only [record, adjust, Vector.getElem_set, Fin.val_inj, eq_comm (a := slot)]

/-- An edit of a record keeps what it does not touch. -/
theorem field_adjust {β : Type} (field : Record → β) {f : Record → Record}
    (h : ∀ r, field (f r) = field r) :
    field ((t.adjust slot f).record y) = field (t.record y) := by
  rw [record_adjust]
  split
  case isTrue hy => rw [h, hy]
  case isFalse => rfl

theorem record_claim : (t.claim slot).record y
    = if y = slot then { Record.vacant with state := .used, pid := t.nextPid } else t.record y := by
  simp only [record, claim, Vector.getElem_set, Fin.val_inj, eq_comm (a := slot)]

@[simp] theorem nextPid_adjust (f : Record → Record) : (t.adjust slot f).nextPid = t.nextPid := rfl

@[simp] theorem nextPid_claim : (t.claim slot).nextPid = t.nextPid + 1 := rfl

@[simp] theorem record_adjust_self (f : Record → Record) :
    (t.adjust slot f).record slot = f (t.record slot) := by
  rw [record_adjust, if_pos rfl]

@[simp] theorem record_claim_self : (t.claim slot).record slot
    = { Record.vacant with state := .used, pid := t.nextPid } := by
  rw [record_claim, if_pos rfl]

theorem adjust_adjust (f g : Record → Record) :
    (t.adjust slot f).adjust slot g = t.adjust slot fun r => g (f r) := by
  simp [adjust, record]

theorem adjust_id : t.adjust slot (fun r => r) = t := by
  simp [adjust, record]

end FeedbackQueue.Table
