import FeedbackQueue.Lock.Bank

/-!
# The locks that are held decide the masks

When locks are only taken and released, the interrupt state is decided by how many are held and by
whether interrupts were on before the first of them.  `Bank.holding` is the bank with given locks;
every operation leads from such a bank to such a bank.
-/

namespace FeedbackQueue.Lock

/-- The interrupt state under a number of masks, over interrupts that were on or off. -/
def Interrupts.masked (enabled : Bool) : Nat → Interrupts
  | 0 => { enabled, mask := none }
  | extra + 1 => { enabled := false, mask := some ⟨extra, enabled⟩ }

namespace Interrupts

theorem push_masked (enabled : Bool) (n : Nat) :
    (masked enabled n).push = masked enabled (n + 1) := by
  cases n <;> rfl

theorem pop_masked (enabled : Bool) (n : Nat) :
    (masked enabled (n + 1)).pop = masked enabled n := by
  cases n <;> rfl

end Interrupts

namespace Bank

variable {ι : Type}

/-- The bank that holds some locks through guards and others without, over interrupts that were on
or off before. -/
def holding (enabled : Bool) (guarded forgotten : List ι) : Bank ι where
  interrupts := .masked enabled (guarded.length + forgotten.length)
  guarded := guarded
  forgotten := forgotten

variable {enabled : Bool} {guarded forgotten : List ι}

theorem depth_holding :
    (holding enabled guarded forgotten).depth = guarded.length + forgotten.length := by
  unfold depth holding
  cases guarded.length + forgotten.length <;> rfl

theorem enabled_holding : (holding enabled guarded forgotten).interrupts.enabled
    = (enabled && guarded.isEmpty && forgotten.isEmpty) := by
  cases guarded <;> cases forgotten <;> simp [holding, Interrupts.masked]

theorem enable_holding_nil : (holding enabled ([] : List ι) []).enable = holding true [] [] := rfl

variable [DecidableEq ι] {lock : ι}

theorem isHeld_holding_iff :
    (holding enabled guarded forgotten).isHeld lock = true ↔ lock ∈ guarded ∨ lock ∈ forgotten := by
  rw [isHeld, Bool.or_eq_true, decide_eq_true_eq, decide_eq_true_eq, holding]

theorem acquire?_holding (hg : lock ∉ guarded) (hf : lock ∉ forgotten) :
    (holding enabled guarded forgotten).acquire? lock
      = some (holding enabled (lock :: guarded) forgotten) := by
  have hfree : (holding enabled guarded forgotten).isHeld lock = false := by
    simp [isHeld, holding, hg, hf]
  rw [acquire?, hfree]
  simp [holding, Interrupts.push_masked, Nat.add_right_comm]

theorem release_holding (hg : lock ∈ guarded) :
    (holding enabled guarded forgotten).release lock
      = holding enabled (guarded.erase lock) forgotten := by
  obtain ⟨n, hn⟩ : ∃ n, guarded.length = n + 1 :=
    ⟨_, (Nat.succ_pred_eq_of_pos (List.length_pos_of_mem hg)).symm⟩
  simp [release, holding, hg, hn, List.length_erase_of_mem hg, Nat.add_right_comm n 1,
    Interrupts.pop_masked]

theorem forget_holding (hg : lock ∈ guarded) :
    (holding enabled guarded forgotten).forget lock
      = holding enabled (guarded.erase lock) (lock :: forgotten) := by
  have hlength : (guarded.erase lock).length + (lock :: forgotten).length
      = guarded.length + forgotten.length := by
    have := List.length_pos_of_mem hg
    rw [List.length_erase_of_mem hg, List.length_cons]
    omega
  simp only [forget, holding, hg, if_true, hlength]

theorem forceRelease_holding (hf : lock ∈ forgotten) :
    (holding enabled guarded forgotten).forceRelease lock
      = holding enabled guarded (forgotten.erase lock) := by
  obtain ⟨n, hn⟩ : ∃ n, forgotten.length = n + 1 :=
    ⟨_, (Nat.succ_pred_eq_of_pos (List.length_pos_of_mem hf)).symm⟩
  simp [forceRelease, holding, hf, hn, List.length_erase_of_mem hf, ← Nat.add_assoc,
    Interrupts.pop_masked]

end Bank

end FeedbackQueue.Lock
