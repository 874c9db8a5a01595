import FeedbackQueue.Scenario.Run
import Mathlib.Data.List.Perm.Basic

/-!
# Open activities

Between steps the open activities fit the scheduler: the turns are those of the processes that CPUs
run.  Activities are opened and closed one at a time, and in any order (`Fits.perm`).
-/

namespace FeedbackQueue

variable {cfg : Config} {s s' : Scheduler cfg}

/-- The open activities fit the scheduler. -/
structure Fits (s : Scheduler cfg) (opened : List (Activity cfg)) : Prop where
  /-- The open turns are those of the processes that CPUs run. -/
  turn_iff : ∀ cpu slot, .turn cpu slot ∈ opened ↔
    ∃ h : cpu < cfg.ncpu, (s.cpu ⟨cpu, h⟩).current = some slot
  /-- No turn is open twice. -/
  nodup : (opened.filter Activity.isTurn).Nodup

theorem fits_fresh : Fits (.fresh cfg) [] where
  turn_iff cpu slot := by simp [Scheduler.fresh, Scheduler.cpu]
  nodup := List.nodup_nil

namespace Fits

variable {opened opened' : List (Activity cfg)} {activity : Activity cfg}
variable {cpu : Fin cfg.ncpu} {slot : Fin cfg.maxProcs}

theorem perm (h : Fits s opened) (hperm : opened.Perm opened') : Fits s opened' where
  turn_iff cpu slot := by rw [← hperm.mem_iff, h.turn_iff]
  nodup := (hperm.filter Activity.isTurn).nodup_iff.mp h.nodup

/-- The activity at an index can be taken for the first one. -/
theorem cons_eraseIdx (h : Fits s opened) {index : Nat} (hhere : opened[index]? = some activity) :
    Fits s (activity :: opened.eraseIdx index) := by
  obtain ⟨hlt, rfl⟩ := List.getElem?_eq_some_iff.mp hhere
  exact h.perm (List.getElem_cons_eraseIdx_perm hlt).symm

theorem of_current (h : Fits s opened)
    (hcurrent : ∀ cpu, (s'.cpu cpu).current = (s.cpu cpu).current) : Fits s' opened where
  turn_iff cpu slot := by simp only [h.turn_iff, hcurrent]
  nodup := h.nodup

/-! ## Windows -/

theorem addWindows (h : Fits s opened) {windows : List (Activity cfg)}
    (hwindows : ∀ activity ∈ windows, activity.isTurn = false) : Fits s (windows ++ opened) := by
  have hnone : windows.filter Activity.isTurn = [] :=
    List.filter_eq_nil_iff.mpr fun activity hmem => by simp [hwindows activity hmem]
  constructor
  case turn_iff =>
    intro cpu slot
    have hnot : .turn cpu slot ∉ windows := fun hmem => by cases hwindows _ hmem
    simp only [List.mem_append, hnot, false_or, h.turn_iff]
  case nodup =>
    rw [List.filter_append, hnone]
    exact h.nodup

theorem leaveWindow (h : Fits s (activity :: opened)) (hwindow : activity.isTurn = false) :
    Fits s opened where
  turn_iff cpu slot := by
    rw [← h.turn_iff, List.mem_cons, or_iff_right]
    rintro rfl
    cases hwindow
  nodup := by simpa [List.filter_cons, hwindow] using h.nodup

/-! ## Turns -/

theorem begin (h : Fits s opened) (hidle : ∀ slot, .turn cpu.val slot ∉ opened)
    (hcurrent : ∀ c, (s'.cpu c).current = if c = cpu then some slot else (s.cpu c).current) :
    Fits s' (.turn cpu.val slot :: opened) := by
  constructor
  case turn_iff =>
    intro c x
    rw [List.mem_cons, h.turn_iff]
    by_cases hc : c = cpu.val
    · subst hc
      have hnot : (s.cpu cpu).current ≠ some x :=
        fun hx => hidle x ((h.turn_iff cpu x).mpr ⟨cpu.isLt, hx⟩)
      simp [hcurrent, hnot, eq_comm (a := x)]
    · have hne : ∀ hlt : c < cfg.ncpu, (⟨c, hlt⟩ : Fin cfg.ncpu) ≠ cpu :=
        fun _ heq => hc (congrArg Fin.val heq)
      simp [hcurrent, hc, hne]
  case nodup =>
    rw [List.filter_cons_of_pos rfl]
    exact List.nodup_cons.mpr ⟨fun hmem => hidle slot (List.mem_of_mem_filter hmem), h.nodup⟩

theorem finish (h : Fits s (.turn cpu.val slot :: opened))
    (hcurrent : ∀ c, (s'.cpu c).current = if c = cpu then none else (s.cpu c).current) :
    Fits s' opened := by
  have hslot : (s.cpu cpu).current = some slot :=
    ((h.turn_iff cpu slot).mp List.mem_cons_self).2
  have hnodup := List.nodup_cons.mp h.nodup
  constructor
  case turn_iff =>
    intro c x
    by_cases hc : c = cpu.val
    · subst hc
      -- the only turn of the CPU was the one that ended
      have hnot : .turn cpu.val x ∉ opened := by
        intro hmem
        obtain ⟨_, hx⟩ := (h.turn_iff cpu x).mp (List.mem_cons_of_mem _ hmem)
        obtain rfl : slot = x := Option.some.inj (hslot.symm.trans hx)
        exact hnodup.1 (List.mem_filter.mpr ⟨hmem, rfl⟩)
      simp [hcurrent, hnot]
    · have hne : ∀ hlt : c < cfg.ncpu, (⟨c, hlt⟩ : Fin cfg.ncpu) ≠ cpu :=
        fun _ heq => hc (congrArg Fin.val heq)
      have hturn := h.turn_iff c x
      simpa [hcurrent, hc, hne] using hturn
  case nodup => exact hnodup.2

end Fits

end FeedbackQueue
