import FeedbackQueue.Lock.Control
import FeedbackQueue.Proofs.Lock.Holding
import Mathlib.Data.Finset.Card
import Mathlib.Data.Fintype.Basic

/-!
# Locks and masks, in any order

Locks are taken, released, forgotten and released by force in any order.  How a lock is held is
decided by the requests that name it (`holdAfter`), and an interrupt control that nests masks has as
many of them as there are locks held: `Control.Nests.counts_locks`.
-/

namespace FeedbackQueue.Lock

/-! ## How a lock is held -/

/-- How a lock is held. -/
inductive Hold
  | free
  /-- Through a guard. -/
  | guarded
  /-- Without one. -/
  | forgotten
  deriving DecidableEq, Repr

variable {n : Nat}

/-- What a request makes of the lock of a cell. -/
def Hold.after (cell : Fin n) : Hold → Request n → Hold
  | .free, .lock other => if other = cell then .guarded else .free
  | .guarded, .unlock other => if other = cell then .free else .guarded
  | .guarded, .forget other => if other = cell then .forgotten else .guarded
  | .forgotten, .force other => if other = cell then .free else .forgotten
  | hold, _ => hold

/-- How the lock of a cell is held after some requests, none of them being held before. -/
def holdAfter (requests : List (Request n)) (cell : Fin n) : Hold :=
  requests.foldl (Hold.after cell) .free

/-- The cells whose locks are held after some requests. -/
def heldAfter (requests : List (Request n)) : Finset (Fin n) :=
  {cell | holdAfter requests cell ≠ .free}

theorem mem_heldAfter {requests : List (Request n)} {cell : Fin n} :
    cell ∈ heldAfter requests ↔ holdAfter requests cell ≠ .free := by
  simp [heldAfter]

section After

variable (hold : Hold) (cell other : Fin n)

theorem after_lock :
    hold.after cell (.lock other) = if hold = .free ∧ other = cell then .guarded else hold := by
  cases hold <;> simp [Hold.after]

theorem after_unlock :
    hold.after cell (.unlock other) = if hold = .guarded ∧ other = cell then .free else hold := by
  cases hold <;> simp [Hold.after]

theorem after_forget : hold.after cell (.forget other)
    = if hold = .guarded ∧ other = cell then .forgotten else hold := by
  cases hold <;> simp [Hold.after]

theorem after_force :
    hold.after cell (.force other) = if hold = .forgotten ∧ other = cell then .free else hold := by
  cases hold <;> simp [Hold.after]

theorem after_set (value : Int) : hold.after cell (.set other value) = hold := by
  cases hold <;> rfl

end After

/-! ## Controls that nest masks -/

namespace Control

variable {σ : Type} {c : Control σ} {saved : σ → Bool} {on : Bool} {depth : Nat} {i : σ}

/-- A control has so many masks in force, over interrupts that were on or off. -/
structure Shows (c : Control σ) (saved : σ → Bool) (on : Bool) (depth : Nat) (i : σ) : Prop where
  depth_eq : c.depth i = depth
  enabled_eq : c.enabled i = (on && depth = 0)
  saved_eq : 0 < depth → saved i = on

theorem Shows.push (h : c.Shows saved on depth i) (hc : c.Nests saved) :
    c.Shows saved on (depth + 1) (c.push i) where
  depth_eq := by rw [hc.depth_push, h.depth_eq]
  enabled_eq := by simp [hc.enabled_push]
  saved_eq _ := by
    cases depth with
    | zero => rw [hc.saved_push_outermost i h.depth_eq, h.enabled_eq]; simp
    | succ depth =>
      have hmasked : 0 < c.depth i := by simp [h.depth_eq]
      rw [hc.saved_push i hmasked, h.saved_eq (Nat.succ_pos depth)]

theorem Shows.pop (h : c.Shows saved on (depth + 1) i) (hc : c.Nests saved) :
    c.Shows saved on depth (c.pop i) := by
  have hoff : c.enabled i = false := by simp [h.enabled_eq]
  have hsaved : saved i = on := h.saved_eq (Nat.succ_pos depth)
  have hdepth : c.depth (c.pop i) = depth := by
    rw [hc.depth_pop i (by simp [h.depth_eq]), h.depth_eq, Nat.add_sub_cancel]
  -- only the last mask to go gives back what the outermost one saved
  cases depth with
  | zero => exact ⟨hdepth, by simp [hc.enabled_pop_outermost i h.depth_eq hoff, hsaved], by simp⟩
  | succ depth =>
    have hinner : 1 < c.depth i := by simp [h.depth_eq]
    exact ⟨hdepth, by simp [hc.enabled_pop i hinner hoff],
      fun _ => (hc.saved_pop i hinner).trans hsaved⟩

end Control

/-- What the outermost mask saves. -/
def Interrupts.saved (i : Interrupts) : Bool :=
  i.mask.any Mask.resume

theorem Interrupts.nests_control : control.Nests saved where
  depth_push := depth_push
  depth_pop i _ := depth_pop i
  enabled_push := enabled_push
  saved_push_outermost := by
    rintro ⟨enabled, _ | mask⟩ h
    · rfl
    · cases h
  saved_push := by
    rintro ⟨enabled, _ | mask⟩ h
    · cases h
    · rfl
  saved_pop := by
    rintro ⟨enabled, _ | ⟨_ | extra, resume⟩⟩ h
    · cases h
    · exact absurd h (Nat.lt_irrefl 1)
    · rfl
  enabled_pop := by
    rintro ⟨enabled, _ | ⟨_ | extra, resume⟩⟩ h hoff
    · cases h
    · exact absurd h (Nat.lt_irrefl 1)
    · exact hoff
  enabled_pop_outermost := by
    rintro ⟨enabled, _ | ⟨_ | extra, resume⟩⟩ h hoff
    · cases h
    · obtain rfl : enabled = false := hoff
      rfl
    · cases h

/-! ## Locks and masks together -/

section Agreement

variable {σ : Type} {c : Control σ} {saved : σ → Bool} {on : Bool} {i : σ}
variable {hold : Fin n → Hold} {guarded forgotten : List (Fin n)} {cell : Fin n}

/-- The locks that are held are held as they should be, and the control has a mask for each. -/
structure Agrees (c : Control σ) (saved : σ → Bool) (on : Bool) (hold : Fin n → Hold)
    (guarded forgotten : List (Fin n)) (i : σ) : Prop where
  mem_guarded : ∀ cell, cell ∈ guarded ↔ hold cell = .guarded
  mem_forgotten : ∀ cell, cell ∈ forgotten ↔ hold cell = .forgotten
  nodup_guarded : guarded.Nodup
  nodup_forgotten : forgotten.Nodup
  shows : c.Shows saved on (guarded.length + forgotten.length) i

namespace Agrees

variable (h : Agrees c saved on hold guarded forgotten i) (hc : c.Nests saved)
include h

omit h in
theorem congr {hold' : Fin n → Hold} (h : Agrees c saved on hold guarded forgotten i)
    (heq : ∀ y, hold' y = hold y) : Agrees c saved on hold' guarded forgotten i :=
  (funext heq : hold' = hold) ▸ h

theorem isHeld_iff (cell : Fin n) :
    (Bank.holding on guarded forgotten).isHeld cell = true ↔ hold cell ≠ .free := by
  rw [Bank.isHeld_holding_iff, h.mem_guarded, h.mem_forgotten]
  cases hold cell <;> simp

/-- The number of masks is the number of locks that are held. -/
theorem length_eq : guarded.length + forgotten.length
    = ({cell | hold cell ≠ .free} : Finset (Fin n)).card := by
  -- no lock is held in both ways, so the lists together name each lock that is held once
  have hdisjoint : (guarded ++ forgotten).Nodup := by
    refine List.nodup_append'.mpr ⟨h.nodup_guarded, h.nodup_forgotten, fun y hg hf => ?_⟩
    rw [h.mem_guarded] at hg
    rw [h.mem_forgotten, hg] at hf
    cases hf
  have hset : ({cell | hold cell ≠ .free} : Finset (Fin n)) = (guarded ++ forgotten).toFinset := by
    ext y
    rw [List.mem_toFinset, List.mem_append, h.mem_guarded, h.mem_forgotten,
      Finset.mem_filter_univ]
    cases hold y <;> simp
  rw [hset, List.toFinset_card_of_nodup hdisjoint, List.length_append]

include hc

theorem lock (hfree : hold cell = .free) :
    Agrees c saved on (fun y => (hold y).after y (.lock cell)) (cell :: guarded) forgotten
      (c.push i) where
  mem_guarded y := by
    rw [List.mem_cons, h.mem_guarded, after_lock]
    split
    case isTrue hy => simp [hy.2]
    case isFalse hy => grind
  mem_forgotten y := by
    rw [h.mem_forgotten, after_lock]
    grind
  nodup_guarded := by
    refine List.nodup_cons.mpr ⟨fun hmem => ?_, h.nodup_guarded⟩
    rw [h.mem_guarded, hfree] at hmem
    cases hmem
  nodup_forgotten := h.nodup_forgotten
  shows := by
    rw [List.length_cons, Nat.add_right_comm]
    exact h.shows.push hc

theorem unlock (hguarded : hold cell = .guarded) :
    Agrees c saved on (fun y => (hold y).after y (.unlock cell)) (guarded.erase cell) forgotten
      (c.pop i) where
  mem_guarded y := by
    rw [h.nodup_guarded.mem_erase_iff, h.mem_guarded, after_unlock]
    grind
  mem_forgotten y := by
    rw [h.mem_forgotten, after_unlock]
    grind
  nodup_guarded := h.nodup_guarded.erase cell
  nodup_forgotten := h.nodup_forgotten
  shows := by
    have hlength := List.length_erase_add_one ((h.mem_guarded cell).mpr hguarded)
    refine Control.Shows.pop ?_ hc
    rw [Nat.add_right_comm, hlength]
    exact h.shows

theorem force (hforgotten : hold cell = .forgotten) :
    Agrees c saved on (fun y => (hold y).after y (.force cell)) guarded (forgotten.erase cell)
      (c.pop i) where
  mem_guarded y := by
    rw [h.mem_guarded, after_force]
    grind
  mem_forgotten y := by
    rw [h.nodup_forgotten.mem_erase_iff, h.mem_forgotten, after_force]
    grind
  nodup_guarded := h.nodup_guarded
  nodup_forgotten := h.nodup_forgotten.erase cell
  shows := by
    have hlength := List.length_erase_add_one ((h.mem_forgotten cell).mpr hforgotten)
    refine Control.Shows.pop ?_ hc
    rw [Nat.add_assoc, hlength]
    exact h.shows

omit hc

theorem forget (hguarded : hold cell = .guarded) :
    Agrees c saved on (fun y => (hold y).after y (.forget cell)) (guarded.erase cell)
      (cell :: forgotten) i where
  mem_guarded y := by
    rw [h.nodup_guarded.mem_erase_iff, h.mem_guarded, after_forget]
    grind
  mem_forgotten y := by
    rw [List.mem_cons, h.mem_forgotten, after_forget]
    grind
  nodup_guarded := h.nodup_guarded.erase cell
  nodup_forgotten := by
    refine List.nodup_cons.mpr ⟨fun hmem => ?_, h.nodup_forgotten⟩
    rw [h.mem_forgotten, hguarded] at hmem
    cases hmem
  shows := by
    have hlength := List.length_erase_add_one ((h.mem_guarded cell).mpr hguarded)
    have hmasks : (guarded.erase cell).length + (cell :: forgotten).length
        = guarded.length + forgotten.length := by
      rw [List.length_cons]
      omega
    exact hmasks ▸ h.shows

end Agrees

/-! ## Requests -/

/-- A row of cells whose locks are held as they should be, with a control that has a mask for each
of them. -/
def Cells.InStep (cells : Cells n) (c : Control σ) (saved : σ → Bool) (on : Bool)
    (hold : Fin n → Hold) (i : σ) : Prop :=
  ∃ guarded forgotten, cells.bank = .holding on guarded forgotten ∧
    Agrees c saved on hold guarded forgotten i

namespace Cells.InStep

variable {cells : Cells n}

theorem lock (h : cells.InStep c saved on hold i) (hc : c.Nests saved) (cell : Fin n) :
    (cells.perform (.lock cell)).2.InStep c saved on (fun y => (hold y).after y (.lock cell))
      (c.callAll i (cells.calls (.lock cell))) := by
  obtain ⟨guarded, forgotten, hbank, hagrees⟩ := h
  by_cases hfree : hold cell = .free
  · have hheld : (Bank.holding on guarded forgotten).isHeld cell = false := by
      rw [← Bool.not_eq_true, hagrees.isHeld_iff]
      exact not_not_intro hfree
    have hg : cell ∉ guarded := by simp [hagrees.mem_guarded, hfree]
    have hf : cell ∉ forgotten := by simp [hagrees.mem_forgotten, hfree]
    rw [calls, hbank, if_neg (by simp [hheld])]
    refine ⟨cell :: guarded, forgotten, ?_, hagrees.lock hc hfree⟩
    simp [perform, hbank, Bank.acquire?_holding hg hf]
  · have hheld : (Bank.holding on guarded forgotten).isHeld cell = true :=
      (hagrees.isHeld_iff cell).mpr hfree
    rw [calls, hbank, if_pos hheld]
    refine ⟨guarded, forgotten, by simp [perform, hbank, Bank.acquire?, hheld], ?_⟩
    refine hagrees.congr fun y => ?_
    rw [after_lock]
    grind

theorem unlock (h : cells.InStep c saved on hold i) (hc : c.Nests saved) (cell : Fin n) :
    (cells.perform (.unlock cell)).2.InStep c saved on (fun y => (hold y).after y (.unlock cell))
      (c.callAll i (cells.calls (.unlock cell))) := by
  obtain ⟨guarded, forgotten, hbank, hagrees⟩ := h
  rw [perform, calls, hbank]
  by_cases hguarded : hold cell = .guarded
  · have hmem : cell ∈ (Bank.holding on guarded forgotten).guarded :=
      (hagrees.mem_guarded cell).mpr hguarded
    rw [if_pos (List.contains_iff_mem.mpr hmem)]
    exact ⟨guarded.erase cell, forgotten, Bank.release_holding hmem, hagrees.unlock hc hguarded⟩
  · have hmem : cell ∉ (Bank.holding on guarded forgotten).guarded :=
      mt (hagrees.mem_guarded cell).mp hguarded
    rw [if_neg (mt List.contains_iff_mem.mp hmem)]
    refine ⟨guarded, forgotten, if_neg hmem, hagrees.congr fun y => ?_⟩
    rw [after_unlock]
    grind

theorem force (h : cells.InStep c saved on hold i) (hc : c.Nests saved) (cell : Fin n) :
    (cells.perform (.force cell)).2.InStep c saved on (fun y => (hold y).after y (.force cell))
      (c.callAll i (cells.calls (.force cell))) := by
  obtain ⟨guarded, forgotten, hbank, hagrees⟩ := h
  rw [perform, calls, hbank]
  by_cases hforgotten : hold cell = .forgotten
  · have hmem : cell ∈ (Bank.holding on guarded forgotten).forgotten :=
      (hagrees.mem_forgotten cell).mpr hforgotten
    rw [if_pos hmem, if_pos (List.contains_iff_mem.mpr hmem)]
    exact ⟨guarded, forgotten.erase cell, Bank.forceRelease_holding hmem,
      hagrees.force hc hforgotten⟩
  · have hmem : cell ∉ (Bank.holding on guarded forgotten).forgotten :=
      mt (hagrees.mem_forgotten cell).mp hforgotten
    rw [if_neg hmem, if_neg (mt List.contains_iff_mem.mp hmem)]
    refine ⟨guarded, forgotten, hbank, hagrees.congr fun y => ?_⟩
    rw [after_force]
    grind

theorem forget (h : cells.InStep c saved on hold i) (cell : Fin n) :
    (cells.perform (.forget cell)).2.InStep c saved on (fun y => (hold y).after y (.forget cell))
      (c.callAll i (cells.calls (.forget cell))) := by
  obtain ⟨guarded, forgotten, hbank, hagrees⟩ := h
  rw [perform, calls, hbank]
  by_cases hguarded : hold cell = .guarded
  · have hmem : cell ∈ (Bank.holding on guarded forgotten).guarded :=
      (hagrees.mem_guarded cell).mpr hguarded
    exact ⟨guarded.erase cell, cell :: forgotten, Bank.forget_holding hmem,
      hagrees.forget hguarded⟩
  · have hmem : cell ∉ (Bank.holding on guarded forgotten).guarded :=
      mt (hagrees.mem_guarded cell).mp hguarded
    refine ⟨guarded, forgotten, if_neg hmem, hagrees.congr fun y => ?_⟩
    rw [after_forget]
    grind

/-- A request keeps locks and masks in step.  Only one that turns interrupts on does not. -/
theorem perform (h : cells.InStep c saved on hold i) (hc : c.Nests saved) {request : Request n}
    (hlock : request ≠ .enable) :
    (cells.perform request).2.InStep c saved on (fun y => (hold y).after y request)
      (c.callAll i (cells.calls request)) := by
  cases request with
  | lock cell => exact h.lock hc cell
  | unlock cell => exact h.unlock hc cell
  | forget cell => exact h.forget cell
  | force cell => exact h.force hc cell
  | enable => exact absurd rfl hlock
  | set cell value =>
    obtain ⟨guarded, forgotten, hbank, hagrees⟩ := h
    refine ⟨guarded, forgotten, ?_, hagrees.congr fun y => after_set ..⟩
    rw [Cells.perform]
    split <;> exact hbank

theorem performAll (h : cells.InStep c saved on hold i) (hc : c.Nests saved)
    {requests : List (Request n)} (hlocks : .enable ∉ requests) :
    (cells.performAll requests).InStep c saved on
      (fun y => requests.foldl (Hold.after y) (hold y))
      (c.callAll i (cells.callsAll requests)) := by
  induction requests generalizing cells hold i with
  | nil => exact h
  | cons request rest ih =>
    rw [List.mem_cons, not_or] at hlocks
    have hnext := ih (h.perform hc (Ne.symm hlocks.1)) hlocks.2
    rwa [callsAll, Control.callAll, List.foldl_append]

end Cells.InStep

variable (saved) in
/-- Vacant locks are in step with a control that masks nothing. -/
theorem Cells.inStep_ofValues (hdepth : c.depth i = 0) (values : Vector Int n) :
    (Cells.ofValues (c.enabled i) values).InStep c saved (c.enabled i) (fun _ => .free) i := by
  refine ⟨[], [], rfl, by simp, by simp, List.nodup_nil, List.nodup_nil, ?_⟩
  exact ⟨hdepth, by simp, by simp⟩

end Agreement

/-! ## Masks and locks that are held -/

/-- Whatever control masks interrupts, as long as it nests masks: after locks have been taken,
released, forgotten and released by force in any order, there are as many masks in force as locks
are held.  A lock shows whether it is held, and interrupts are off while any lock is; when none is,
they are as they were before the first lock was taken. -/
theorem Control.Nests.counts_locks {σ : Type} {c : Control σ} {saved : σ → Bool}
    (hc : c.Nests saved) {i : σ} (hdepth : c.depth i = 0) (values : Vector Int n)
    {requests : List (Request n)} (hlocks : .enable ∉ requests) :
    let before := Cells.ofValues (c.enabled i) values
    let bank := (before.performAll requests).bank
    let now := c.callAll i (before.callsAll requests)
    let held := heldAfter requests
    c.depth now = held.card ∧ bank.depth = held.card ∧
      (∀ cell, bank.isHeld cell = true ↔ cell ∈ held) ∧
      bank.interrupts.enabled = c.enabled now ∧
      (held.Nonempty → c.enabled now = false) ∧ (held = ∅ → c.enabled now = c.enabled i) := by
  intro before bank now held
  obtain ⟨guarded, forgotten, hbank, hagrees⟩ :=
    (Cells.inStep_ofValues saved hdepth values).performAll hc hlocks
  have hcard : guarded.length + forgotten.length = held.card := hagrees.length_eq
  have hshows : c.Shows saved (c.enabled i) held.card now := hcard ▸ hagrees.shows
  have hbank : bank = .holding (c.enabled i) guarded forgotten := hbank
  refine ⟨hshows.depth_eq, ?_, fun cell => ?_, ?_, fun hheld => ?_, fun hfree => ?_⟩
  · rw [hbank, Bank.depth_holding, hcard]
  · rw [hbank, hagrees.isHeld_iff]
    exact mem_heldAfter.symm
  · rw [hshows.enabled_eq, ← hcard, hbank, Bank.enabled_holding]
    cases guarded <;> cases forgotten <;> simp
  · simp [hshows.enabled_eq, hheld.ne_empty]
  · simp [hshows.enabled_eq, hfree]

/-- Two locks that are released crosswise, the first of them after its guard was forgotten. -/
def crosswise : List (Request 2) :=
  [.lock 0, .lock 1, .forget 0, .unlock 1, .force 0]

theorem crosswise_counts_locks :
    let before := Cells.ofValues true #v[5, 6]
    let now (requests : List (Request 2)) :=
      Interrupts.control.callAll { enabled := true } (before.callsAll requests)
    (now (crosswise.take 4)).depth = 1 ∧ (now (crosswise.take 4)).enabled = false ∧
      (now crosswise).depth = 0 ∧ (now crosswise).enabled = true := by
  obtain ⟨hdepth, -, -, -, hoff, -⟩ := Interrupts.nests_control.counts_locks
    (i := { enabled := true }) rfl #v[5, 6] (by decide : Request.enable ∉ crosswise.take 4)
  obtain ⟨hdepth', -, -, -, -, hon⟩ := Interrupts.nests_control.counts_locks
    (i := { enabled := true }) rfl #v[5, 6] (by decide : Request.enable ∉ crosswise)
  have hheld : heldAfter (crosswise.take 4) = {0} := by decide
  have hfree : heldAfter crosswise = ∅ := by decide
  rw [hheld] at hdepth hoff
  rw [hfree] at hdepth' hon
  exact ⟨hdepth, hoff (Finset.singleton_nonempty 0), hdepth', hon rfl⟩

end FeedbackQueue.Lock
