import FeedbackQueue.Proofs.Kernel.Lives
import FeedbackQueue.Proofs.Process.Search

/-!
# Numbers of processes

Processes are numbered by their creations, from one on, and a process carries its number as its pid
as far as a word can hold it: pids are numbers modulo `2 ^ 32`.

* `LifeEvent.births` — the slots of all creations, in order;
* `Scheduler.Numbered` — every process carries the number of its creation;
* `Effect.numbered_applyAll` — so it is wherever effects lead;
* `Scheduler.Numbered.injective` — as long as the numbers fit a word, pids tell processes apart.
-/

namespace FeedbackQueue

/-- The slots in which processes were created, in order. -/
def LifeEvent.births {nproc : Nat} (events : List (LifeEvent nproc)) : List (Fin nproc) :=
  events.filterMap fun
    | created slot _ => some slot
    | _ => none

theorem LifeEvent.births_append {nproc : Nat} (first second : List (LifeEvent nproc)) :
    births (first ++ second) = births first ++ births second :=
  List.filterMap_append

variable {cfg : Config} {s : Scheduler cfg} {births : List (Fin cfg.maxProcs)}

/-- Every process carries the number of its creation, the last one in its slot, and the next process
will carry the next number. -/
structure Scheduler.Numbered (s : Scheduler cfg) (births : List (Fin cfg.maxProcs)) : Prop where
  nextPid : s.table.nextPid = .ofNat (births.length + 1)
  carried : ∀ slot, (s.table.record slot).state ≠ .unused → ∃ earlier later,
    births = earlier ++ slot :: later ∧ slot ∉ later ∧
      (s.table.record slot).pid = .ofNat (earlier.length + 1)

theorem Scheduler.numbered_fresh (cfg : Config) : (fresh cfg).Numbered [] where
  nextPid := rfl
  carried slot hlive := by simp [fresh, Record.vacant] at hlive

namespace Effect

variable {effect : Effect cfg} {effects : List (Effect cfg)}

/-- A creation takes the next number. -/
theorem numbered_create {slot : Fin cfg.maxProcs} {name : String} {parent : Option Pid}
    {home : Nat} (h : s.Numbered births) :
    ((create slot name parent home).apply s).Numbered (births ++ [slot]) where
  nextPid := by
    simp only [apply, Table.nextPid_adjust, Table.nextPid_claim, h.nextPid, List.length_append,
      List.length_singleton]
    rw [UInt32.ofNat_add (births.length + 1) 1]
    rfl
  carried y hlive := by
    by_cases hy : y = slot
    · subst hy
      exact ⟨births, [], rfl, List.not_mem_nil, by simp [apply, h.nextPid]⟩
    · have hrecord : (((create slot name parent home).apply s).table.record y)
          = s.table.record y := by
        simp only [apply, Table.record_adjust, Table.record_claim, if_neg hy]
      rw [hrecord] at hlive ⊢
      obtain ⟨earlier, later, rfl, hlater, hpid⟩ := h.carried y hlive
      exact ⟨earlier, later ++ [slot], by simp, by simp [hlater, hy], hpid⟩

/-- Whether a change is a creation. -/
def isCreate : Effect cfg → Bool
  | create .. => true
  | _ => false

/-- Any other change gives no number. -/
theorem numbered_of_not_isCreate (hs : s.Sound) (ha : effect.Allowed s)
    (hcreate : effect.isCreate = false) (h : s.Numbered births) :
    (effect.apply s).Numbered births where
  nextPid := by
    cases effect with
    | create => cases hcreate
    | _ => exact h.nextPid
  carried slot hlive := by
    have hnone : ∀ who, .created slot who ∉ lifeEvents s [effect] := by
      intro who hmem
      rw [lifeEvents, lifeEvents, List.append_nil, Option.mem_toList] at hmem
      obtain ⟨rfl, -⟩ := eq_create_of_lifeEvent? hmem
      cases hcreate
    have hbefore : (s.table.record slot).state ≠ .unused := fun hfree => by
      have hafter : ((applyAll s [effect]).table.record slot).state ≠ .unused := hlive
      obtain ⟨who, hmem⟩ := exists_created_of_live hs (allowedAll_singleton.mpr ha) hfree hafter
      exact hnone who hmem
    have hreplaces : effect.replaces slot = false := by
      cases effect with
      | create => cases hcreate
      | reap y =>
        refine decide_eq_false fun hy => hlive ?_
        simp [apply, hy, Record.vacant]
      | _ => rfl
    obtain ⟨earlier, later, hbirths, hlater, hpid⟩ := h.carried slot hbefore
    refine ⟨earlier, later, hbirths, hlater, ?_⟩
    exact (congrArg Identity.pid (identity_apply hreplaces)).trans hpid

theorem numbered_apply (hs : s.Sound) (ha : effect.Allowed s) (h : s.Numbered births) :
    (effect.apply s).Numbered (births ++ LifeEvent.births (effect.lifeEvent? s).toList) := by
  cases hcreate : effect.isCreate with
  | true =>
    cases effect with
    | create slot name parent home => exact numbered_create h
    | _ => cases hcreate
  | false =>
    have hnone : LifeEvent.births (effect.lifeEvent? s).toList = [] := by
      cases effect with
      | create => cases hcreate
      | stop cpu y ending => cases ending <;> rfl
      | _ => rfl
    rw [hnone, List.append_nil]
    exact numbered_of_not_isCreate hs ha hcreate h

theorem numbered_applyAll (hs : s.Sound) (ha : AllowedAll s effects) (h : s.Numbered births) :
    (applyAll s effects).Numbered (births ++ LifeEvent.births (lifeEvents s effects)) := by
  induction effects generalizing s births with
  | nil =>
    rw [lifeEvents, LifeEvent.births, List.filterMap_nil, List.append_nil]
    exact h
  | cons effect rest ih =>
    rw [lifeEvents, LifeEvent.births_append, ← List.append_assoc]
    exact ih (hs.apply ha.1) ha.2 (numbered_apply hs ha.1 h)

/-- The pid of a process is the number of its creation. -/
theorem pid_of_created (hs : s.Sound) (ha : AllowedAll s effects) (h : s.Numbered births)
    {slot : Fin cfg.maxProcs} {who : Identity} {earlier later : List (LifeEvent cfg.maxProcs)}
    (hevents : lifeEvents s effects = earlier ++ .created slot who :: later) :
    who.pid = .ofNat ((births ++ LifeEvent.births earlier).length + 1) := by
  obtain ⟨before, effect, after, rfl, rfl, hevent, -⟩ := exists_of_lifeEvents hevents
  obtain ⟨hbefore, -⟩ := allowedAll_append.mp ha
  rw [← (numbered_applyAll hs hbefore h).nextPid]
  exact (eq_create_of_lifeEvent? hevent).2

end Effect

/-- Different numbers that fit a word are different pids. -/
theorem eq_of_ofNat_eq {a b : Nat} (ha : a < UInt32.size) (hb : b < UInt32.size)
    (h : UInt32.ofNat a = UInt32.ofNat b) : a = b := by
  rw [← UInt32.toNat_ofNat_of_lt' ha, ← UInt32.toNat_ofNat_of_lt' hb, h]

namespace Scheduler.Numbered

variable {slot y : Fin cfg.maxProcs} {earlier later : List (Fin cfg.maxProcs)}

/-- As long as the numbers fit a word, no process carries the pid of free slots. -/
theorem pid_ne_zero (h : s.Numbered births) (hfew : births.length < UInt32.size)
    (hlive : (s.table.record slot).state ≠ .unused) : (s.table.record slot).pid ≠ 0 := by
  obtain ⟨earlier, later, rfl, -, hpid⟩ := h.carried slot hlive
  rw [List.length_append, List.length_cons] at hfew
  intro hzero
  have hnumber : earlier.length + 1 = 0 :=
    eq_of_ofNat_eq (by omega) (by decide) (hpid.symm.trans hzero)
  omega

/-- As long as the numbers fit a word, a process that carries the pid of a creation comes from
it. -/
theorem eq_of_pid (h : s.Numbered (earlier ++ y :: later))
    (hfew : (earlier ++ y :: later).length < UInt32.size)
    (hlive : (s.table.record slot).state ≠ .unused)
    (hpid : (s.table.record slot).pid = .ofNat (earlier.length + 1)) : slot = y ∧ y ∉ later := by
  obtain ⟨earlier', later', hbirths, hlater, hpid'⟩ := h.carried slot hlive
  have hlength := congrArg List.length hbirths
  simp only [List.length_append, List.length_cons] at hlength hfew
  have hsame := eq_of_ofNat_eq (by omega) (by omega) (hpid.symm.trans hpid')
  obtain ⟨-, hrest⟩ := List.append_inj hbirths (by omega)
  obtain ⟨rfl, rfl⟩ := List.cons.inj hrest
  exact ⟨rfl, hlater⟩

/-- As long as the numbers fit a word, no two processes carry the same pid. -/
theorem injective (h : s.Numbered births) (hfew : births.length < UInt32.size)
    (hlive : (s.table.record slot).state ≠ .unused) (hlive' : (s.table.record y).state ≠ .unused)
    (hpid : (s.table.record slot).pid = (s.table.record y).pid) : slot = y := by
  obtain ⟨earlier, later, rfl, -, hnumber⟩ := h.carried y hlive'
  exact (h.eq_of_pid hfew hlive (hpid.trans hnumber)).1

/-- As long as the numbers fit a word, a search for the pid of a process finds that process. -/
theorem find?_eq_some (h : s.Numbered births) (hfew : births.length < UInt32.size)
    (hlive : (s.table.record slot).state ≠ .unused) :
    s.table.find? (s.table.record slot).pid = some slot := by
  refine Table.find?_eq_some_iff.mpr ⟨⟨hlive, rfl⟩, ?_⟩
  rintro y hlt ⟨hy, hpid⟩
  exact hlt.ne (h.injective hfew hy hlive hpid)

end Scheduler.Numbered

end FeedbackQueue
