import FeedbackQueue.Kernel.Creation
import FeedbackQueue.Proofs.Kernel.Ensures

/-!
# What creating and reaping do

A creation is refused without any effect or has all its effects, and so is a reaping.  An activation
of a fresh process always succeeds.
-/

namespace FeedbackQueue.Kernel

variable {cfg : Config} {s : Scheduler cfg} {w : Hardware cfg.maxProcs} {e : Bool} {j : Array Event}
variable {slot : Fin cfg.maxProcs}

theorem homeLevel_lt (hv : cfg.IsValid) {priority : Option Nat} {home : Nat}
    (h : homeLevel cfg priority = .ok home) : home < cfg.levels := by
  unfold homeLevel at h
  cases priority with
  | none => exact Except.ok.inj h ▸ hv.startLevel_lt
  | some level =>
    dsimp only at h
    split_ifs at h with hl
    exact Except.ok.inj h ▸ hl

theorem state_of_firstFree? (h : s.table.firstFree? = some slot) :
    (s.table.record slot).state = .unused := by
  have hfree := List.find?_some h
  unfold Table.isFree Record.isLive at hfree
  cases hstate : (s.table.record slot).state <;> simp_all [ProcState.isLive]

/-- The scheduler when a slot has been claimed. -/
def claimed (s : Scheduler cfg) (found : Option (Fin cfg.maxProcs)) : Scheduler cfg :=
  match found with
  | some slot => { s with table := s.table.claim slot }
  | none => s

theorem claim_apply : claim ⟨s, w, .holding e [] [], j⟩
    = .ok s.table.firstFree?
        ⟨claimed s s.table.firstFree?, w, .holding e (lockOf s.table.firstFree?) [], j⟩ := by
  have hseize : seize Table.isFree (allSlots cfg) ⟨s, w, .holding e [] [], j⟩
      = .ok s.table.firstFree? ⟨s, w, .holding e (lockOf s.table.firstFree? ++ []) [], j⟩ :=
    seize_apply _ _ (fun _ => List.not_mem_nil) (fun _ => List.not_mem_nil)
  rw [claim, bind_of_ok hseize, List.append_nil]
  cases s.table.firstFree? <;> rfl

theorem resetLink_apply {home : Nat} (hl : home < cfg.levels)
    (hunlinked : s.queues.isLinked slot = false) :
    resetLink slot home ⟨s, w, .holding e [] [], j⟩
      = .ok () ⟨{ s with queues := s.queues.adjustLink slot fun _ => .detached home },
          w, .holding e [] [], j⟩ :=
  withQueues_apply (by simp [Queues.reset, Nat.not_le.mpr hl, hunlinked, Except.map])
    List.not_mem_nil List.not_mem_nil

/-- A creation takes the first free slot.  It is refused when the priority names no level or there
is no free slot. -/
theorem create_ensures (hs : s.Sound) (hv : cfg.IsValid) (name : String) (priority : Option Nat)
    (parent : Option Pid) :
    Ensures (create name priority parent) s fun outcome effects =>
      match homeLevel cfg priority, s.table.firstFree? with
      | .error refusal, _ => outcome = .error refusal ∧ effects = []
      | .ok _, none => outcome = .error (.tableFull cfg.maxProcs) ∧ effects = []
      | .ok home, some slot => outcome = .ok slot ∧ effects = [.create slot name parent home] := by
  intro w e j
  rw [create]
  cases hhome : homeLevel cfg priority with
  | error refusal => exact ⟨_, [], w, e, j, ⟨rfl, rfl⟩, trivial, rfl⟩
  | ok home =>
    have hl := homeLevel_lt hv hhome
    have hclaim := claim_apply (s := s) (w := w) (e := e) (j := j)
    cases hfree : s.table.firstFree? with
    | none =>
      rw [hfree] at hclaim
      refine ⟨.error (.tableFull cfg.maxProcs), [], w, e, j, ⟨rfl, rfl⟩, trivial, ?_⟩
      exact bind_of_ok hclaim
    | some slot =>
      rw [hfree] at hclaim
      have hunused := state_of_firstFree? hfree
      have hunlinked : s.queues.isLinked slot = false := by
        simp [hs.isLinked_eq, hunused, ProcState.isQueued]
      refine ⟨.ok slot, _, w, e, j.push (.created s.table.nextPid name home), ⟨rfl, rfl⟩,
        Effect.allowedAll_singleton.mpr ⟨hunused, hl⟩, ?_⟩
      refine (bind_of_ok hclaim).trans ((bind_of_ok (adjust_apply ..)).trans ?_)
      rw [bind_of_ok (record_apply ..), lockOf_some, bind_of_ok (release_apply List.mem_cons_self),
        List.erase_cons_head]
      let t := { s with table := (s.table.claim slot).adjust slot fun r =>
        { r with name, quantum := cfg.procQuantum, parent } }
      refine (bind_of_ok (resetLink_apply (s := t) hl hunlinked)).trans ?_
      rw [bind_of_ok (note_apply ..)]
      simp [claimed, t, pure_apply, Effect.applyAll, Effect.apply]

theorem makeFirstRunnable_apply (hused : (s.table.record slot).state = .used) :
    makeFirstRunnable slot ⟨s, w, .holding e [] [], j⟩
      = .ok () ⟨{ s with table := s.table.adjust slot fun r => { r with state := .runnable } },
          w, .holding e [] [], j⟩ := by
  refine locked_apply List.not_mem_nil List.not_mem_nil ?_
  rw [bind_of_ok (record_apply ..), if_neg (not_not_intro hused)]
  exact enter_apply _ slot (by rw [hused]; rfl)

/-- A process that has just been created can be activated. -/
theorem activate_ensures (hs : s.Sound) (hused : (s.table.record slot).state = .used) :
    Ensures (activate slot) s fun _ effects => effects = [.activate slot, .count .fork] := by
  intro w e j
  have hhome := hs.queues.home_lt slot
  refine ⟨(), _, w, e, j, rfl, ⟨hused, by simp [Effect.Allowed], trivial⟩, ?_⟩
  rw [activate, bind_of_ok (slotAt_apply slot.isLt _), bind_of_ok (makeFirstRunnable_apply hused)]
  split
  case isTrue huse =>
    let t := { s with table := s.table.adjust slot fun r => { r with state := .runnable } }
    refine (bind_of_ok
      (queueAtHome_apply (s := t) slot hhome List.not_mem_nil List.not_mem_nil)).trans ?_
    simp [t, Effect.applyAll, Effect.apply, huse, count_apply]
  case isFalse huse => simp [Effect.applyAll, Effect.apply, huse, count_apply]

theorem fork_ensures (hs : s.Sound) (hv : cfg.IsValid) (name : String) (priority : Option Nat)
    (parent : Option Pid) :
    Ensures (fork name priority parent) s fun outcome effects =>
      match homeLevel cfg priority, s.table.firstFree? with
      | .error refusal, _ => outcome = .error refusal ∧ effects = []
      | .ok _, none => outcome = .error (.tableFull cfg.maxProcs) ∧ effects = []
      | .ok home, some slot => outcome = .ok slot ∧
        effects = [.create slot name parent home, .activate slot, .count .fork] := by
  refine (create_ensures hs hv name priority parent).bind fun outcome effects hcreate hallowed => ?_
  cases hhome : homeLevel cfg priority with
  | error refusal =>
    rw [hhome] at hcreate
    obtain ⟨rfl, rfl⟩ := hcreate
    exact .pure ⟨rfl, rfl⟩
  | ok home =>
    cases hfree : s.table.firstFree? with
    | none =>
      rw [hhome, hfree] at hcreate
      obtain ⟨rfl, rfl⟩ := hcreate
      exact .pure ⟨rfl, rfl⟩
    | some slot =>
      rw [hhome, hfree] at hcreate
      obtain ⟨rfl, rfl⟩ := hcreate
      refine (activate_ensures (hs.applyAll hallowed) ?_).bind fun _ more hmore _ => ?_
      · simp [Effect.applyAll, Effect.apply]
      · subst hmore
        exact .pure ⟨rfl, rfl⟩

/-- Only the slot of a process that has exited is freed. -/
theorem reap_ensures (slot : Fin cfg.maxProcs) :
    Ensures (reap slot) s fun outcome effects =>
      if (s.table.record slot).state = .zombie then
        outcome = .ok ((s.table.record slot).pid, (s.table.record slot).exitStatus) ∧
          effects = [.reap slot]
      else outcome = .error (.notZombie (s.table.record slot).pid) ∧ effects = [] := by
  intro w e j
  rw [reap, bind_of_ok (slotAt_apply slot.isLt _)]
  by_cases hzombie : (s.table.record slot).state = .zombie
  · simp only [hzombie, if_true]
    refine ⟨_, _, w, e, j, ⟨rfl, rfl⟩, Effect.allowedAll_singleton.mpr hzombie, ?_⟩
    refine locked_apply List.not_mem_nil List.not_mem_nil ?_
    rw [bind_of_ok (record_apply ..), if_neg (not_not_intro hzombie), bind_of_ok (adjust_apply ..)]
    rfl
  · simp only [hzombie, if_false]
    refine ⟨_, _, w, e, j, ⟨rfl, rfl⟩, trivial, ?_⟩
    refine locked_apply List.not_mem_nil List.not_mem_nil ?_
    rw [bind_of_ok (record_apply ..), if_pos hzombie]
    rfl

theorem setKilled_ensures (slot : Fin cfg.maxProcs) :
    Ensures (setKilled slot) s fun _ effects => effects = [.mark slot] := by
  intro w e j
  refine ⟨(), _, w, e, j, rfl, Effect.allowedAll_singleton.mpr trivial, ?_⟩
  rw [setKilled, bind_of_ok (slotAt_apply slot.isLt _)]
  exact locked_apply List.not_mem_nil List.not_mem_nil (adjust_apply ..)

end FeedbackQueue.Kernel
