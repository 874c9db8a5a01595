import FeedbackQueue.Kernel.Pick
import FeedbackQueue.Proofs.Kernel.Ensures
import Mathlib.Algebra.Group.Nat.Defs

/-!
# What a pick finds

A pick answers a runnable process with its lock held, or nothing.  Under a queue policy the process
is in an active queue at that moment.  On the way a pick at most exchanges the sets or moves the
cursor of its CPU.
-/

namespace FeedbackQueue.Kernel

open Lock (Bank)

variable {cfg : Config} {s : Scheduler cfg} {w : Hardware cfg.maxProcs} {e : Bool} {j : Array Event}

/-- Whether the process in a slot may be picked. -/
abbrev schedulable (s : Scheduler cfg) (slot : Fin cfg.maxProcs) : Bool :=
  (s.table.record slot).isSchedulable

theorem schedulable_iff {slot : Fin cfg.maxProcs} :
    schedulable s slot = true ↔ (s.table.record slot).state = .runnable := by
  unfold schedulable Record.isSchedulable
  cases (s.table.record slot).state <;> simp [ProcState.isSchedulable]

/-- Whether a slot holds a process. -/
abbrev live (s : Scheduler cfg) (slot : Fin cfg.maxProcs) : Bool :=
  (s.table.record slot).isLive

/-! ## Queues -/

theorem swapSets_apply : swapSets ⟨s, w, .holding e [.queues] [], j⟩
    = .ok () ⟨(Effect.swap (live s)).apply s, w, .holding e [.queues] [], j.push .swapped⟩ := by
  have hlook : ∀ slot : Fin cfg.maxProcs,
      (do return (← peek slot).isLive : Kernel cfg Bool) ⟨s, w, .holding e [.queues] [], j⟩
        = .ok (live s slot) ⟨s, w, .holding e [.queues] [], j⟩ := fun slot => by
    rw [bind_of_ok (peek_apply slot (by simp) (by simp)), pure_apply]
  let unlinked := (allSlots cfg).filter fun slot => !s.queues.isLinked slot
  have hasked : s.queues.swap (fun slot => (unlinked.filter (live s)).contains slot)
      = s.queues.swap (live s) :=
    Queues.swap_congr fun slot hlinked => by simp [unlinked, hlinked]
  rw [swapSets, bind_of_ok (queues_apply _), bind_of_ok (filterM_apply fun slot _ => hlook slot),
    bind_of_ok (setQueues_apply ..), hasked]
  rfl

/-- What a pick from the queues does first: under feedback, when no active queue has a runnable
member, it exchanges the sets. -/
def starvedSwap (s : Scheduler cfg) (levels : Nat) : List (Effect cfg) :=
  if cfg.effectivePolicy = .feedback ∧
      (s.queues.activeMembers levels).find? (schedulable s) = none then [.swap (live s)]
  else []

theorem swapIfIdle_apply (levels : Nat) : ∃ j',
    swapIfIdle levels ⟨s, w, .holding e [.queues] [], j⟩
      = .ok () ⟨Effect.applyAll s (starvedSwap s levels), w, .holding e [.queues] [], j'⟩ := by
  by_cases hp : cfg.effectivePolicy = .feedback
  · rw [swapIfIdle, if_pos hp, bind_of_ok (queues_apply _),
      bind_of_ok (locate_apply _ _ (by simp) (by simp)), starvedSwap]
    cases hfirst : (s.queues.activeMembers levels).find? (schedulable s) with
    | some slot =>
      simp only [reduceCtorEq, and_false, if_false]
      exact ⟨j, rfl⟩
    | none =>
      simp only [hp, and_self, if_true]
      exact ⟨_, swapSets_apply⟩
  · rw [swapIfIdle, if_neg hp, starvedSwap, if_neg fun h => hp h.1]
    exact ⟨j, rfl⟩

/-- A pick from the queues takes the first runnable member of the active ones. -/
theorem pickQueued_apply (levels : Nat) : ∃ j',
    let t := Effect.applyAll s (starvedSwap s levels)
    let found := (t.queues.activeMembers levels).find? (schedulable t)
    pickQueued levels ⟨s, w, .holding e [] [], j⟩
      = .ok found ⟨t, w, .holding e (lockOf found) [], j'⟩ := by
  obtain ⟨j', hswap⟩ := swapIfIdle_apply (s := s) (w := w) (e := e) (j := j) levels
  refine ⟨j', ?_⟩
  have hrelease : ∀ found : Option (Fin cfg.maxProcs),
      (lockOf found ++ [LockName.queues]).erase .queues = lockOf found := by
    intro found
    cases found <;> simp [lockOf]
  have hfound := seize_apply (s := Effect.applyAll s (starvedSwap s levels)) (w := w) (e := e)
    (j := j') Record.isSchedulable
    ((Effect.applyAll s (starvedSwap s levels)).queues.activeMembers levels)
    (show ∀ i, LockName.process i ∉ [LockName.queues] by simp) (fun _ => List.not_mem_nil)
  have hbody := (bind_of_ok (f := fun _ => do
    seize Record.isSchedulable ((← queues).activeMembers levels)) hswap).trans hfound
  rw [pickQueued, locked_apply_of_mem (by simp) (by simp) (by simp) hbody, hrelease]

/-! ## The table scan -/

/-- The fault of a table scan, on a table that is too large to be allocated. -/
def ScanFault (cfg : Config) (fault : Fault) : Prop :=
  fault = .overflow .add ∧ 2 ^ 60 < cfg.maxProcs

section Scan

variable (hpos : 0 < cfg.maxProcs)

/-- The slot at an offset from a cursor, round the table. -/
def slotFrom (cursor offset : Nat) : Fin cfg.maxProcs :=
  ⟨(cursor + offset) % cfg.maxProcs, Nat.mod_lt _ hpos⟩

theorem scanSlot_apply {cursor offset : Nat} (h : cursor + offset < UInt64.size)
    (m : Machine cfg) : scanSlot cursor offset m = .ok (slotFrom hpos cursor offset) m := by
  rw [scanSlot, if_pos h]
  exact slotAt_apply _ m

/-- A scan is a search of the slots round the table, unless it comes to an offset that overflows. -/
theorem scan_apply (cursor : Nat) (offsets : List Nat) (m : Machine cfg) :
    ((∃ m', scan cursor offsets m = .error (.overflow .add) m') ∧
        ∃ offset ∈ offsets, UInt64.size ≤ cursor + offset) ∨
      scan cursor offsets m
        = seize Record.isSchedulable (offsets.map (slotFrom hpos cursor)) m := by
  induction offsets generalizing m with
  | nil => exact .inr rfl
  | cons offset rest ih =>
    by_cases hfits : cursor + offset < UInt64.size
    · have hscan := bind_of_ok (f := fun slot => do
        if ← grab Record.isSchedulable slot then return some slot
        scan cursor rest) (scanSlot_apply hpos hfits m)
      rw [scan, hscan, List.map_cons, seize, bind_apply, bind_apply]
      rcases grab Record.isSchedulable (slotFrom hpos cursor offset) m
        with ⟨_ | _, m'⟩ | ⟨fault, m'⟩
      · obtain ⟨hfault, o, hmem, ho⟩ | hsearch := ih m'
        · exact .inl ⟨hfault, o, List.mem_cons_of_mem offset hmem, ho⟩
        · exact .inr hsearch
      · exact .inr rfl
      · exact .inr rfl
    · refine .inl ⟨⟨m, bind_of_error ?_⟩, offset, List.mem_cons_self, not_lt.mp hfits⟩
      rw [scanSlot, if_neg hfits]
      rfl

/-- The slots of a scan, in the order in which it looks at them. -/
def scanned (cursor : Nat) : List (Fin cfg.maxProcs) :=
  (List.range cfg.maxProcs).map (slotFrom hpos cursor)

/-- A pick by table scan takes the first runnable slot from the cursor on, and moves the cursor just
past it. -/
theorem pickScanned_apply {cpu : Nat} (hcpu : cpu < cfg.ncpu)
    (hcursor : (s.cpu ⟨cpu, hcpu⟩).cursor < cfg.maxProcs) :
    let found := (scanned hpos (s.cpu ⟨cpu, hcpu⟩).cursor).find? (schedulable s)
    (∃ fault m, ScanFault cfg fault ∧
        pickScanned cpu ⟨s, w, .holding e [] [], j⟩ = .error fault m) ∨
      pickScanned cpu ⟨s, w, .holding e [] [], j⟩
        = .ok found ⟨Effect.applyAll s (found.toList.map fun slot =>
            .aim ⟨cpu, hcpu⟩ ((slot.val + 1) % cfg.maxProcs)),
          w, .holding e (lockOf found) [], j⟩ := by
  have hlook : withCpu cpu (fun c => (c.cursor, c)) ⟨s, w, .holding e [] [], j⟩
      = .ok (s.cpu ⟨cpu, hcpu⟩).cursor ⟨s, w, .holding e [] [], j⟩ := by
    rw [withCpu_apply hcpu (by simp) (by simp)]
    simp [replaceCpu_self]
  rw [pickScanned, bind_of_ok hlook]
  obtain ⟨⟨m, hfault⟩, offset, hmem, hlarge⟩ | hscan :=
    scan_apply hpos (s.cpu ⟨cpu, hcpu⟩).cursor (List.range cfg.maxProcs) ⟨s, w, .holding e [] [], j⟩
  · refine .inl ⟨_, m, ⟨rfl, ?_⟩, bind_of_error hfault⟩
    -- an offset that overflows lies in a table of more than half the words
    have hoffset := List.mem_range.mp hmem
    simp only [UInt64.size] at hlarge
    omega
  · right
    rw [bind_apply, hscan, seize_apply _ _ (by simp) (by simp)]
    unfold scanned
    cases (List.map (slotFrom hpos (s.cpu ⟨cpu, hcpu⟩).cursor) (List.range cfg.maxProcs)).find?
      (schedulable s) with
    | none => rfl
    | some slot => exact bind_of_ok (withCpu_apply hcpu (by simp [lockOf]) (by simp) _)

end Scan

/-! ## Every policy -/

/-- What a pick of a CPU may find, and do on the way. -/
structure Picks (s : Scheduler cfg) (cpu : Fin cfg.ncpu) (found : Option (Fin cfg.maxProcs))
    (effects : List (Effect cfg)) : Prop where
  allowed : Effect.AllowedAll s effects
  effects_eq : effects = [] ∨
    (∃ isLive, effects = [.swap isLive] ∧ cfg.effectivePolicy = .feedback) ∨
    ∃ cursor, effects = [.aim cpu cursor]
  runnable : ∀ slot, found = some slot →
    ((Effect.applyAll s effects).table.record slot).state = .runnable
  active : ∀ slot, found = some slot → cfg.effectivePolicy.usesQueues →
    ∃ level, (Effect.applyAll s effects).queues.location slot = some (level, .active)
  /-- A search of the active queues, which are exchanged first when they starve. -/
  searches : cfg.effectivePolicy.usesQueues = true → effects = starvedSwap s cfg.levels ∧
    found = ((Effect.applyAll s effects).queues.activeMembers cfg.levels).find? (schedulable s)
  /-- A scan round the table, which moves the cursor past what it finds. -/
  scans : cfg.effectivePolicy = .fifo → ∀ hpos,
    found = (scanned hpos (s.cpu cpu).cursor).find? (schedulable s) ∧
      effects = found.toList.map fun slot => .aim cpu ((slot.val + 1) % cfg.maxProcs)

theorem Picks.not_isSwitch {cpu : Fin cfg.ncpu} {found : Option (Fin cfg.maxProcs)}
    {effects : List (Effect cfg)} (h : Picks s cpu found effects) :
    ∀ effect ∈ effects, effect.isSwitch = false := by
  obtain rfl | ⟨isLive, rfl, -⟩ | ⟨cursor, rfl⟩ := h.effects_eq <;> simp [Effect.isSwitch]

theorem starvedSwap_eq (s : Scheduler cfg) (levels : Nat) : starvedSwap s levels = [] ∨
    starvedSwap s levels = [.swap (live s)] ∧ cfg.effectivePolicy = .feedback := by
  unfold starvedSwap
  split
  case isTrue h => exact .inr ⟨rfl, h.1⟩
  case isFalse => exact .inl rfl

/-- An exchange of the sets makes nobody runnable. -/
theorem schedulable_starvedSwap (s : Scheduler cfg) (levels : Nat) :
    schedulable (Effect.applyAll s (starvedSwap s levels)) = schedulable s := by
  obtain heq | ⟨heq, -⟩ := starvedSwap_eq s levels <;> rw [heq] <;> rfl

theorem picks_of_queued (hs : s.Sound) (huse : cfg.effectivePolicy.usesQueues = true)
    (cpu : Fin cfg.ncpu) :
    let t := Effect.applyAll s (starvedSwap s cfg.levels)
    Picks s cpu ((t.queues.activeMembers cfg.levels).find? (schedulable t))
      (starvedSwap s cfg.levels) := by
  have heffects := starvedSwap_eq s cfg.levels
  have hallowed : Effect.AllowedAll s (starvedSwap s cfg.levels) := by
    obtain heq | ⟨heq, -⟩ := heffects <;> simp [heq, Effect.AllowedAll, Effect.Allowed]
  refine ⟨hallowed, ?_, ?_, ?_, ?_, ?_⟩
  · obtain heq | ⟨heq, hp⟩ := heffects
    · exact .inl heq
    · exact .inr (.inl ⟨_, heq, hp⟩)
  · exact fun slot hfound => schedulable_iff.mp (List.find?_some hfound)
  · intro slot hfound _
    obtain ⟨level, -, hmem⟩ := List.mem_flatMap.mp (List.mem_of_find?_eq_some hfound)
    refine ⟨level, ((hs.applyAll hallowed).queues.location_eq_some_iff slot level .active).mpr ?_⟩
    exact ⟨Queues.lt_of_mem_members hmem, hmem⟩
  · exact fun _ => ⟨rfl, by rw [schedulable_starvedSwap]⟩
  · exact fun hp => by simp [hp, Policy.usesQueues] at huse

/-- A pick ends with the lock of the slot that it found. -/
theorem pick_apply (hs : s.Sound) (hv : cfg.IsValid) {cpu : Nat} (hcpu : cpu < cfg.ncpu) :
    (∃ fault m, ScanFault cfg fault ∧ pick cpu ⟨s, w, .holding e [] [], j⟩ = .error fault m) ∨
      ∃ found effects j', Picks s ⟨cpu, hcpu⟩ found effects ∧
        pick cpu ⟨s, w, .holding e [] [], j⟩
          = .ok found ⟨Effect.applyAll s effects, w, .holding e (lockOf found) [], j'⟩ := by
  unfold pick
  cases hp : cfg.effectivePolicy with
  | fifo =>
    have hcursor := hs.cursor_lt ⟨cpu, hcpu⟩
    refine (pickScanned_apply hv.maxProcs_pos hcpu hcursor).imp_right fun hscan => ?_
    have huse : cfg.effectivePolicy.usesQueues = true → False := by simp [hp, Policy.usesQueues]
    refine ⟨_, _, j, ?_, hscan⟩
    cases hfound : (scanned hv.maxProcs_pos (s.cpu ⟨cpu, hcpu⟩).cursor).find? (schedulable s) with
    | none =>
      exact ⟨trivial, .inl rfl, by simp, by simp, fun h => (huse h).elim,
        fun _ _ => ⟨hfound.symm, rfl⟩⟩
    | some slot =>
      have hcursor := Nat.mod_lt (slot.val + 1) hv.maxProcs_pos
      refine ⟨⟨hcursor, trivial⟩, .inr (.inr ⟨_, rfl⟩), ?_, fun _ _ h => (huse h).elim,
        fun h => (huse h).elim, fun _ _ => ⟨hfound.symm, rfl⟩⟩
      rintro y ⟨⟩
      exact schedulable_iff.mp (List.find?_some hfound)
  | roundRobin =>
    -- round robin has a single level, so that its queue is all of the active queues
    rw [← hv.levels_of_roundRobin hp]
    obtain ⟨j', hpick⟩ := pickQueued_apply (s := s) (w := w) (e := e) (j := j) cfg.levels
    exact .inr ⟨_, _, j', picks_of_queued hs (by rw [hp]; rfl) _, hpick⟩
  | feedback =>
    obtain ⟨j', hpick⟩ := pickQueued_apply (s := s) (w := w) (e := e) (j := j) cfg.levels
    exact .inr ⟨_, _, j', picks_of_queued hs (by rw [hp]; rfl) _, hpick⟩

theorem pickAndDrop_ensures (hs : s.Sound) (hv : cfg.IsValid) {cpu : Nat} (hcpu : cpu < cfg.ncpu) :
    EnsuresUnless (ScanFault cfg) (pickAndDrop cpu) s (Picks s ⟨cpu, hcpu⟩) := by
  intro w e j
  obtain ⟨fault, m, hscan, hfault⟩ | ⟨found, effects, j', hpicks, hpick⟩ :=
    pick_apply (w := w) (e := e) (j := j) hs hv hcpu
  · exact .inl ⟨fault, m, hscan, bind_of_error hfault⟩
  · refine .inr ⟨found, effects, w, e, j', hpicks, hpicks.allowed, ?_⟩
    rw [pickAndDrop, bind_of_ok hpick]
    cases found with
    | none => rfl
    | some slot =>
      rw [lockOf_some]
      refine (bind_of_ok (release_apply List.mem_cons_self)).trans ?_
      rw [List.erase_cons_head]
      rfl

end FeedbackQueue.Kernel
