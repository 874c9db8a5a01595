import FeedbackQueue.Proofs.Scenario.Conservation
import Mathlib.Data.List.Rotate

/-!
# Which process a pick takes

A pick finds nothing exactly when no process waits for a CPU.  Otherwise it takes the first one in
an order that depends on the policy:

* the table scan goes round the table, from the cursor of the CPU on;
* round robin goes along its queue;
* feedback goes along the active queues, level by level, and along the expired ones if no active
  queue has a runnable member.

`Scheduler.Selects` says this together with all that a pick changes, and `Reachable.pick_selects`
that this is how picks are made in every run.
-/

namespace FeedbackQueue

open Kernel

variable {cfg : Config}

/-! ## The rule -/

namespace Scheduler

variable (s : Scheduler cfg)

/-- A slot holds the first runnable process among some slots, in their order. -/
def IsFirst (slots : List (Fin cfg.maxProcs)) (slot : Fin cfg.maxProcs) : Prop :=
  ∃ front back, slots = front ++ slot :: back ∧ (s.table.record slot).state = .runnable ∧
    ∀ y ∈ front, (s.table.record y).state ≠ .runnable

/-- No member of a queue is runnable. -/
def IsStarved (level : Nat) (set : QueueSet) : Prop :=
  ∀ slot ∈ s.queues.members level set, (s.table.record slot).state ≠ .runnable

/-- A slot holds the first runnable member of the first level of a set that has one. -/
def IsHeadmost (set : QueueSet) (slot : Fin cfg.maxProcs) : Prop :=
  ∃ level, s.IsFirst (s.queues.members level set) slot ∧ ∀ above < level, s.IsStarved above set

/-- The scheduler when the sets have been exchanged, which is counted. -/
def exchanged : Scheduler cfg :=
  { s with queues := s.queues.swap (live s), stats := s.stats.record .swap }

/-- The scheduler when the table scan of a CPU has found a slot: the next one starts just past
it. -/
def aimedPast (cpu : Fin cfg.ncpu) (slot : Fin cfg.maxProcs) : Scheduler cfg :=
  let cursor := (slot.val + 1) % cfg.maxProcs
  { s with cpus := s.replaceCpu cpu { s.cpu cpu with cursor } }

/-- Which process a pick of a CPU takes, and what the scheduler is afterwards. -/
inductive Selects (cpu : Fin cfg.ncpu) : Option (Fin cfg.maxProcs) → Scheduler cfg → Prop
  | scan {slot : Fin cfg.maxProcs} (policy : cfg.effectivePolicy = .fifo)
    (first : s.IsFirst ((allSlots cfg).rotate (s.cpu cpu).cursor) slot) :
    Selects cpu (some slot) (s.aimedPast cpu slot)
  | roundRobin {slot : Fin cfg.maxProcs} (policy : cfg.effectivePolicy = .roundRobin)
    (first : s.IsFirst (s.queues.members 0 .active) slot) : Selects cpu (some slot) s
  | active {slot : Fin cfg.maxProcs} (policy : cfg.effectivePolicy = .feedback)
    (headmost : s.IsHeadmost .active slot) : Selects cpu (some slot) s
  | expired {slot : Fin cfg.maxProcs} (policy : cfg.effectivePolicy = .feedback)
    (starved : ∀ level, s.IsStarved level .active) (headmost : s.IsHeadmost .expired slot) :
    Selects cpu (some slot) s.exchanged
  | idle (policy : cfg.effectivePolicy ≠ .feedback)
    (quiet : ∀ slot, (s.table.record slot).state ≠ .runnable) : Selects cpu none s
  | idleExchange (policy : cfg.effectivePolicy = .feedback)
    (quiet : ∀ slot, (s.table.record slot).state ≠ .runnable) : Selects cpu none s.exchanged

end Scheduler

variable {s s' : Scheduler cfg} {cpu : Fin cfg.ncpu} {slot : Fin cfg.maxProcs}

theorem Scheduler.IsFirst.runnable {slots : List (Fin cfg.maxProcs)} (h : s.IsFirst slots slot) :
    (s.table.record slot).state = .runnable := by
  obtain ⟨-, -, -, hrunnable, -⟩ := h
  exact hrunnable

/-- A pick finds nothing exactly when nothing is runnable. -/
theorem Scheduler.Selects.eq_none_iff {found : Option (Fin cfg.maxProcs)}
    (h : s.Selects cpu found s') :
    found = none ↔ ∀ slot, (s.table.record slot).state ≠ .runnable := by
  have hsome : ∀ {slot}, (s.table.record slot).state = .runnable →
      (some slot = none ↔ ∀ slot, (s.table.record slot).state ≠ .runnable) :=
    fun {slot} hrunnable =>
      iff_of_false (Option.some_ne_none slot) fun hnone => hnone slot hrunnable
  cases h with
  | scan policy first => exact hsome first.runnable
  | roundRobin policy first => exact hsome first.runnable
  | active policy headmost => exact hsome headmost.choose_spec.1.runnable
  | expired policy starved headmost => exact hsome headmost.choose_spec.1.runnable
  | idle policy quiet => exact ⟨fun _ => quiet, fun _ => rfl⟩
  | idleExchange policy quiet => exact ⟨fun _ => quiet, fun _ => rfl⟩

/-! ## Searches -/

namespace Kernel

theorem find?_schedulable_eq_some_iff {slots : List (Fin cfg.maxProcs)} :
    slots.find? (schedulable s) = some slot ↔ s.IsFirst slots slot := by
  have hnot : ∀ y, (!schedulable s y) = true ↔ (s.table.record y).state ≠ .runnable := fun y => by
    rw [Bool.not_eq_true', ← Bool.not_eq_true, schedulable_iff]
  simp only [List.find?_eq_some_iff_append, Scheduler.IsFirst, schedulable_iff, hnot]
  constructor
  · rintro ⟨hrunnable, front, back, hslots, hfront⟩
    exact ⟨front, back, hslots, hrunnable, hfront⟩
  · rintro ⟨front, back, hslots, hrunnable, hfront⟩
    exact ⟨hrunnable, front, back, hslots, hfront⟩

theorem find?_schedulable_eq_none_iff {slots : List (Fin cfg.maxProcs)} :
    slots.find? (schedulable s) = none ↔
      ∀ slot ∈ slots, (s.table.record slot).state ≠ .runnable := by
  simp only [List.find?_eq_none, schedulable_iff, ne_eq]

/-- The table scan goes once round the table. -/
theorem scanned_eq (hpos : 0 < cfg.maxProcs) (cursor : Nat) :
    scanned hpos cursor = (allSlots cfg).rotate cursor := by
  refine List.ext_getElem (by simp [scanned]) fun i hi hi' => ?_
  simp [scanned, slotFrom, List.getElem_rotate, Nat.add_comm]

theorem mem_activeMembers {q : Queues cfg.levels cfg.maxProcs} {count : Nat} :
    slot ∈ q.activeMembers count ↔ ∃ level < count, slot ∈ q.members level .active := by
  simp [Queues.activeMembers]

/-- A search of the active queues finds the first runnable member of the first level that has
one. -/
theorem isHeadmost_of_find? {count : Nat}
    (h : (s.queues.activeMembers count).find? (schedulable s) = some slot) :
    s.IsHeadmost .active slot := by
  induction count with
  | zero => cases h
  | succ count ih =>
    rw [Queues.activeMembers, List.range_succ, List.flatMap_append, List.find?_append,
      List.flatMap_singleton] at h
    change ((s.queues.activeMembers count).find? (schedulable s)).or _ = some slot at h
    cases hbefore : (s.queues.activeMembers count).find? (schedulable s) with
    | some found =>
      rw [hbefore, Option.some_or] at h
      exact ih (h ▸ hbefore)
    | none =>
      rw [hbefore, Option.none_or] at h
      refine ⟨count, find?_schedulable_eq_some_iff.mp h, fun above habove y hmem => ?_⟩
      exact find?_schedulable_eq_none_iff.mp hbefore y (mem_activeMembers.mpr ⟨above, habove, hmem⟩)

/-! ## Picks -/

/-- A runnable process is found in a queue of one of the two sets. -/
theorem exists_mem_members (hs : s.Sound) (huse : cfg.effectivePolicy.usesQueues = true)
    (hrunnable : (s.table.record slot).state = .runnable) :
    ∃ level < cfg.levels, ∃ set, slot ∈ s.queues.members level set := by
  obtain ⟨level, set, hplace⟩ := hs.exists_location slot huse (by rw [hrunnable]; rfl)
  obtain ⟨hl, hmem⟩ := (hs.queues.location_eq_some_iff slot level set).mp hplace
  exact ⟨level, hl, set, hmem⟩

theorem selects_of_scan (hpos : 0 < cfg.maxProcs) (hp : cfg.effectivePolicy = .fifo)
    (cpu : Fin cfg.ncpu) :
    let found := (scanned hpos (s.cpu cpu).cursor).find? (schedulable s)
    s.Selects cpu found (Effect.applyAll s (found.toList.map fun slot =>
      .aim cpu ((slot.val + 1) % cfg.maxProcs))) := by
  rw [scanned_eq]
  cases hfound : ((allSlots cfg).rotate (s.cpu cpu).cursor).find? (schedulable s) with
  | none =>
    refine .idle (by simp [hp]) fun slot => find?_schedulable_eq_none_iff.mp hfound slot ?_
    exact List.mem_rotate.mpr (List.mem_finRange slot)
  | some slot => exact .scan hp (find?_schedulable_eq_some_iff.mp hfound)

theorem selects_of_roundRobin (hs : s.Sound) (hv : cfg.IsValid)
    (hp : cfg.effectivePolicy = .roundRobin)
    (hnone : ∀ slot level, s.queues.location slot ≠ some (level, .expired)) (cpu : Fin cfg.ncpu) :
    s.Selects cpu ((s.queues.activeMembers 1).find? (schedulable s)) s := by
  have hone : s.queues.activeMembers 1 = s.queues.members 0 .active := by
    simp [Queues.activeMembers]
  cases hfound : (s.queues.activeMembers 1).find? (schedulable s) with
  | none =>
    refine .idle (by simp [hp]) fun slot hrunnable => ?_
    obtain ⟨level, hl, set, hmem⟩ := exists_mem_members hs (by rw [hp]; rfl) hrunnable
    cases set with
    | active =>
      rw [hv.levels_of_roundRobin hp] at hl
      have hactive := mem_activeMembers.mpr ⟨level, hl, hmem⟩
      exact find?_schedulable_eq_none_iff.mp hfound slot hactive hrunnable
    | expired =>
      exact hnone slot level ((hs.queues.location_eq_some_iff slot level .expired).mpr ⟨hl, hmem⟩)
  | some slot => exact .roundRobin hp (hone ▸ find?_schedulable_eq_some_iff.mp hfound)

/-- A search of all active queues finds nothing exactly when all of them are starved. -/
theorem find?_activeMembers_eq_none_iff :
    (s.queues.activeMembers cfg.levels).find? (schedulable s) = none ↔
      ∀ level, s.IsStarved level .active := by
  rw [find?_schedulable_eq_none_iff]
  constructor
  · exact fun h level slot hmem =>
      h slot (mem_activeMembers.mpr ⟨level, Queues.lt_of_mem_members hmem, hmem⟩)
  · intro h slot hmem
    obtain ⟨level, -, hmem⟩ := mem_activeMembers.mp hmem
    exact h level slot hmem

/-- The exchange makes the expired queues the active ones. -/
theorem members_exchanged (hs : s.Sound) (level : Nat) :
    s.exchanged.queues.members level .active = s.queues.members level .expired :=
  hs.queues.members_swap (live s) level .active

/-- What starves in the active set after an exchange starved in the expired set before it. -/
theorem isStarved_exchanged (hs : s.Sound) {level : Nat} :
    s.exchanged.IsStarved level .active ↔ s.IsStarved level .expired := by
  rw [Scheduler.IsStarved, members_exchanged hs]
  rfl

theorem isHeadmost_exchanged (hs : s.Sound) (h : s.exchanged.IsHeadmost .active slot) :
    s.IsHeadmost .expired slot := by
  obtain ⟨level, hfirst, habove⟩ := h
  rw [members_exchanged hs] at hfirst
  exact ⟨level, hfirst, fun above hlt => (isStarved_exchanged hs).mp (habove above hlt)⟩

theorem selects_of_feedback (hs : s.Sound) (hp : cfg.effectivePolicy = .feedback)
    (cpu : Fin cfg.ncpu) :
    let t := Effect.applyAll s (starvedSwap s cfg.levels)
    s.Selects cpu ((t.queues.activeMembers cfg.levels).find? (schedulable t)) t := by
  cases hactive : (s.queues.activeMembers cfg.levels).find? (schedulable s) with
  | some slot =>
    have hnone : starvedSwap s cfg.levels = [] := if_neg (by simp [hactive])
    simp only [hnone, Effect.applyAll, List.foldl_nil, hactive]
    exact .active hp (isHeadmost_of_find? hactive)
  | none =>
    have hswap : starvedSwap s cfg.levels = [.swap (live s)] := if_pos ⟨hp, hactive⟩
    have hexchanged : Effect.applyAll s (starvedSwap s cfg.levels) = s.exchanged := by
      rw [hswap]
      rfl
    have hstarved := find?_activeMembers_eq_none_iff.mp hactive
    rw [hexchanged]
    dsimp only
    cases hfound :
      (s.exchanged.queues.activeMembers cfg.levels).find? (schedulable s.exchanged) with
    | none =>
      -- A runnable process would be in one of the two sets, and both of them starve.
      have hstarved' := find?_activeMembers_eq_none_iff.mp hfound
      refine .idleExchange hp fun slot hrunnable => ?_
      obtain ⟨level, -, set, hmem⟩ := exists_mem_members hs (by rw [hp]; rfl) hrunnable
      cases set with
      | active => exact hstarved level slot hmem hrunnable
      | expired => exact (isStarved_exchanged hs).mp (hstarved' level) slot hmem hrunnable
    | some slot => exact .expired hp hstarved (isHeadmost_exchanged hs (isHeadmost_of_find? hfound))

/-- A pick follows the rule of its policy, unless the table is too large to be scanned. -/
theorem selects_of_pick (hs : s.Sound) (hv : cfg.IsValid) (hsize : cfg.maxProcs ≤ 2 ^ 60)
    (hnone : cfg.effectivePolicy ≠ .feedback →
      ∀ slot level, s.queues.location slot ≠ some (level, .expired)) (cpu : Fin cfg.ncpu)
    (w : Hardware cfg.maxProcs) (e : Bool) (j : Array Event) :
    ∃ found s' j', s.Selects cpu found s' ∧ pick cpu ⟨s, w, .holding e [] [], j⟩
      = .ok found ⟨s', w, .holding e (lockOf found) [], j'⟩ := by
  unfold pick
  cases hp : cfg.effectivePolicy with
  | fifo =>
    obtain ⟨fault, m, hscan, -⟩ | hscan := pickScanned_apply (w := w) (e := e) (j := j)
      hv.maxProcs_pos cpu.isLt (hs.cursor_lt cpu)
    · exact absurd hscan.2 (Nat.not_lt.mpr hsize)
    · exact ⟨_, _, j, selects_of_scan hv.maxProcs_pos hp cpu, hscan⟩
  | roundRobin =>
    obtain ⟨j', hpick⟩ := pickQueued_apply (s := s) (w := w) (e := e) (j := j) 1
    have hswap : starvedSwap s 1 = [] := if_neg (by simp [hp])
    rw [hswap] at hpick
    exact ⟨_, _, j', selects_of_roundRobin hs hv hp (hnone (by simp [hp])) cpu, hpick⟩
  | feedback =>
    obtain ⟨j', hpick⟩ := pickQueued_apply (s := s) (w := w) (e := e) (j := j) cfg.levels
    exact ⟨_, _, j', selects_of_feedback hs hp cpu, hpick⟩

end Kernel

/-! ## Runs -/

/-- Without feedback the expired set is empty at every moment of every run. -/
theorem Reachable.not_expired (hv : cfg.IsValid) {m : Moment cfg} (hm : Reachable m)
    (hp : cfg.effectivePolicy ≠ .feedback) (slot : Fin cfg.maxProcs) (level : Nat) :
    m.machine.scheduler.queues.location slot ≠ some (level, .expired) := by
  obtain ⟨steps, hpath⟩ := hm
  obtain ⟨effects, hallowed, hscheduler, -, hfeedback⟩ :=
    hpath.exists_effects hv (Moment.sound_fresh hv)
  rw [hscheduler]
  refine Effect.unexpired_applyAll (Scheduler.sound_fresh hv) ?_ hallowed (hfeedback hp) slot level
  intro slot level
  simp [Scheduler.fresh, Queues.location, Queues.empty, Queues.link, Link.detached, Link.location]

/-- At every moment of every run a pick follows the rule of the policy: it finds nothing exactly
when nothing is runnable, and apart from the cursor, the exchange of the sets and the lock of the
process that is found, everything stays as it was. -/
theorem Reachable.pick_selects (hv : cfg.IsValid) (hsize : cfg.maxProcs ≤ 2 ^ 60) {m : Moment cfg}
    (hm : Reachable m) (cpu : Fin cfg.ncpu) :
    ∃ found m', pick cpu m.machine = .ok found m' ∧
      (found = none ↔ ∀ slot, (m.machine.scheduler.table.record slot).state ≠ .runnable) ∧
      m.machine.scheduler.Selects cpu found m'.scheduler ∧ m'.hardware = m.machine.hardware ∧
      match found with
      | none => m'.locks = m.machine.locks
      | some slot => m.machine.locks.acquire? (.process slot) = some m'.locks := by
  have hsound := hm.sound hv
  obtain ⟨enabled, hmachine⟩ := hsound.machine_eq
  obtain ⟨found, s', j', hselects, hpick⟩ := selects_of_pick hsound.scheduler hv hsize
    (hm.not_expired hv) cpu m.machine.hardware enabled m.machine.journal
  rw [← hmachine] at hpick
  refine ⟨found, _, hpick, hselects.eq_none_iff, hselects, rfl, ?_⟩
  rw [hmachine]
  cases found with
  | none => rfl
  | some slot => exact Lock.Bank.acquire?_holding List.not_mem_nil List.not_mem_nil

/-- A run after which the only process waits in the expired set. -/
def expiresAlone : List Step :=
  [.act (.fork "worker" none none), .begin 0, .act (.tick 0 1), .finish 0 .yield]

/-- The process is found all the same, in the set that it expired to. -/
theorem expiresAlone_selects : ∃ m ∈ (Moment.fresh .smallest).walk? expiresAlone,
    m.machine.scheduler.queues.location Config.onlySlot = some (1, .expired) ∧
      ∃ cpu m', pick cpu.val m.machine = .ok (some Config.onlySlot) m' ∧
        m.machine.scheduler.Selects cpu (some Config.onlySlot) m'.scheduler := by
  have hwaits : ∃ m ∈ (Moment.fresh .smallest).walk? expiresAlone,
      m.machine.scheduler.queues.location Config.onlySlot = some (1, .expired) ∧
        (m.machine.scheduler.table.record Config.onlySlot).state = .runnable := by decide +kernel
  obtain ⟨m, hwalk, hplace, hrunnable⟩ := hwaits
  obtain ⟨found, m', hpick, hnone, hselects, -⟩ :=
    Reachable.pick_selects (by decide) (by decide) ⟨_, path_of_walk? hwalk⟩ ⟨0, by decide⟩
  refine ⟨m, hwalk, hplace, ⟨0, by decide⟩, m', ?_⟩
  cases found with
  | none => exact absurd hrunnable (hnone.mp rfl Config.onlySlot)
  | some slot =>
    have honly : slot = Config.onlySlot := Fin.ext (Nat.lt_one_iff.mp slot.isLt)
    exact honly ▸ ⟨hpick, hselects⟩

end FeedbackQueue
