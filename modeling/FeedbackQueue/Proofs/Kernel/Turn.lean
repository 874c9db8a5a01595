import FeedbackQueue.Proofs.Kernel.Ensures
import FeedbackQueue.Proofs.Queue.Decision
import FeedbackQueue.Scenario.Run

/-!
# What the end of a turn does

A turn that is ended on the CPU that runs the process ends as it should: `Ends` lists the effects of
a yield, a sleep and an exit, and `endTurnAndRound_ensures` says that there are no others.
-/

namespace FeedbackQueue.Kernel

open Lock (Bank)

variable {cfg : Config} {s : Scheduler cfg} {w : Hardware cfg.maxProcs} {e : Bool} {j : Array Event}
variable {gs : List LockName} {slot : Fin cfg.maxProcs} {cpu : Nat}

/-! ## Giving the CPU back -/

theorem expectCurrent_apply (hcpu : cpu < cfg.ncpu) (hg : .cpu cpu ∉ gs) (call : TurnCall)
    (hcurrent : (s.cpu ⟨cpu, hcpu⟩).current = some slot) :
    expectCurrent cpu call ⟨s, w, .holding e gs [], j⟩ = .ok slot ⟨s, w, .holding e gs [], j⟩ := by
  rw [expectCurrent, bind_of_ok (current_apply hcpu hg List.not_mem_nil), hcurrent]
  rfl

/-- With just its own lock held, a process that is not running may be suspended. -/
theorem suspend_apply (lock : LockName) (h : (s.table.record slot).state ≠ .running) :
    suspend slot ⟨s, w, .holding e [lock] [], j⟩ = .ok () ⟨s, w, .holding e [lock] [], j⟩ := by
  rw [suspend, bind_of_ok (record_apply ..), if_neg h]
  dsimp only
  rw [bind_of_ok (get_apply _)]
  simp [Bank.depth_holding, Bank.enabled_holding, pure_apply]

/-- The lock of a process crosses the switch back to the dispatch loop, and is free afterwards. -/
theorem giveBack_apply (hcpu : cpu < cfg.ncpu) :
    (do finishTurn slot; endRound cpu slot : Kernel cfg Unit) ⟨s, w, .holding e [] [], j⟩
      = .ok () ⟨{ s with
            cpus := s.replaceCpu ⟨cpu, hcpu⟩ { s.cpu ⟨cpu, hcpu⟩ with current := none } },
          w, .holding e [] [], j⟩ := by
  have hfinish : finishTurn slot ⟨s, w, .holding e [] [], j⟩
      = .ok () ⟨s, w, .holding e [] [.process slot], j⟩ := by
    rw [finishTurn, bind_of_ok (acquire_apply List.not_mem_nil List.not_mem_nil), modify_apply]
    simp [Bank.forget_holding]
  rw [bind_of_ok hfinish, endRound, bind_of_ok (setCurrent_apply hcpu (by simp) (by simp) none),
    modify_apply]
  simp [Bank.forceRelease_holding]

/-! ## Yield -/

/-- The effects of draining the level of a process that yields. -/
def cascadeEffects (s : Scheduler cfg) (slot : Fin cfg.maxProcs) (level : Nat) (d : Decision) :
    List (Effect cfg) :=
  if d.cascade then
    [.cascade level d.level d.set (some slot.val),
      .count (.cascade (s.queues.sequences.movers level (some slot.val)).length)]
  else []

/-- What is counted when a yield moves a process away from its level. -/
def moveEffects (cfg : Config) (level : Nat) (d : Decision) : List (Effect cfg) :=
  if d.set = .expired then [.count .expiration]
  else if d.level ≠ level then [.count .demotion]
  else []

/-- How a process that yields is queued again, and whether its budget is filled. -/
inductive Requeues (s : Scheduler cfg) (slot : Fin cfg.maxProcs) : Bool → List (Effect cfg) → Prop
  | scan (policy : cfg.effectivePolicy = .fifo) : Requeues s slot false []
  | roundRobin (policy : cfg.effectivePolicy = .roundRobin) :
    Requeues s slot true [.requeue slot (s.queues.link slot).home .active]
  | feedback (policy : cfg.effectivePolicy = .feedback) {level : Nat} {set : QueueSet}
    {d : Decision} (place : s.queues.location slot = some (level, set))
    (decision : s.queues.decision level (s.queues.link slot).home (s.table.record slot).quantum
      = .ok d) :
    Requeues s slot d.replenish
      (cascadeEffects s slot level d ++ moveEffects cfg level d ++ [.requeue slot d.level d.set])

theorem cascade_apply (hs : s.Sound) {level : Nat} {d : Decision} (pid : Pid)
    (hl : level < cfg.levels) (hd : d.level < cfg.levels)
    (hne : d.cascade = true → d.set = .active → d.level ≠ level) : ∃ j',
    cascade slot pid level d ⟨s, w, .holding e gs [], j⟩
      = .ok () ⟨Effect.applyAll s (cascadeEffects s slot level d), w, .holding e gs [], j'⟩ := by
  unfold cascade cascadeEffects
  cases hc : d.cascade with
  | false => exact ⟨j, rfl⟩
  | true =>
    have hdrain := hs.queues.drain_eq d.set (some slot.val) hl hd (hne hc)
    let moved := (s.queues.sequences.movers level (some slot.val)).length
    refine ⟨j.push (.cascaded level moved pid d.set d.level), ?_⟩
    rw [if_pos rfl, bind_of_ok (queues_apply _), hdrain, bind_of_ok (ofExcept_ok_apply ..)]
    rfl

theorem countMove_apply (level : Nat) (d : Decision) (b : Bank LockName) :
    countMove level d ⟨s, w, b, j⟩
      = .ok () ⟨Effect.applyAll s (moveEffects cfg level d), w, b, j⟩ := by
  unfold countMove moveEffects
  split_ifs <;> rfl

/-- Neither a drain nor the counting of a move touches a record. -/
theorem table_cascadeEffects (level : Nat) (d : Decision) :
    (Effect.applyAll s (cascadeEffects s slot level d ++ moveEffects cfg level d)).table
      = s.table := by
  rw [Effect.applyAll_append]
  unfold cascadeEffects moveEffects
  split_ifs <;> rfl

theorem queues_cascadeEffects (level : Nat) (d : Decision) :
    (Effect.applyAll s (cascadeEffects s slot level d ++ moveEffects cfg level d)).queues
      = if d.cascade then
          s.queues.relinkAll d.level d.set (s.queues.sequences.movers level (some slot.val))
        else s.queues := by
  rw [Effect.applyAll_append]
  unfold cascadeEffects moveEffects
  split_ifs <;> rfl

/-- No yield changes the home of a process. -/
theorem home_cascadeEffects (y : Fin cfg.maxProcs) (level : Nat) (d : Decision) :
    ((Effect.applyAll s (cascadeEffects s slot level d ++ moveEffects cfg level d)).queues.link
      y).home = (s.queues.link y).home := by
  rw [queues_cascadeEffects]
  split
  · exact Queues.home_relinkAll y
  · rfl

theorem allowedAll_cascadeEffects {level : Nat} {d : Decision} (hl : level < cfg.levels)
    (hd : d.level < cfg.levels) (hne : d.cascade = true → d.set = .active → d.level ≠ level) :
    Effect.AllowedAll s (cascadeEffects s slot level d ++ moveEffects cfg level d) := by
  refine Effect.allowedAll_append.mpr ⟨?_, ?_⟩
  · unfold cascadeEffects
    split
    case isTrue hc => exact ⟨⟨hl, hd, hne hc⟩, by simp [Effect.Allowed], trivial⟩
    case isFalse => trivial
  · unfold moveEffects
    split_ifs <;> simp [Effect.AllowedAll, Effect.Allowed]

/-- A running process is in a queue, if there are queues, and can be queued again. -/
theorem requeue_ensures (hs : s.Sound) (hstate : (s.table.record slot).state = .running) :
    Ensures (requeue slot) s (Requeues s slot) := by
  intro w e j
  cases hp : cfg.effectivePolicy with
  | fifo =>
    refine ⟨false, [], w, e, j, .scan hp, trivial, ?_⟩
    rw [requeue, hp]
    rfl
  | roundRobin =>
    have hhome := hs.queues.home_lt slot
    refine ⟨true, _, w, e, j, .roundRobin hp, ⟨⟨by rw [hp]; rfl, hstate, hhome⟩, trivial⟩, ?_⟩
    rw [requeue, hp]
    dsimp only
    rw [bind_of_ok (queueAtHome_apply slot hhome List.not_mem_nil List.not_mem_nil)]
    rfl
  | feedback =>
    have huse : cfg.effectivePolicy.usesQueues = true := by rw [hp]; rfl
    obtain ⟨level, set, hplace⟩ := hs.exists_location slot huse (by rw [hstate]; rfl)
    have hl := hs.queues.level_lt hplace
    obtain ⟨d, hdecision⟩ := Queues.exists_decision (q := s.queues) hl (s.queues.link slot).home
      (s.table.record slot).quantum
    have hd := Queues.decision_level_lt hdecision hl (hs.queues.home_lt slot)
    have hne := Queues.decision_level_ne hdecision
    let cascaded := Effect.applyAll s (cascadeEffects s slot level d)
    obtain ⟨j', hcascade⟩ : ∃ j', cascade slot (s.table.record slot).pid level d
        ⟨s, w, .holding e [.queues] [], j⟩ = .ok () ⟨cascaded, w, .holding e [.queues] [], j'⟩ :=
      cascade_apply hs _ hl hd hne
    refine ⟨_, _, w, e, j', .feedback hp hplace hdecision, ?_, ?_⟩
    · refine Effect.allowedAll_append.mpr ⟨allowedAll_cascadeEffects hl hd hne, ?_, trivial⟩
      exact ⟨huse, by rw [table_cascadeEffects, hstate], hd⟩
    · rw [requeue, hp]
      dsimp only
      rw [requeueYielding, bind_of_ok (peek_apply slot (by simp) (by simp))]
      refine locked_apply (by simp) (by simp) ?_
      rw [bind_of_ok (queues_apply _), hplace]
      dsimp only
      rw [hdecision, bind_of_ok (ofExcept_ok_apply ..), bind_of_ok hcascade,
        bind_of_ok (countMove_apply level d _), bind_of_ok (queues_apply _), Queues.enqueue,
        if_pos hd, bind_of_ok (ofExcept_ok_apply ..), ← Effect.applyAll_append,
        Effect.applyAll_append _ [_]]
      rfl

namespace Requeues

variable {replenish : Bool} {effects : List (Effect cfg)}

/-- Being queued again touches no record and no CPU. -/
theorem frame (h : Requeues s slot replenish effects) :
    (Effect.applyAll s effects).table = s.table ∧ (Effect.applyAll s effects).cpus = s.cpus := by
  cases h with
  | scan policy => exact ⟨rfl, rfl⟩
  | roundRobin policy => exact ⟨rfl, rfl⟩
  | feedback policy place decision =>
    unfold cascadeEffects moveEffects
    split_ifs <;> exact ⟨rfl, rfl⟩

theorem isPlain (h : Requeues s slot replenish effects) :
    ∀ effect ∈ effects, effect.isPlain = true := by
  cases h with
  | scan policy => simp
  | roundRobin policy => simp [Effect.isPlain]
  | feedback policy place decision =>
    unfold cascadeEffects moveEffects
    split_ifs <;> simp [Effect.isPlain]

/-- What is counted does not matter. -/
theorem count_iff {occurrence : Occurrence} :
    Requeues ((Effect.count occurrence).apply s) slot replenish effects ↔
      Requeues s slot replenish effects := by
  constructor
  · rintro (policy | policy | ⟨policy, place, decision⟩)
    · exact .scan policy
    · exact .roundRobin policy
    · exact .feedback policy place decision
  · rintro (policy | policy | ⟨policy, place, decision⟩)
    · exact .scan policy
    · exact .roundRobin policy
    · exact .feedback (s := (Effect.count occurrence).apply s) policy place decision

end Requeues

/-! ## The three endings -/

/-- What the end of a turn does. -/
inductive Ends (s : Scheduler cfg) (cpu : Fin cfg.ncpu) (slot : Fin cfg.maxProcs) :
    Ending → List (Effect cfg) → Prop
  | yield {replenish : Bool} {effects : List (Effect cfg)}
    (requeues : Requeues s slot replenish effects) :
    Ends s cpu slot .yield (.count .yield :: effects ++
      (if replenish then [.refill slot] else []) ++ [.stop cpu slot .yield])
  | sleep (channel : Nat) : Ends s cpu slot (.sleep channel) [.stop cpu slot (.sleep channel)]
  | exit (status : Int32) :
    Ends s cpu slot (.exit status) [.count .exit, .stop cpu slot (.exit status)]

/-- What a yield does to the queues is to queue the process again. -/
theorem queues_yieldEffects (cpu : Fin cfg.ncpu) (slot : Fin cfg.maxProcs) (replenish : Bool)
    (requeued : List (Effect cfg)) :
    (Effect.applyAll s (.count .yield :: requeued ++
        (if replenish then [.refill slot] else []) ++ [.stop cpu slot .yield])).queues
      = (Effect.applyAll ((Effect.count .yield).apply s) requeued).queues := by
  rw [List.append_assoc, Effect.applyAll_append]
  cases replenish <;> rfl

/-- Whatever a turn does before it stops is plain. -/
theorem Ends.exists_before {cpu : Fin cfg.ncpu} {ending : Ending} {effects : List (Effect cfg)}
    (h : Ends s cpu slot ending effects) : ∃ before, effects = before ++ [.stop cpu slot ending] ∧
      ∀ effect ∈ before, effect.isPlain = true := by
  cases h with
  | @yield replenish requeued requeues =>
    refine ⟨_, rfl, ?_⟩
    have hrefill : ∀ effect ∈ if replenish then [Effect.refill slot] else [],
        effect.isPlain = true := by
      cases replenish <;> simp [Effect.isPlain]
    have hrequeued := requeues.isPlain
    simp only [List.cons_append, List.mem_cons, List.mem_append]
    rintro effect (rfl | hmem | hmem)
    · rfl
    · exact hrequeued effect hmem
    · exact hrefill effect hmem
  | sleep channel => exact ⟨[], rfl, by simp⟩
  | exit status => exact ⟨[.count .exit], rfl, by simp [Effect.isPlain]⟩

theorem Ends.current_eq {cpu : Fin cfg.ncpu} {ending : Ending} {effects : List (Effect cfg)}
    (h : Ends s cpu slot ending effects) (c : Fin cfg.ncpu) :
    ((Effect.applyAll s effects).cpu c).current = if c = cpu then none else (s.cpu c).current := by
  obtain ⟨before, rfl, hplain⟩ := h.exists_before
  rw [Effect.applyAll_append]
  refine (Effect.current_stop cpu c slot ending).trans ?_
  rw [Effect.current_applyAll fun effect hmem => Effect.isSwitch_of_isPlain (hplain effect hmem)]

/-! ## The last section of a turn -/

section Sections

variable (hstate : (s.table.record slot).state = .running)
include hstate

theorem standBy_apply (replenish : Bool) :
    standBy slot replenish ⟨s, w, .holding e [.process slot] [], j⟩
      = .ok () ⟨{ s with table := s.table.adjust slot fun r =>
          { r with
            quantum := if replenish then cfg.procQuantum else r.quantum
            state := .runnable } }, w, .holding e [.process slot] [], j⟩ := by
  unfold standBy
  cases replenish with
  | false =>
    refine (bind_of_ok (enter_apply _ slot (by rw [hstate]; rfl))).trans ?_
    exact suspend_apply _ (by simp)
  | true =>
    refine (bind_of_ok (adjust_apply ..)).trans ((bind_of_ok (enter_apply _ slot ?_)).trans ?_)
    · simp [hstate, ProcState.mayBecome]
    · rw [suspend_apply _ (by simp), Table.adjust_adjust]
      rfl

theorem fallAsleep_apply (channel : Nat) :
    fallAsleep slot channel ⟨s, w, .holding e [.process slot] [], j⟩
      = .ok () ⟨{ s with table := s.table.adjust slot fun r => (Ending.sleep channel).record r },
          w, .holding e [.process slot] [], j.push (.slept (s.table.record slot).pid channel)⟩ := by
  rw [fallAsleep, bind_of_ok (adjust_apply ..), bind_of_ok (enter_apply _ slot _),
    bind_of_ok (record_apply ..), bind_of_ok (note_apply ..), suspend_apply _ (by simp)]
  · simp [Table.adjust_adjust, Ending.record]
  · simp [hstate, ProcState.mayBecome]

theorem becomeZombie_apply (status : Int32) :
    becomeZombie slot status ⟨s, w, .holding e [.process slot] [], j⟩
      = .ok () ⟨{ s with
            table := s.table.adjust slot fun r => (Ending.exit status).record r
            stats := s.stats.record .exit },
          w, .holding e [.process slot] [], j.push (.exited (s.table.record slot).pid status)⟩ := by
  rw [becomeZombie, bind_of_ok (adjust_apply ..), bind_of_ok (enter_apply _ slot _),
    bind_of_ok (count_apply ..), bind_of_ok (record_apply ..), bind_of_ok (note_apply ..),
    suspend_apply _ (by simp)]
  · simp [Table.adjust_adjust, Ending.record]
  · simp [hstate, ProcState.mayBecome]

end Sections

section Endings

variable (hcpu : cpu < cfg.ncpu)

/-- Every ending stops the CPU, whatever it does before. -/
theorem endTurnAndRound_of_endTurn (slot : Fin cfg.maxProcs) (ending : Ending) {t : Scheduler cfg}
    {w' : Hardware cfg.maxProcs} {e' : Bool} {j' : Array Event}
    (h : endTurn cpu ending ⟨s, w, .holding e [] [], j⟩ = .ok () ⟨t, w', .holding e' [] [], j'⟩) :
    endTurnAndRound cpu slot ending ⟨s, w, .holding e [] [], j⟩
      = .ok () ⟨{ t with
            cpus := t.replaceCpu ⟨cpu, hcpu⟩ { t.cpu ⟨cpu, hcpu⟩ with current := none } },
          w', .holding e' [] [], j'⟩ := by
  rw [endTurnAndRound, bind_of_ok h]
  exact giveBack_apply hcpu

variable (hcurrent : (s.cpu ⟨cpu, hcpu⟩).current = some slot)
include hcurrent

/-- The process that a CPU runs is queued again and made runnable. -/
theorem yieldNow_apply (hs : s.Sound) (w : Hardware cfg.maxProcs) (e : Bool) (j : Array Event) :
    ∃ replenish effects w' e' j', Requeues s slot replenish effects ∧
      Effect.AllowedAll s (.count .yield :: effects) ∧
      let t := Effect.applyAll s (.count .yield :: effects)
      yieldNow cpu ⟨s, w, .holding e [] [], j⟩
        = .ok () ⟨{ t with table := t.table.adjust slot fun r =>
          { r with
            quantum := if replenish then cfg.procQuantum else r.quantum
            state := .runnable } }, w', .holding e' [] [], j'⟩ := by
  have hstate := (hs.running slot).mpr ⟨_, hcurrent⟩
  have hcount : (Effect.count .yield).Allowed s := by simp [Effect.Allowed]
  obtain ⟨replenish, effects, w', e', j', hrequeues, hallowed, hrequeue⟩ :=
    requeue_ensures (hs.apply hcount) hstate w e j
  refine ⟨replenish, effects, w', e', j', Requeues.count_iff.mp hrequeues, ⟨hcount, hallowed⟩, ?_⟩
  have htable := hrequeues.frame.1
  rw [yieldNow, bind_of_ok (expectCurrent_apply hcpu List.not_mem_nil .yield hcurrent),
    bind_of_ok (count_apply ..)]
  refine (bind_of_ok hrequeue).trans ?_
  exact locked_apply List.not_mem_nil List.not_mem_nil (standBy_apply (htable ▸ hstate) replenish)

theorem yieldTurn_ensures (hs : s.Sound) :
    Ensures (endTurnAndRound cpu slot .yield) s fun _ effects =>
      Ends s ⟨cpu, hcpu⟩ slot .yield effects := by
  intro w e j
  obtain ⟨replenish, effects, w', e', j', hrequeues, hallowed, hyield⟩ :=
    yieldNow_apply hcpu hcurrent hs w e j
  let t := Effect.applyAll s (.count .yield :: effects)
  have hcpus : t.cpus = s.cpus := (Requeues.count_iff.mpr hrequeues).frame.2
  have hround := endTurnAndRound_of_endTurn hcpu slot .yield hyield
  refine ⟨(), _, w', e', j', .yield hrequeues, ?_, hround.trans ?_⟩
  · refine Effect.allowedAll_append.mpr ⟨Effect.allowedAll_append.mpr ⟨hallowed, ?_⟩, ?_⟩
    · cases replenish <;> simp [Effect.AllowedAll, Effect.Allowed]
    · refine Effect.allowedAll_singleton.mpr ?_
      have hcpu' : t.cpu ⟨cpu, hcpu⟩ = s.cpu ⟨cpu, hcpu⟩ := by rw [Scheduler.cpu, hcpus]; rfl
      rw [Effect.applyAll_append]
      cases replenish <;> exact (congrArg Cpu.current hcpu').trans hcurrent
  · rw [Effect.applyAll_append, Effect.applyAll_append]
    cases replenish with
    | false => rfl
    | true =>
      simp only [Effect.applyAll, Effect.apply, List.foldl_cons, List.foldl_nil, if_true,
        Table.adjust_adjust]
      rfl

theorem sleepOn_apply (hs : s.Sound) (channel : Nat) :
    sleepOn cpu channel ⟨s, w, .holding e [] [], j⟩
      = .ok () ⟨{ s with table := s.table.adjust slot fun r => (Ending.sleep channel).record r },
          w, .holding e [] [], j.push (.slept (s.table.record slot).pid channel)⟩ := by
  have hstate := (hs.running slot).mpr ⟨_, hcurrent⟩
  have herase : [LockName.process slot.val, .condition].erase .condition = [.process slot.val] := by
    simp
  -- the lock of the condition is free while the process gives up the CPU
  have hsection : locked (.process slot) (do release .condition; fallAsleep slot channel)
      ⟨s, w, .holding e [.condition] [], j⟩ = _ :=
    locked_apply_of_mem (by simp) List.not_mem_nil List.mem_cons_self <| by
      rw [bind_of_ok (release_apply (by simp)), herase, fallAsleep_apply hstate channel]
  rw [List.erase_cons_head] at hsection
  refine locked_apply List.not_mem_nil List.not_mem_nil ?_
  rw [sleep, bind_of_ok (expectCurrent_apply hcpu (by simp) .sleep hcurrent), bind_of_ok hsection]
  exact acquire_apply List.not_mem_nil List.not_mem_nil

theorem sleepTurn_ensures (hs : s.Sound) (channel : Nat) :
    Ensures (endTurnAndRound cpu slot (.sleep channel)) s fun _ effects =>
      Ends s ⟨cpu, hcpu⟩ slot (.sleep channel) effects := fun _ e _ =>
  ⟨(), _, _, e, _, .sleep channel, Effect.allowedAll_singleton.mpr hcurrent,
    endTurnAndRound_of_endTurn hcpu slot (.sleep channel) (sleepOn_apply hcpu hcurrent hs channel)⟩

theorem exit_apply (hs : s.Sound) (status : Int32) :
    exit cpu status ⟨s, w, .holding e [] [], j⟩
      = .ok () ⟨{ s with
            table := s.table.adjust slot fun r => (Ending.exit status).record r
            queues := if cfg.effectivePolicy.usesQueues then s.queues.remove slot else s.queues
            stats := s.stats.record .exit },
          w, .holding e [] [], j.push (.exited (s.table.record slot).pid status)⟩ := by
  have hstate := (hs.running slot).mpr ⟨_, hcurrent⟩
  rw [exit, bind_of_ok (expectCurrent_apply hcpu List.not_mem_nil .exit hcurrent)]
  split
  · rw [bind_of_ok (withQueues_apply rfl List.not_mem_nil List.not_mem_nil)]
    exact locked_apply List.not_mem_nil List.not_mem_nil
      (becomeZombie_apply (s := { s with queues := s.queues.remove slot }) hstate status)
  · exact locked_apply List.not_mem_nil List.not_mem_nil (becomeZombie_apply hstate status)

theorem exitTurn_ensures (hs : s.Sound) (status : Int32) :
    Ensures (endTurnAndRound cpu slot (.exit status)) s fun _ effects =>
      Ends s ⟨cpu, hcpu⟩ slot (.exit status) effects := fun _ e _ =>
  ⟨(), _, _, e, _, .exit status, ⟨by simp [Effect.Allowed], hcurrent, trivial⟩,
    endTurnAndRound_of_endTurn hcpu slot (.exit status) (exit_apply hcpu hcurrent hs status)⟩

/-- The process that a CPU runs can end its turn in each of the three ways. -/
theorem endTurnAndRound_ensures (hs : s.Sound) (ending : Ending) :
    Ensures (endTurnAndRound cpu slot ending) s fun _ effects =>
      Ends s ⟨cpu, hcpu⟩ slot ending effects := by
  cases ending with
  | yield => exact yieldTurn_ensures hcpu hcurrent hs
  | sleep channel => exact sleepTurn_ensures hcpu hcurrent hs channel
  | exit status => exact exitTurn_ensures hcpu hcurrent hs status

end Endings

end FeedbackQueue.Kernel
