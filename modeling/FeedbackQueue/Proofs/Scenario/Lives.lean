import FeedbackQueue.Proofs.Kernel.Lives
import FeedbackQueue.Proofs.Process.Search
import FeedbackQueue.Proofs.Scenario.Conservation

/-!
# Lives told by a run

What happens to processes can be told from outside: creations and reapings from the replies to them,
and exits from the turns that end with one.  Nothing else happens to a process that these would not
tell, because a step tells exactly the events of its effects.

* `Moment.tell` — the events that are told of steps;
* `Path.exists_told` — they are the events of the effects of a run.
-/

namespace FeedbackQueue

open Kernel

variable {cfg : Config} {s : Scheduler cfg}

/-! ## Telling -/

/-- The events that the reply to an action tells of. -/
def Action.lifeEvents (action : Action) (reply : Reply cfg.maxProcs) :
    List (LifeEvent cfg.maxProcs) :=
  match action, reply with
  | .create name priority parent, .created slot pid
  | .fork name priority parent, .created slot pid =>
    [.created slot { pid, name, parent, home := priority.getD cfg.startLevel }]
  | .reap slot, .reaped pid status =>
    if h : slot < cfg.maxProcs then [.reaped ⟨slot, h⟩ pid status] else []
  | _, _ => []

/-- The events that can be told of a step from outside: from the action and its reply, or from the
turn that ends with an exit. -/
def Moment.lifeEvents (m : Moment cfg) : Step → List (LifeEvent cfg.maxProcs)
  | .act action => (m.reply? (.act action)).elim [] action.lifeEvents
  | .finish index (.exit status) =>
    match m.activities[index]? with
    | some (.turn _ slot) => [.exited slot status]
    | _ => []
  | _ => []

/-! ## Nothing to tell -/

namespace Kernel

variable {effects : List (Effect cfg)}

theorem Picks.not_isVital {cpu : Fin cfg.ncpu} {found : Option (Fin cfg.maxProcs)}
    (h : Picks s cpu found effects) : ∀ effect ∈ effects, effect.isVital = false := by
  obtain rfl | ⟨isLive, rfl, -⟩ | ⟨cursor, rfl⟩ := h.effects_eq <;> simp [Effect.isVital]

theorem Begins.not_isVital {cpu : Fin cfg.ncpu} {picked : Option (Fin cfg.maxProcs)}
    (h : Begins s cpu picked effects) : ∀ effect ∈ effects, effect.isVital = false := by
  cases h with
  | idle picks =>
    exact List.forall_mem_append.mpr ⟨picks.not_isVital, by simp [Effect.isVital]⟩
  | @dispatch slot before after picks report =>
    have hafter : ∀ effect ∈ after, effect.isVital = false := by
      obtain rfl | ⟨window, rfl⟩ := report <;> simp [Effect.isVital]
    refine List.forall_mem_append.mpr ⟨List.forall_mem_append.mpr ⟨picks.not_isVital, ?_⟩, hafter⟩
    simp [Effect.isVital]

theorem not_isVital_of_isWaking {effect : Effect cfg} (h : effect.isWaking = true) :
    effect.isVital = false := by
  cases effect <;> first | rfl | cases h

theorem Wakes.not_isVital {opened : List (Activity cfg)} (h : Wakes s opened effects) :
    ∀ effect ∈ effects, effect.isVital = false :=
  fun effect hmem => not_isVital_of_isWaking (h.waking effect hmem)

theorem Leaves.not_isVital {activity : Activity cfg} {opened : List (Activity cfg)}
    (h : Leaves s activity opened effects) : ∀ effect ∈ effects, effect.isVital = false := by
  intro effect hmem
  obtain hwaking | ⟨slot, pid, rfl, -⟩ := h.mem_cases hmem
  · exact not_isVital_of_isWaking hwaking
  · rfl

theorem Requeues.not_isVital {slot : Fin cfg.maxProcs} {replenish : Bool}
    (h : Requeues s slot replenish effects) : ∀ effect ∈ effects, effect.isVital = false := by
  cases h with
  | scan policy => simp
  | roundRobin policy => simp [Effect.isVital]
  | feedback policy place decision =>
    unfold cascadeEffects moveEffects
    split_ifs <;> simp [Effect.isVital]

/-- The end of a turn tells of an exit, if it is one. -/
theorem Ends.lifeEvents_eq {cpu : Fin cfg.ncpu} {slot : Fin cfg.maxProcs} {ending : Ending}
    (h : Ends s cpu slot ending effects) : Effect.lifeEvents s effects = match ending with
      | .exit status => [.exited slot status]
      | _ => [] := by
  cases h with
  | @yield replenish requeued requeues =>
    refine Effect.lifeEvents_of_not_isVital ?_
    have hrequeued := requeues.not_isVital
    cases replenish <;>
      simpa [List.forall_mem_append, Effect.isVital, or_imp, forall_and] using hrequeued
  | sleep channel => rfl
  | exit status => rfl

end Kernel

/-! ## Actions tell of their effects -/

namespace Action

theorem homeLevel_eq_ok {priority : Option Nat} {home : Nat}
    (h : homeLevel cfg priority = .ok home) : home = priority.getD cfg.startLevel := by
  unfold homeLevel at h
  cases priority with
  | none => exact (Except.ok.inj h).symm
  | some level =>
    dsimp only at h
    split at h
    · exact (Except.ok.inj h).symm
    · cases h

/-- A creation is told of with the pid that the process was given, whatever else is done then. -/
theorem told_of_creation (after : Fin cfg.maxProcs → List (Effect cfg))
    {x : Kernel cfg (Except Refusal (Fin cfg.maxProcs))} {priority : Option Nat}
    {event : Fin cfg.maxProcs → Nat → Effect cfg}
    {tell : Reply cfg.maxProcs → List (LifeEvent cfg.maxProcs)}
    (hx : Ensures x s fun outcome effects =>
      match homeLevel cfg priority, s.table.firstFree? with
      | .error refusal, _ => outcome = .error refusal ∧ effects = []
      | .ok _, none => outcome = .error (.tableFull cfg.maxProcs) ∧ effects = []
      | .ok home, some slot => outcome = .ok slot ∧ effects = event slot home :: after slot)
    (hrefused : ∀ refusal, tell (.refused refusal) = [])
    (hcreated : ∀ slot,
      let effects := event slot (priority.getD cfg.startLevel) :: after slot
      tell (.created slot ((Effect.applyAll s effects).table.record slot).pid)
        = Effect.lifeEvents s effects) :
    Ensures (do creation (← x)) s fun reply effects =>
      tell reply = Effect.lifeEvents s effects := by
  refine (creation_ensures hx).mono fun reply effects hreply _ => ?_
  obtain ⟨outcome, hpost, rfl⟩ := hreply
  split at hpost
  case h_3 home slot hhome _ =>
    obtain ⟨rfl, rfl⟩ := hpost
    obtain rfl := homeLevel_eq_ok hhome
    exact hcreated slot
  all_goals
    obtain ⟨rfl, rfl⟩ := hpost
    exact hrefused _

end Action

/-- Whether an action may create or reap a process. -/
def Action.isVital : Action → Bool
  | .create .. | .fork .. | .reap _ => true
  | _ => false

/-- Actions that create and reap nothing bring about no event. -/
theorem Performs.not_isVital {action : Action} {reply : Reply cfg.maxProcs}
    {effects : List (Effect cfg)} (h : Performs s action reply effects)
    (hvital : action.isVital = false) : ∀ effect ∈ effects, effect.isVital = false := by
  cases h with
  | create | fork | reap => cases hvital
  | pick picks => exact picks.not_isVital
  | tick charges =>
    intro effect hmem
    have hcharge := charges.isCharge effect hmem
    cases effect <;> first | rfl | cases hcharge
  | _ => simp [Effect.isVital]

namespace Action

theorem lifeEvents_ensures {action : Action} (hs : s.Sound) (hv : cfg.IsValid)
    (hlifecycle : action.isLifecycle = true)
    (hslot : ∀ slot ∈ action.slot?, slot < cfg.maxProcs)
    (hcpu : ∀ cpu ∈ action.cpu?, cpu < cfg.ncpu)
    (hfresh : ∀ slot ∈ action.freshSlot?, s.isFresh slot) :
    EnsuresUnless (action.MayFault cfg) action.perform s fun reply effects =>
      action.lifeEvents reply = Effect.lifeEvents s effects := by
  cases action with
  | create name priority parent =>
    refine (told_of_creation (fun _ => []) (create_ensures hs hv name priority parent)
      (fun _ => rfl) fun slot => ?_).unless _
    simp [lifeEvents, Effect.lifeEvents, Effect.lifeEvent?, Effect.applyAll, Effect.apply]
  | fork name priority parent =>
    refine (told_of_creation (fun slot => [.activate slot, .count .fork])
      (Kernel.fork_ensures hs hv name priority parent) (fun _ => rfl) fun slot => ?_).unless _
    simp [lifeEvents, Effect.lifeEvents, Effect.lifeEvent?, Effect.applyAll, Effect.apply]
  | reap slot =>
    have hlt : slot < cfg.maxProcs := hslot slot rfl
    refine ((reap_ensures ⟨slot, hlt⟩).bind fun outcome effects h _ => ?_).unless _
    split at h
    · obtain ⟨rfl, rfl⟩ := h
      refine .pure ?_
      simp [lifeEvents, hlt, Effect.lifeEvents, Effect.lifeEvent?]
    · obtain ⟨rfl, rfl⟩ := h
      exact .pure rfl
  | _ =>
    refine (perform_ensures hs hv hlifecycle hslot hcpu hfresh).mono fun reply effects h _ => ?_
    exact (Effect.lifeEvents_of_not_isVital (h.not_isVital rfl)).symm

end Action

/-! ## Steps tell of their effects -/

theorem Takes.lifeEvents_eq {m : Moment cfg} {step : Step} {effects : List (Effect cfg)}
    {opened : List (Activity cfg)} (h : Takes s m.activities step effects opened)
    (hstep : ∀ action, step ≠ .act action) : m.lifeEvents step = Effect.lifeEvents s effects := by
  cases h with
  | act => exact absurd rfl (hstep _)
  | begin begins => exact (Effect.lifeEvents_of_not_isVital begins.not_isVital).symm
  | @finish index ending cpu slot effects ends here =>
    rw [ends.lifeEvents_eq]
    cases ending with
    | exit status => simp only [Moment.lifeEvents, here]
    | _ => rfl
  | wakeup wakes => exact (Effect.lifeEvents_of_not_isVital wakes.not_isVital).symm
  | kill wakes => exact (Effect.lifeEvents_of_not_isVital wakes.not_isVital).symm
  | resume here isWindow leaves =>
    exact (Effect.lifeEvents_of_not_isVital leaves.not_isVital).symm

/-- What is told of a step are the events of its effects. -/
theorem Moment.Sound.exists_told {m m' : Moment cfg} (h : m.Sound) (hv : cfg.IsValid) {step : Step}
    (hallows : m.Allows step) (hnext : m.next step = .ok m') :
    ∃ effects, Effect.AllowedAll m.machine.scheduler effects ∧
      m'.machine.scheduler = Effect.applyAll m.machine.scheduler effects ∧
      m.lifeEvents step = Effect.lifeEvents m.machine.scheduler effects := by
  by_cases hact : ∃ action, step = .act action
  · obtain ⟨action, rfl⟩ := hact
    obtain ⟨hlifecycle, hslot, hcpu, hfresh⟩ := hallows
    rw [Moment.next, take] at hnext
    cases hperform : action.perform m.machine with
    | error fault t =>
      rw [bind_of_error hperform] at hnext
      cases hnext
    | ok reply t =>
      rw [bind_of_ok hperform] at hnext
      obtain rfl := Except.ok.inj hnext
      obtain ⟨effects, htold, hallowed, hscheduler⟩ := h.exists_effects_of_answer
        (Action.lifeEvents_ensures h.scheduler hv hlifecycle hslot hcpu hfresh) hperform
      refine ⟨effects, hallowed, hscheduler, ?_⟩
      rw [lifeEvents, reply?, hperform]
      exact htold
  · push Not at hact
    obtain ⟨effects, hadvances⟩ := h.advances hv hallows hnext
    exact ⟨effects, hadvances.allowed, hadvances.scheduler_eq, hadvances.takes.lifeEvents_eq hact⟩

/-- The events that are told of steps that are taken one after another. -/
def Moment.tell (m : Moment cfg) (steps : List Step) : List (LifeEvent cfg.maxProcs) :=
  m.observe Moment.lifeEvents steps

namespace Path

variable {a b : Moment cfg} {steps : List Step}

theorem tell_append (h : Path a steps b) (more : List Step) :
    a.tell (steps ++ more) = a.tell steps ++ b.tell more :=
  h.observe_append _ more

/-- What is told of a run are the events of its effects. -/
theorem exists_told (hv : cfg.IsValid) (ha : a.Sound) (h : Path a steps b) :
    ∃ effects, Effect.AllowedAll a.machine.scheduler effects ∧
      b.machine.scheduler = Effect.applyAll a.machine.scheduler effects ∧
      a.tell steps = Effect.lifeEvents a.machine.scheduler effects := by
  induction h with
  | refl => exact ⟨[], trivial, rfl, rfl⟩
  | @tail b c steps step hbefore hallows hnext ih =>
    obtain ⟨effects, hallowed, hscheduler, htold⟩ := ih
    obtain ⟨more, hallowed', hscheduler', htold'⟩ :=
      (ha.path hv hbefore).exists_told hv hallows hnext
    rw [hscheduler] at hallowed' hscheduler' htold'
    refine ⟨effects ++ more, Effect.allowedAll_append.mpr ⟨hallowed, hallowed'⟩,
      hscheduler'.trans (Effect.applyAll_append ..).symm, ?_⟩
    rw [hbefore.tell_append, Effect.lifeEvents_append, htold, ← htold', Moment.tell,
      Moment.observe_singleton]

end Path

end FeedbackQueue
