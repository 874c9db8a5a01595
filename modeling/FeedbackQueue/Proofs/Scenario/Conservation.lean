import FeedbackQueue.Proofs.Kernel.Ledger
import FeedbackQueue.Proofs.Scenario.Steps

/-!
# Processes and events are conserved

No process is lost and none is counted twice.  A run is a list of effects, and every step adds
effects that are *balanced*: each transition of a process is counted as often as it is made.

* `Path.exists_effects` — the effects of a run are balanced;
* `Path.conserves` — so the counters tell how many processes are in which state, and the replies to
  a run tell how many slots are taken.
-/

namespace FeedbackQueue

open Kernel

variable {cfg : Config} {s : Scheduler cfg} {effects : List (Effect cfg)}

/-! ## Balanced effects -/

/-- Transitions that are counted as often as they are made, in steps with so many yields, creations
and reapings.  Creations, reapings and the start of a sleep have no counter. -/
structure Tallies (yields creates reaps : Nat) (made : List Transition)
    (counted : List Occurrence) : Prop where
  forks : made.count .activate = counted.count .fork
  picks : made.count .dispatch = counted.count .pick
  wakeups : made.count .wake = counted.count .wakeup
  exits : made.count .exit = counted.count .exit
  yields_made : made.count .yield = yields
  yields_counted : counted.count .yield = yields
  creates : made.count .create = creates
  reaps : made.count .reap = reaps
  /-- Only a process that leaves its level drains it. -/
  cascades : counted.countP Occurrence.isCascade
    ≤ counted.count .demotion + counted.count .expiration
  /-- A yield moves its process to another level at most once. -/
  moves : counted.count .demotion + counted.count .expiration ≤ yields

theorem Tallies.append {y c r y' c' r' : Nat} {made made' : List Transition}
    {counted counted' : List Occurrence} (h : Tallies y c r made counted)
    (h' : Tallies y' c' r' made' counted') :
    Tallies (y + y') (c + c') (r + r') (made ++ made') (counted ++ counted') := by
  obtain ⟨h₁, h₂, h₃, h₄, h₅, h₆, h₇, h₈, h₉, h₁₀⟩ := h
  obtain ⟨h₁', h₂', h₃', h₄', h₅', h₆', h₇', h₈', h₉', h₁₀'⟩ := h'
  constructor <;> simp only [List.count_append, List.countP_append] <;> omega

/-- Effects in which everything is counted as often as it happens. -/
structure Balanced (yields creates reaps : Nat) (effects : List (Effect cfg)) : Prop where
  tallies : Tallies yields creates reaps (Effect.transitions effects) (Effect.occurrences effects)
  feedback : cfg.effectivePolicy ≠ .feedback → ∀ effect ∈ effects, effect.isFeedback = false

namespace Balanced

theorem append {y c r y' c' r' : Nat} {first second : List (Effect cfg)}
    (h : Balanced y c r first) (h' : Balanced y' c' r' second) :
    Balanced (y + y') (c + c') (r + r') (first ++ second) where
  tallies := by
    have htallies := h.tallies.append h'.tallies
    rwa [← Effect.transitions_append, ← Effect.occurrences_append] at htallies
  feedback hp := List.forall_mem_append.mpr ⟨h.feedback hp, h'.feedback hp⟩

/-- Effects that make no transition and count nothing. -/
theorem of_silent (h : ∀ effect ∈ effects, effect.transition? = none ∧ effect.occurrence? = none ∧
    effect.isFeedback = false) : Balanced 0 0 0 effects where
  tallies := by
    have htransitions : Effect.transitions effects = [] :=
      List.filterMap_eq_nil_iff.mpr fun effect hmem => by rw [(h effect hmem).1]; rfl
    have hoccurrences : Effect.occurrences effects = [] :=
      List.filterMap_eq_nil_iff.mpr fun effect hmem => (h effect hmem).2.1
    rw [htransitions, hoccurrences]
    constructor <;> decide
  feedback _ effect hmem := (h effect hmem).2.2

theorem nil : Balanced 0 0 0 ([] : List (Effect cfg)) :=
  .of_silent (by simp)

theorem flatMap {α : Type} {f : α → List (Effect cfg)} (h : ∀ a, Balanced 0 0 0 (f a))
    (items : List α) : Balanced 0 0 0 (items.flatMap f) := by
  induction items with
  | nil => exact .nil
  | cons a rest ih => exact (h a).append ih

end Balanced

/-! ## Operations are balanced -/

namespace Kernel

theorem Picks.balanced {cpu : Fin cfg.ncpu} {found : Option (Fin cfg.maxProcs)}
    (h : Picks s cpu found effects) : Balanced 0 0 0 effects := by
  obtain rfl | ⟨isLive, rfl, hp⟩ | ⟨cursor, rfl⟩ := h.effects_eq
  · exact .nil
  · have htallies : Tallies 0 0 0 [] [.swap] := by constructor <;> decide
    exact ⟨htallies, fun hnot => absurd hp hnot⟩
  · exact .of_silent (by simp [Effect.transition?, Effect.occurrence?, Effect.isFeedback])

theorem Begins.balanced {cpu : Fin cfg.ncpu} {picked : Option (Fin cfg.maxProcs)}
    (h : Begins s cpu picked effects) : Balanced 0 0 0 effects := by
  cases h with
  | idle picks =>
    have htallies : Tallies 0 0 0 [] [.idle] := by constructor <;> decide
    have hidle : Balanced 0 0 0 [(.count .idle : Effect cfg)] :=
      ⟨htallies, by simp [Effect.isFeedback, Occurrence.isFeedback]⟩
    exact picks.balanced.append hidle
  | @dispatch slot before after picks report =>
    have htallies : Tallies 0 0 0 [.dispatch] [.pick] := by constructor <;> decide
    have hdispatch : Balanced 0 0 0 [.dispatch cpu slot, .count .pick] :=
      ⟨htallies, by simp [Effect.isFeedback, Occurrence.isFeedback]⟩
    have hafter : Balanced 0 0 0 after := by
      obtain rfl | ⟨window, rfl⟩ := report
      · exact .nil
      · exact .of_silent (by simp [Effect.transition?, Effect.occurrence?, Effect.isFeedback])
    exact (picks.balanced.append hdispatch).append hafter

theorem Wakes.balanced {opened : List (Activity cfg)} (h : Wakes s opened effects) :
    Balanced 0 0 0 effects := by
  obtain ⟨marked, woken, rfl, -⟩ := h.effects_eq
  refine (Balanced.flatMap (fun slot => ?_) _).append (Balanced.flatMap (fun slot => ?_) _)
  · have htallies : Tallies 0 0 0 [] [.kill] := by constructor <;> decide
    exact ⟨htallies, by simp [markEffects, Effect.isFeedback, Occurrence.isFeedback]⟩
  · have htallies : Tallies 0 0 0 [.wake] [.wakeup] := by constructor <;> decide
    exact ⟨htallies, by simp [wakeEffects, Effect.isFeedback, Occurrence.isFeedback]⟩

theorem Leaves.balanced {activity : Activity cfg} {opened : List (Activity cfg)}
    (h : Leaves s activity opened effects) : Balanced 0 0 0 effects := by
  have hrejoin : ∀ slot pid, Balanced 0 0 0 (rejoinEffects s slot pid) := by
    intro slot pid
    refine .of_silent fun effect hmem => ?_
    obtain ⟨rfl, -⟩ := eq_of_mem_rejoinEffects hmem
    exact ⟨rfl, rfl, rfl⟩
  cases h with
  | waking wakes => exact (hrejoin _ _).append wakes.balanced
  | killing => exact hrejoin _ _

/-- What a yield counts, besides itself: it moves its process to another level at most once, and
only then it may drain the level. -/
inductive Counts : List Occurrence → Prop
  | stay : Counts []
  | sink {move : Occurrence} (isMove : move = .demotion ∨ move = .expiration) : Counts [move]
  | drain {move : Occurrence} (isMove : move = .demotion ∨ move = .expiration) (moved : Nat) :
    Counts [.cascade moved, move]

theorem Counts.tallies {counted : List Occurrence} (h : Counts counted) :
    Tallies 1 0 0 [.yield] (.yield :: counted) := by
  cases h with
  | stay => constructor <;> decide
  | sink isMove => obtain rfl | rfl := isMove <;> constructor <;> decide
  | drain isMove moved =>
    obtain rfl | rfl := isMove <;>
      constructor <;> simp [List.countP_cons, Occurrence.isCascade]

theorem counts_cascade_append_move {slot : Fin cfg.maxProcs} {level home : Nat} {left : Int32}
    {d : Decision} (h : s.queues.decision level home left = .ok d) :
    Counts (Effect.occurrences (cascadeEffects s slot level d ++ moveEffects cfg level d)) := by
  have hdrained : ∀ {move : Occurrence}, move = .demotion ∨ move = .expiration →
      moveEffects cfg level d = [.count move] →
      Counts (Effect.occurrences (cascadeEffects s slot level d ++ moveEffects cfg level d)) := by
    intro move hmove heffects
    rw [heffects, cascadeEffects]
    split
    · exact .drain hmove _
    · exact .sink hmove
  obtain ⟨hlevel, hset, -, hcascade⟩ | ⟨hlower, hset, -⟩ | ⟨-, -, hset, -⟩ :=
    Queues.decision_cases h
  · simp [cascadeEffects, moveEffects, hlevel, hset, hcascade, Effect.occurrences, Counts.stay]
  · have hne : d.level ≠ level := Nat.ne_of_gt (Queues.lowerLevel?_eq_some hlower).1
    exact hdrained (.inl rfl) (by simp [moveEffects, hset, hne])
  · exact hdrained (.inr rfl) (by simp [moveEffects, hset])

theorem Requeues.counts {slot : Fin cfg.maxProcs} {replenish : Bool}
    (h : Requeues s slot replenish effects) : Effect.transitions effects = [] ∧
      Counts (Effect.occurrences effects) ∧
      (cfg.effectivePolicy ≠ .feedback → ∀ effect ∈ effects, effect.isFeedback = false) := by
  cases h with
  | scan policy => exact ⟨rfl, .stay, by simp⟩
  | roundRobin policy => exact ⟨rfl, .stay, by simp [Effect.isFeedback]⟩
  | @feedback policy level set d place decision =>
    refine ⟨?_, ?_, fun hnot => absurd policy hnot⟩
    · unfold cascadeEffects moveEffects
      split_ifs <;> rfl
    · have hlast := Effect.occurrences_append
        (cascadeEffects s slot level d ++ moveEffects cfg level d) [.requeue slot d.level d.set]
      rw [hlast.trans (List.append_nil _)]
      exact counts_cascade_append_move decision

theorem Ends.balanced {cpu : Fin cfg.ncpu} {slot : Fin cfg.maxProcs} {ending : Ending}
    (h : Ends s cpu slot ending effects) :
    Balanced (if ending = .yield then 1 else 0) 0 0 effects := by
  cases h with
  | @yield replenish requeued requeues =>
    obtain ⟨hmade, hcounts, hfeedback⟩ := requeues.counts
    obtain ⟨hrefill, hrefill'⟩ :
        Effect.transitions (if replenish then [Effect.refill slot] else []) = [] ∧
          Effect.occurrences (if replenish then [Effect.refill slot] else []) = [] := by
      split <;> exact ⟨rfl, rfl⟩
    constructor
    case tallies =>
      rw [Effect.transitions_append, Effect.transitions_append, Effect.occurrences_append,
        Effect.occurrences_append, hrefill, hrefill', List.append_nil, List.append_nil]
      change Tallies 1 0 0 (Effect.transitions requeued ++ [.yield])
        (.yield :: Effect.occurrences requeued ++ [])
      rw [hmade, List.append_nil]
      exact hcounts.tallies
    case feedback =>
      intro hp effect hmem
      simp only [List.cons_append, List.mem_cons, List.mem_append, List.not_mem_nil,
        or_false] at hmem
      obtain rfl | (hmem | hmem) | rfl := hmem
      · rfl
      · exact hfeedback hp effect hmem
      · cases replenish <;> simp_all [Effect.isFeedback]
      · rfl
  | sleep channel =>
    have htallies : Tallies 0 0 0 [.sleep] [] := by constructor <;> decide
    exact ⟨htallies, by simp [Effect.isFeedback]⟩
  | exit status =>
    have htallies : Tallies 0 0 0 [.exit] [.exit] := by constructor <;> decide
    exact ⟨htallies, by simp [Effect.isFeedback, Occurrence.isFeedback]⟩

end Kernel

/-- An action that tells of a creation or a reaping has made it. -/
theorem Performs.balanced {action : Action} {reply : Reply cfg.maxProcs}
    (h : Performs s action reply effects) :
    Balanced 0 ([reply].countP Reply.isCreated) ([reply].countP Reply.isReaped) effects := by
  cases h with
  | create =>
    have htallies : Tallies 0 1 0 [.create] [] := by constructor <;> decide
    exact ⟨htallies, by simp [Effect.isFeedback]⟩
  | fork =>
    have htallies : Tallies 0 1 0 [.create, .activate] [.fork] := by constructor <;> decide
    exact ⟨htallies, by simp [Effect.isFeedback, Occurrence.isFeedback]⟩
  | activate =>
    have htallies : Tallies 0 0 0 [.activate] [.fork] := by constructor <;> decide
    exact ⟨htallies, by simp [Effect.isFeedback, Occurrence.isFeedback]⟩
  | pick picks => exact picks.balanced
  | setKilled =>
    exact .of_silent (by simp [Effect.transition?, Effect.occurrence?, Effect.isFeedback])
  | reap =>
    have htallies : Tallies 0 0 1 [.reap] [] := by constructor <;> decide
    exact ⟨htallies, by simp [Effect.isFeedback]⟩
  | tick charges =>
    refine .of_silent fun effect hmem => ?_
    have hcharge := charges.isCharge effect hmem
    cases effect <;> first | cases hcharge; done | exact ⟨rfl, rfl, rfl⟩
  | window =>
    exact .of_silent (by simp [Effect.transition?, Effect.occurrence?, Effect.isFeedback])
  | look created reaped => simpa [created, reaped] using Balanced.nil

/-! ## Runs are balanced -/

/-- Whether a step ends a turn with a yield. -/
def Step.isYield : Step → Bool
  | .finish _ .yield => true
  | _ => false

namespace Moment

/-- The reply to a step.  Only actions are replied to. -/
def reply? (m : Moment cfg) : Step → Option (Reply cfg.maxProcs)
  | .act action =>
    match action.perform m.machine with
    | .ok reply _ => some reply
    | .error .. => none
  | _ => none

/-- The replies to steps that are taken one after another. -/
def replies (m : Moment cfg) : List Step → List (Reply cfg.maxProcs)
  | [] => []
  | step :: rest =>
    (m.reply? step).toList ++ (m.next step).toOption.elim [] fun m => m.replies rest

theorem replies_eq_observe (m : Moment cfg) (steps : List Step) :
    m.replies steps = m.observe (fun m step => (m.reply? step).toList) steps := by
  induction steps generalizing m with
  | nil => rfl
  | cons step rest ih => simp only [replies, observe, ih]

/-- An action that is allowed is carried out and replied to. -/
theorem Sound.performs {m m' : Moment cfg} (h : m.Sound) (hv : cfg.IsValid) {action : Action}
    (hallows : m.AllowsAction action) (hnext : m.next (.act action) = .ok m') :
    ∃ reply effects, m.reply? (.act action) = some reply ∧
      Performs m.machine.scheduler action reply effects ∧
      Effect.AllowedAll m.machine.scheduler effects ∧
      m'.machine.scheduler = Effect.applyAll m.machine.scheduler effects := by
  obtain ⟨enabled, hmachine⟩ := h.machine_eq
  obtain ⟨hlifecycle, hslot, hcpu, hfresh⟩ := hallows
  obtain ⟨fault, t, -, hfault⟩ | ⟨reply, effects, w, e, j, hperforms, hallowed, hperform⟩ :=
    Action.perform_ensures h.scheduler hv hlifecycle hslot hcpu hfresh m.machine.hardware enabled
      m.machine.journal
  · rw [← hmachine] at hfault
    rw [Moment.next, take, bind_of_error hfault] at hnext
    cases hnext
  · rw [← hmachine] at hperform
    rw [Moment.next, take, bind_of_ok hperform] at hnext
    obtain rfl := Except.ok.inj hnext
    refine ⟨reply, effects, ?_, hperforms, hallowed, rfl⟩
    rw [reply?, hperform]

end Moment

theorem Takes.balanced {opened opened' : List (Activity cfg)} {step : Step}
    (h : Takes s opened step effects opened') (hstep : ∀ action, step ≠ .act action) :
    Balanced ([step].countP Step.isYield) 0 0 effects := by
  cases h with
  | act performs => exact absurd rfl (hstep _)
  | begin begins => exact begins.balanced
  | @finish index ending cpu slot effects ends here => cases ending <;> exact ends.balanced
  | wakeup wakes => exact wakes.balanced
  | kill wakes => exact wakes.balanced
  | resume here isWindow leaves => exact leaves.balanced

/-- A step has balanced effects. -/
theorem Moment.Sound.exists_effects {m m' : Moment cfg} (h : m.Sound) (hv : cfg.IsValid)
    {step : Step} (hallows : m.Allows step) (hnext : m.next step = .ok m') :
    ∃ effects, Effect.AllowedAll m.machine.scheduler effects ∧
      m'.machine.scheduler = Effect.applyAll m.machine.scheduler effects ∧
      Balanced ([step].countP Step.isYield) ((m.replies [step]).countP Reply.isCreated)
        ((m.replies [step]).countP Reply.isReaped) effects := by
  have hnone : m'.replies [] = [] := rfl
  by_cases hact : ∃ action, step = .act action
  · obtain ⟨action, rfl⟩ := hact
    obtain ⟨reply, effects, hreply, hperforms, hallowed, hscheduler⟩ := h.performs hv hallows hnext
    have hreplies : m.replies [.act action] = [reply] := by
      rw [Moment.replies, hreply, hnext]
      rfl
    refine ⟨effects, hallowed, hscheduler, ?_⟩
    rw [hreplies]
    exact hperforms.balanced
  · push Not at hact
    obtain ⟨effects, hadvances⟩ := h.advances hv hallows hnext
    have hreplies : m.replies [step] = [] := by
      cases step with
      | act action => exact absurd rfl (hact action)
      | _ => rw [Moment.replies, hnext]; rfl
    refine ⟨effects, hadvances.allowed, hadvances.scheduler_eq, ?_⟩
    rw [hreplies]
    exact hadvances.takes.balanced hact

namespace Path

theorem replies_append {a b : Moment cfg} {steps : List Step} (h : Path a steps b)
    (more : List Step) : a.replies (steps ++ more) = a.replies steps ++ b.replies more := by
  simp only [Moment.replies_eq_observe, h.observe_append]

/-- The effects of a run are balanced. -/
theorem exists_effects {a b : Moment cfg} {steps : List Step} (hv : cfg.IsValid) (ha : a.Sound)
    (h : Path a steps b) :
    ∃ effects, Effect.AllowedAll a.machine.scheduler effects ∧
      b.machine.scheduler = Effect.applyAll a.machine.scheduler effects ∧
      Balanced (steps.countP Step.isYield) ((a.replies steps).countP Reply.isCreated)
        ((a.replies steps).countP Reply.isReaped) effects := by
  induction h with
  | refl => exact ⟨[], trivial, rfl, .nil⟩
  | @tail b c steps step hbefore hallows hnext ih =>
    obtain ⟨effects, hallowed, hscheduler, hbalanced⟩ := ih
    obtain ⟨more, hallowed', hscheduler', hbalanced'⟩ :=
      (ha.path hv hbefore).exists_effects hv hallows hnext
    rw [hscheduler] at hallowed' hscheduler'
    refine ⟨effects ++ more, Effect.allowedAll_append.mpr ⟨hallowed, hallowed'⟩,
      hscheduler'.trans (Effect.applyAll_append ..).symm, ?_⟩
    rw [hbefore.replies_append, List.countP_append, List.countP_append, List.countP_append]
    exact hbalanced.append hbalanced'

end Path

/-! ## Conservation -/

/-- In every run processes and events are conserved.  The processes that were forked and have not
exited sleep, wait for a CPU or have one.  Every dispatch has ended in a yield, an exit or a sleep,
every sleep in a wakeup, or it has yet to end.  Every slot that is taken was created and has not
been reaped.  A yield moves its process to another level at most once, and drains the level at most
when it does; as long as the yields fit their counter, this shows in the counters.  Without feedback
there is none of that, and the sets are never exchanged. -/
theorem Path.conserves (hv : cfg.IsValid) {m : Moment cfg} {steps : List Step}
    (h : Path (.fresh cfg) steps m) :
    let s := m.machine.scheduler
    let replies := (Moment.fresh cfg).replies steps
    let yields := steps.countP Step.isYield
    s.stats.forks - s.stats.exits = .ofNat (s.population (· = .sleeping)
      + s.population (· = .runnable) + s.population (· = .running)) ∧
    s.stats.picks = s.stats.yields + s.stats.exits + s.stats.wakeups
      + .ofNat (s.population (· = .sleeping) + s.population (· = .running)) ∧
    replies.countP Reply.isCreated
      = replies.countP Reply.isReaped + s.population (· ≠ .unused) ∧
    s.stats.yields = .ofNat yields ∧
    (yields < UInt64.size →
      s.stats.cascades.toNat ≤ s.stats.demotions.toNat + s.stats.expirations.toNat ∧
      s.stats.demotions.toNat + s.stats.expirations.toNat ≤ s.stats.yields.toNat) ∧
    (cfg.effectivePolicy ≠ .feedback → s.stats.swaps = 0 ∧ s.stats.demotions = 0 ∧
      s.stats.expirations = 0 ∧ s.stats.cascades = 0) := by
  obtain ⟨effects, hallowed, hscheduler, htallies, hfeedback⟩ :=
    h.exists_effects hv (Moment.sound_fresh hv)
  obtain ⟨hsleeping, hrunnable, hrunning, hlive⟩ := Effect.population_of_fresh hv hallowed
  have hstats := (Effect.stats_applyAll (.fresh cfg) effects).trans (Statistics.foldl_record _ _)
  obtain ⟨hforks, hpicks, hwakeups, hexits, hyields, hyields', hcreates, hreaps, hcascades,
    hmoves⟩ := htallies
  have hfresh : (Scheduler.fresh cfg).stats = {} := rfl
  change m.machine.scheduler = Effect.applyAll (.fresh cfg) effects at hscheduler
  dsimp only at hsleeping hrunnable hrunning hlive ⊢
  rw [hscheduler, hstats, hfresh]
  simp only [UInt64.zero_add]
  refine ⟨?_, ?_, ?_, ?_, fun hfits => ?_, fun hp => ?_⟩
  · have hsub : ∀ {a b c : Nat}, a = c + b → UInt64.ofNat a - .ofNat b = .ofNat c := by
      rintro _ b c rfl
      rw [UInt64.ofNat_add, UInt64.add_sub_cancel]
    exact hsub (by omega)
  · simp only [← UInt64.ofNat_add]
    congr 1
    omega
  · omega
  · rw [hyields']
  · -- None of these numbers exceeds the number of yields, so no word has wrapped.
    have hword : ∀ n, n ≤ steps.countP Step.isYield → (UInt64.ofNat n).toNat = n :=
      fun n hn => UInt64.toNat_ofNat_of_lt' (Nat.lt_of_le_of_lt hn hfits)
    rw [hword _ (by omega), hword _ (by omega), hword _ (by omega), hword _ (by omega)]
    omega
  · obtain ⟨hswaps, hdemotions, hexpirations, hdrains⟩ :=
      Effect.count_of_not_isFeedback (hfeedback hp)
    simp [hswaps, hdemotions, hexpirations, hdrains]

/-- A run in which a process expires, sleeps, is woken, exits and is reaped. -/
def wholeLife : List Step :=
  [.act (.fork "worker" none none), .begin 0, .act (.tick 0 1), .finish 0 .yield, .begin 0,
    .finish 0 (.sleep 7), .wakeup 7, .resume 0, .begin 0, .finish 0 (.exit 0), .act (.reap 0)]

/-- When the table is free again, every dispatch has ended and every process has exited. -/
theorem wholeLife_conserves : ∃ m ∈ (Moment.fresh .smallest).walk? wholeLife,
    let stats := m.machine.scheduler.stats
    stats.forks - stats.exits = 0 ∧ stats.picks = stats.yields + stats.exits + stats.wakeups ∧
      stats.cascades.toNat ≤ stats.demotions.toNat + stats.expirations.toNat := by
  have hfree : ∃ m ∈ (Moment.fresh .smallest).walk? wholeLife,
      m.machine.scheduler.population (· = .sleeping) = 0 ∧
        m.machine.scheduler.population (· = .runnable) = 0 ∧
        m.machine.scheduler.population (· = .running) = 0 := by decide +kernel
  obtain ⟨m, hwalk, hsleeping, hrunnable, hrunning⟩ := hfree
  obtain ⟨hforks, hpicks, -, -, hmoves, -⟩ := Path.conserves (by decide) (path_of_walk? hwalk)
  rw [hsleeping, hrunnable, hrunning] at hforks
  rw [hsleeping, hrunning] at hpicks
  exact ⟨m, hwalk, hforks, hpicks.trans (UInt64.add_zero _), (hmoves (by decide)).1⟩

end FeedbackQueue
