import FeedbackQueue.Proofs.Kernel.Rounds
import FeedbackQueue.Proofs.Kernel.Turn
import FeedbackQueue.Proofs.Kernel.Waking
import FeedbackQueue.Proofs.Scenario.Actions
import FeedbackQueue.Proofs.Scenario.Activities

/-!
# What steps do

At a sound moment (`Moment.Sound`) the scheduler is sound, no lock is held, and the open activities
fit. There every step that is allowed is carried out, except for the faults of `Step.MayFault`, and
it leads to a sound moment again.

* `Takes` — what a step does to the scheduler and which activities are then open;
* `Moment.Sound.next` — a step that is allowed does that, or faults as it may;
* `Advances.sound` — and it keeps a moment sound.
-/

namespace FeedbackQueue

open Kernel

variable {cfg : Config}

/-- What holds at every moment of a run. -/
structure Moment.Sound (m : Moment cfg) : Prop where
  scheduler : m.machine.scheduler.Sound
  /-- Between steps no lock is held. -/
  free : ∃ enabled, m.machine.locks = .holding enabled [] []
  fits : Fits m.machine.scheduler m.activities

/-- The faults that a step may end in. -/
def Step.MayFault (cfg : Config) : Step → Fault → Prop
  | .act action, fault => action.MayFault cfg fault
  | .begin _, fault => ScanFault cfg fault
  | _, _ => False

/-- What a step does to a scheduler, and the activities that are open afterwards. -/
inductive Takes (s : Scheduler cfg) (opened : List (Activity cfg)) :
    Step → List (Effect cfg) → List (Activity cfg) → Prop
  | act {action : Action} {reply : Reply cfg.maxProcs} {effects : List (Effect cfg)}
    (performs : Performs s action reply effects) : Takes s opened (.act action) effects opened
  | begin {cpu : Fin cfg.ncpu} {picked : Option (Fin cfg.maxProcs)} {effects : List (Effect cfg)}
    (begins : Begins s cpu picked effects) :
    Takes s opened (.begin cpu) effects (picked.toList.map (.turn cpu.val) ++ opened)
  | finish {index : Nat} {ending : Ending} {cpu : Fin cfg.ncpu} {slot : Fin cfg.maxProcs}
    {effects : List (Effect cfg)} (ends : Ends s cpu slot ending effects)
    (here : opened[index]? = some (.turn cpu slot)) :
    Takes s opened (.finish index ending) effects (opened.eraseIdx index)
  | wakeup {channel : Nat} {windows : List (Activity cfg)} {effects : List (Effect cfg)}
    (wakes : Wakes s windows effects) : Takes s opened (.wakeup channel) effects (windows ++ opened)
  | kill {pid : Pid} {windows : List (Activity cfg)} {effects : List (Effect cfg)}
    (wakes : Wakes s windows effects) : Takes s opened (.kill pid) effects (windows ++ opened)
  | resume {index : Nat} {activity : Activity cfg} {windows : List (Activity cfg)}
    {effects : List (Effect cfg)} (here : opened[index]? = some activity)
    (isWindow : activity.isTurn = false) (leaves : Leaves s activity windows effects) :
    Takes s opened (.resume index) effects (windows ++ opened.eraseIdx index)

theorem Takes.begins {s : Scheduler cfg} {opened opened' : List (Activity cfg)} {cpu : Nat}
    {effects : List (Effect cfg)} (h : Takes s opened (.begin cpu) effects opened') :
    ∃ (hcpu : cpu < cfg.ncpu) (picked : Option (Fin cfg.maxProcs)),
      Begins s ⟨cpu, hcpu⟩ picked effects ∧ opened' = picked.toList.map (.turn cpu) ++ opened := by
  cases h with
  | @begin cpu picked effects begins => exact ⟨cpu.isLt, picked, begins, rfl⟩

/-- A step leads from one moment to the next, by allowed effects. -/
structure Advances (m : Moment cfg) (step : Step) (effects : List (Effect cfg)) (m' : Moment cfg) :
    Prop where
  takes : Takes m.machine.scheduler m.activities step effects m'.activities
  allowed : Effect.AllowedAll m.machine.scheduler effects
  scheduler_eq : m'.machine.scheduler = Effect.applyAll m.machine.scheduler effects
  free : ∃ enabled, m'.machine.locks = .holding enabled [] []

/-! ## Steps that are allowed -/

namespace Moment

variable {m m' : Moment cfg} {step : Step}

theorem sound_fresh (hv : cfg.IsValid) : (fresh cfg).Sound where
  scheduler := Scheduler.sound_fresh hv
  free := ⟨false, rfl⟩
  fits := fits_fresh

namespace Sound

/-- Between steps a machine holds no lock. -/
theorem machine_eq (h : m.Sound) : ∃ enabled, m.machine
    = ⟨m.machine.scheduler, m.machine.hardware, .holding enabled [] [], m.machine.journal⟩ := by
  obtain ⟨enabled, hlocks⟩ := h.free
  exact ⟨enabled, by rw [← hlocks]⟩

/-- What holds of a scheduler on any hardware that holds no lock holds between steps. -/
theorem machine_of_forall (h : m.Sound) {P : Machine cfg → Prop}
    (hP : ∀ w enabled j, P ⟨m.machine.scheduler, w, .holding enabled [] [], j⟩) : P m.machine := by
  obtain ⟨enabled, hmachine⟩ := h.machine_eq
  rw [hmachine]
  exact hP _ enabled _

/-- An operation that has answered between steps has answered as it should. -/
theorem exists_effects_of_answer (h : m.Sound) {α : Type} {x : Kernel cfg α} {may : Fault → Prop}
    {post : α → List (Effect cfg) → Prop} (hx : EnsuresUnless may x m.machine.scheduler post)
    {a : α} {t : Machine cfg} (hanswer : x m.machine = .ok a t) :
    ∃ effects, post a effects ∧ Effect.AllowedAll m.machine.scheduler effects ∧
      t.scheduler = Effect.applyAll m.machine.scheduler effects := by
  obtain ⟨enabled, hmachine⟩ := h.machine_eq
  rw [hmachine] at hanswer
  obtain ⟨fault, t', -, hfault⟩ | ⟨a', effects, w, e, j, hpost, hallowed, hok⟩ :=
    hx m.machine.hardware enabled m.machine.journal
  · rw [hfault] at hanswer
    cases hanswer
  · rw [hok] at hanswer
    cases hanswer
    exact ⟨effects, hpost, hallowed, rfl⟩

/-- A CPU that may begin a round runs nothing. -/
theorem current_of_allows (h : m.Sound) {cpu : Fin cfg.ncpu} (hallows : m.Allows (.begin cpu)) :
    (m.machine.scheduler.cpu cpu).current = none := by
  rw [Option.eq_none_iff_forall_ne_some]
  intro slot hcurrent
  exact hallows.2 ⟨slot, (h.fits.turn_iff cpu slot).mpr ⟨cpu.isLt, hcurrent⟩⟩

theorem take_ensures (h : m.Sound) (hv : cfg.IsValid) (hallows : m.Allows step) :
    EnsuresUnless (step.MayFault cfg) (take step m.activities) m.machine.scheduler
      fun opened effects => Takes m.machine.scheduler m.activities step effects opened := by
  have hs := h.scheduler
  cases step with
  | act action =>
    obtain ⟨hlifecycle, hslot, hcpu, hfresh⟩ := hallows
    exact (Action.perform_ensures hs hv hlifecycle hslot hcpu hfresh).bind
      fun _ effects hperforms _ => .pure (by simpa using Takes.act hperforms)
  | begin cpu =>
    have hidle : (m.machine.scheduler.cpu ⟨cpu, hallows.1⟩).current = none :=
      h.current_of_allows hallows
    exact (beginTurn_ensures hs hv hallows.1 hidle).bind
      fun _ effects hbegins _ => .pure (by simpa using Takes.begin hbegins)
  | finish index ending =>
    obtain ⟨activity, hhere, hisTurn⟩ := hallows
    cases activity with
    | turn cpu slot =>
      have hmem := List.mem_of_getElem? hhere
      obtain ⟨hcpu, hcurrent⟩ := (h.fits.turn_iff cpu slot).mp hmem
      rw [take, Option.mem_def.mp hhere]
      have hend := endTurnAndRound_ensures hcpu hcurrent hs ending
      refine (hend.bind fun _ effects hends _ => ?_).unless _
      exact .pure (by simpa using Takes.finish hends hhere)
    | _ => cases hisTurn
  | wakeup channel =>
    exact ((wakeActivity_ensures channel _).bind
      fun _ effects hwakes _ => .pure (by simpa using Takes.wakeup hwakes)).unless _
  | kill pid =>
    exact ((killActivity_ensures pid).bind
      fun _ effects hwakes _ => .pure (by simpa using Takes.kill hwakes)).unless _
  | resume index =>
    obtain ⟨activity, hhere, hwindow⟩ := hallows
    rw [take, Option.mem_def.mp hhere]
    refine ((leaveWindow_ensures hs hwindow).bind fun _ effects hleaves _ => ?_).unless _
    exact .pure (by simpa using Takes.resume hhere hwindow hleaves)

/-- A step that is allowed at a sound moment is carried out, or faults as it may. -/
theorem next (h : m.Sound) (hv : cfg.IsValid) (hallows : m.Allows step) :
    (∃ fault, step.MayFault cfg fault ∧ m.next step = .error fault) ∨
      ∃ effects m', m.next step = .ok m' ∧ Advances m step effects m' := by
  obtain ⟨enabled, hmachine⟩ := h.machine_eq
  obtain ⟨fault, _, hmay, hfault⟩ | ⟨opened, effects, w, e, j, htakes, hallowed, htake⟩ :=
    h.take_ensures hv hallows m.machine.hardware enabled m.machine.journal
  · refine .inl ⟨fault, hmay, ?_⟩
    rw [Moment.next, hmachine, hfault]
  · let m' : Machine cfg := ⟨Effect.applyAll m.machine.scheduler effects, w, .holding e [] [], j⟩
    refine .inr ⟨effects, ⟨m', opened⟩, ?_, htakes, hallowed, rfl, e, rfl⟩
    rw [Moment.next, hmachine, htake]

/-- An action that answers is carried out, and leaves the open activities as they are. -/
theorem act (h : m.Sound) {action : Action} (hallows : m.Allows (.act action))
    {post : Reply cfg.maxProcs → List (Effect cfg) → Prop}
    (hx : Ensures action.perform m.machine.scheduler post) :
    ∃ reply effects m', post reply effects ∧ Path m [.act action] m' ∧
      m'.activities = m.activities ∧
      m'.machine.scheduler = Effect.applyAll m.machine.scheduler effects := by
  obtain ⟨enabled, hmachine⟩ := h.machine_eq
  obtain ⟨reply, effects, w, e, j, hpost, -, hok⟩ :=
    hx m.machine.hardware enabled m.machine.journal
  rw [← hmachine] at hok
  let m' : Moment cfg :=
    ⟨⟨Effect.applyAll m.machine.scheduler effects, w, .holding e [] [], j⟩, m.activities⟩
  have hnext : m.next (.act action) = .ok m' := by
    rw [Moment.next, take, bind_of_ok hok]
    rfl
  exact ⟨reply, effects, m', hpost, (Path.refl m).tail hallows hnext, rfl, rfl⟩

theorem advances (h : m.Sound) (hv : cfg.IsValid) (hallows : m.Allows step)
    (hnext : m.next step = .ok m') : ∃ effects, Advances m step effects m' := by
  obtain ⟨fault, -, hfault⟩ | ⟨effects, m'', hok, hadvances⟩ := h.next hv hallows
  · rw [hfault] at hnext
    cases hnext
  · obtain rfl := Except.ok.inj (hok.symm.trans hnext)
    exact ⟨effects, hadvances⟩

end Sound

end Moment

/-! ## Observations -/

/-- What is observed of steps that are taken one after another. -/
def Moment.observe {β : Type} (f : Moment cfg → Step → List β) (m : Moment cfg) : List Step → List β
  | [] => []
  | step :: rest => f m step ++ (m.next step).toOption.elim [] fun m => m.observe f rest

theorem Moment.observe_singleton {β : Type} (f : Moment cfg → Step → List β) (m : Moment cfg)
    (step : Step) : m.observe f [step] = f m step := by
  rw [observe]
  cases (m.next step).toOption <;> exact List.append_nil _

theorem Path.observe_append {β : Type} (f : Moment cfg → Step → List β) {a b : Moment cfg}
    {steps : List Step} (h : Path a steps b) (more : List Step) :
    a.observe f (steps ++ more) = a.observe f steps ++ b.observe f more := by
  induction h generalizing more with
  | refl => rfl
  | @tail b c steps step _ _ hnext ih =>
    have hmore : ∀ rest, b.observe f (step :: rest) = f b step ++ c.observe f rest := by
      intro rest
      rw [Moment.observe, hnext]
      rfl
    rw [List.append_assoc, ih, ih, List.singleton_append, hmore, hmore, List.append_assoc]
    simp [Moment.observe]

/-! ## Sound moments -/

theorem Takes.fits {s : Scheduler cfg} {opened opened' : List (Activity cfg)} {step : Step}
    {effects : List (Effect cfg)} (h : Takes s opened step effects opened') (hf : Fits s opened)
    (hidle : ∀ cpu, step = .begin cpu → ∀ slot, .turn cpu slot ∉ opened) :
    Fits (Effect.applyAll s effects) opened' := by
  cases h with
  | act performs => exact hf.of_current (Effect.current_applyAll performs.not_isSwitch)
  | @begin cpu picked effects begins =>
    have hnone : (s.cpu cpu).current = none := by
      rw [Option.eq_none_iff_forall_ne_some]
      intro slot hcurrent
      exact hidle cpu rfl slot ((hf.turn_iff cpu slot).mpr ⟨cpu.isLt, hcurrent⟩)
    have hcurrent := begins.current_eq hnone
    cases picked with
    | none =>
      refine hf.of_current fun c => (hcurrent c).trans ?_
      split
      case isTrue hc => rw [hc, hnone]
      case isFalse => rfl
    | some slot => exact hf.begin (hidle cpu rfl) hcurrent
  | finish ends here => exact (hf.cons_eraseIdx here).finish ends.current_eq
  | wakeup wakes =>
    exact (hf.of_current (Effect.current_applyAll wakes.not_isSwitch)).addWindows wakes.windows
  | kill wakes =>
    exact (hf.of_current (Effect.current_applyAll wakes.not_isSwitch)).addWindows wakes.windows
  | resume here isWindow leaves =>
    have hleft := (hf.cons_eraseIdx here).leaveWindow isWindow
    exact (hleft.of_current (Effect.current_applyAll leaves.not_isSwitch)).addWindows leaves.windows

theorem Advances.sound {m m' : Moment cfg} {step : Step} {effects : List (Effect cfg)}
    (h : Advances m step effects m') (hm : m.Sound) (hallows : m.Allows step) : m'.Sound where
  scheduler := h.scheduler_eq ▸ hm.scheduler.applyAll h.allowed
  free := h.free
  fits := by
    rw [h.scheduler_eq]
    refine h.takes.fits hm.fits ?_
    rintro cpu rfl slot hmem
    exact hallows.2 ⟨slot, hmem⟩

theorem Moment.Sound.path {a b : Moment cfg} {steps : List Step} (hv : cfg.IsValid) (ha : a.Sound)
    (h : Path a steps b) : b.Sound := by
  induction h with
  | refl => exact ha
  | tail _ hallows hnext ih =>
    obtain ⟨effects, hadvances⟩ := ih.advances hv hallows hnext
    exact hadvances.sound ih hallows

/-- Every moment of a run is sound. -/
theorem Reachable.sound {m : Moment cfg} (hv : cfg.IsValid) (h : Reachable m) : m.Sound := by
  obtain ⟨steps, hpath⟩ := h
  exact (Moment.sound_fresh hv).path hv hpath

end FeedbackQueue
