import FeedbackQueue.Kernel.Effect

/-!
# Effects one after another

What a single effect keeps is kept by a list of them (`Effect.applyAll_induction`), and what no
effect of a list changes is unchanged after it (`Effect.applyAll_eq`).  The effects that give a CPU
away or take it back are the *switches*; without one every CPU goes on with what it runs.
-/

namespace FeedbackQueue

variable {cfg : Config} {s : Scheduler cfg}

theorem Scheduler.cpu_set (s : Scheduler cfg) (cpu c : Fin cfg.ncpu) (changed : Cpu cfg.maxProcs)
    (t : Table cfg.maxProcs) (q : Queues cfg.levels cfg.maxProcs) :
    ({ s with table := t, queues := q, cpus := s.replaceCpu cpu changed } : Scheduler cfg).cpu c
      = if c = cpu then changed else s.cpu c := by
  simp only [Scheduler.cpu, replaceCpu, Vector.getElem_set, Fin.val_inj, eq_comm (a := cpu)]

namespace Effect

/-! ## Lists of effects -/

variable {effects first second : List (Effect cfg)}

theorem applyAll_append (first second : List (Effect cfg)) :
    applyAll s (first ++ second) = applyAll (applyAll s first) second :=
  List.foldl_append ..

theorem allowedAll_append :
    AllowedAll s (first ++ second) ↔ AllowedAll s first ∧ AllowedAll (applyAll s first) second := by
  induction first generalizing s with
  | nil => simp [AllowedAll, applyAll]
  | cons effect rest ih => simp [AllowedAll, applyAll, ih, and_assoc]

theorem allowedAll_singleton {effect : Effect cfg} : AllowedAll s [effect] ↔ effect.Allowed s :=
  and_iff_left trivial

/-- What every effect of a list keeps where it is allowed, the list keeps. -/
theorem applyAll_induction {P : Scheduler cfg → Prop} (h : P s) (ha : AllowedAll s effects)
    (hstep : ∀ effect ∈ effects, ∀ t, effect.Allowed t → P t → P (effect.apply t)) :
    P (applyAll s effects) := by
  induction effects generalizing s with
  | nil => exact h
  | cons effect rest ih =>
    have hfirst := hstep effect List.mem_cons_self s ha.1 h
    exact ih hfirst ha.2 fun other hmem => hstep other (List.mem_cons_of_mem effect hmem)

/-- What no effect of a list changes, the list does not change. -/
theorem applyAll_eq {β : Type} (f : Scheduler cfg → β)
    (h : ∀ effect ∈ effects, ∀ t, f (effect.apply t) = f t) : f (applyAll s effects) = f s :=
  List.foldlRecOn (motive := fun t => f t = f s) effects apply rfl
    fun t ht effect hmem => (h effect hmem t).trans ht

/-! ## Switches -/

/-- Whether a change gives a CPU to a process or takes it back. -/
def isSwitch : Effect cfg → Bool
  | dispatch .. | stop .. => true
  | _ => false

/-- Whether a change neither gives a CPU away or takes it back, nor exchanges the sets, nor moves a
woken process. -/
def isPlain : Effect cfg → Bool
  | dispatch .. | stop .. | swap .. | rejoin .. => false
  | _ => true

theorem isSwitch_of_isPlain {effect : Effect cfg} (h : effect.isPlain = true) :
    effect.isSwitch = false := by
  cases effect <;> first | rfl | cases h

theorem current_apply {effect : Effect cfg} (h : effect.isSwitch = false) (cpu : Fin cfg.ncpu) :
    ((effect.apply s).cpu cpu).current = (s.cpu cpu).current := by
  cases effect with
  | dispatch c slot => cases h
  | stop c slot ending => cases h
  | aim c cursor =>
    simp only [apply, Scheduler.cpu_set]
    split
    case isTrue hcpu => rw [hcpu]
    case isFalse => rfl
  | _ => rfl

theorem current_dispatch (cpu c : Fin cfg.ncpu) (slot : Fin cfg.maxProcs) :
    (((dispatch cpu slot).apply s).cpu c).current
      = if c = cpu then some slot else (s.cpu c).current := by
  simp only [apply, Scheduler.cpu_set]
  split <;> rfl

theorem current_stop (cpu c : Fin cfg.ncpu) (slot : Fin cfg.maxProcs) (ending : Ending) :
    (((stop cpu slot ending).apply s).cpu c).current
      = if c = cpu then none else (s.cpu c).current := by
  simp only [apply, Scheduler.cpu_set]
  split <;> rfl

/-- Without a switch every CPU goes on with the process that it runs. -/
theorem current_applyAll (h : ∀ effect ∈ effects, effect.isSwitch = false) (cpu : Fin cfg.ncpu) :
    ((applyAll s effects).cpu cpu).current = (s.cpu cpu).current :=
  applyAll_eq (fun t => (t.cpu cpu).current) fun effect hmem _ => current_apply (h effect hmem) cpu

end Effect

end FeedbackQueue
