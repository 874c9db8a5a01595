import FeedbackQueue.Proofs.Kernel.Pick
import FeedbackQueue.Proofs.Kernel.Report
import FeedbackQueue.Scenario.Run

/-!
# What the start of a round does

A CPU that runs nothing can begin a round, unless the table is too large to be scanned.  It picks,
and then it is idle or hands itself to the process that was picked; `Begins` lists the effects.
-/

namespace FeedbackQueue.Kernel

open Lock (Bank)

variable {cfg : Config} {s : Scheduler cfg} {cpu : Nat}

/-- What the start of a round does, and which process then has its turn. -/
inductive Begins (s : Scheduler cfg) (cpu : Fin cfg.ncpu) :
    Option (Fin cfg.maxProcs) → List (Effect cfg) → Prop
  | idle {before : List (Effect cfg)} (picks : Picks s cpu none before) :
    Begins s cpu none (before ++ [.count .idle])
  | dispatch {slot : Fin cfg.maxProcs} {before after : List (Effect cfg)}
    (picks : Picks s cpu (some slot) before)
    (report : after = [] ∨ ∃ window, after = [.setWindow window]) :
    Begins s cpu (some slot) (before ++ [.dispatch cpu slot, .count .pick] ++ after)

/-- A round that begins hands its CPU, which ran nothing, to the process that was picked. -/
theorem Begins.current_eq {cpu : Fin cfg.ncpu} {picked : Option (Fin cfg.maxProcs)}
    {effects : List (Effect cfg)} (h : Begins s cpu picked effects)
    (hidle : (s.cpu cpu).current = none) (c : Fin cfg.ncpu) :
    ((Effect.applyAll s effects).cpu c).current
      = if c = cpu then picked else (s.cpu c).current := by
  have hpicks : ∀ {found before}, Picks s cpu found before →
      ((Effect.applyAll s before).cpu c).current = (s.cpu c).current :=
    fun h => Effect.current_applyAll h.not_isSwitch c
  cases h with
  | idle picks =>
    rw [Effect.applyAll_append]
    refine (hpicks picks).trans ?_
    split
    case isTrue hc => rw [hc, hidle]
    case isFalse => rfl
  | @dispatch slot before after picks report =>
    have hrest : ∀ effect ∈ .count .pick :: after, effect.isSwitch = false := by
      obtain rfl | ⟨window, rfl⟩ := report <;> simp [Effect.isSwitch]
    rw [List.append_assoc, Effect.applyAll_append]
    refine (Effect.current_applyAll hrest c).trans ?_
    rw [Effect.current_dispatch, hpicks picks]

variable {w : Hardware cfg.maxProcs} {e : Bool} {j : Array Event} {slot : Fin cfg.maxProcs}

theorem assign_apply (hcpu : cpu < cfg.ncpu) (hstate : (s.table.record slot).state = .runnable) :
    assign cpu slot ⟨s, w, .holding e [.process slot] [], j⟩
      = .ok () ⟨Effect.applyAll s [.dispatch ⟨cpu, hcpu⟩ slot, .count .pick], w, .holding e [] [],
          j.push (.dispatched cpu (s.table.record slot).pid)⟩ := by
  have hmay : (s.table.record slot).state.mayBecome .running = true := by rw [hstate]; rfl
  rw [assign, bind_of_ok (record_apply ..), if_neg (not_not_intro hstate)]
  refine (bind_of_ok (enter_apply _ slot hmay)).trans ?_
  rw [bind_of_ok (setCurrent_apply hcpu (by simp) List.not_mem_nil _), bind_of_ok (count_apply ..),
    bind_of_ok (note_apply ..), release_apply List.mem_cons_self, List.erase_cons_head]
  rfl

/-- The lock of a process crosses the switch without a guard. -/
theorem switchTo_apply (cpu : Nat) (slot : Fin cfg.maxProcs) :
    switchTo cpu slot ⟨s, w, .holding e [] [], j⟩
      = .ok () ⟨s, { w with switches := w.switches.push (cpu, slot) },
          .holding e [] [.process slot], j⟩ := by
  rw [switchTo, bind_of_ok (acquire_apply List.not_mem_nil List.not_mem_nil),
    bind_of_ok (modifyHardware_apply _ _), modify_apply, Bank.forget_holding List.mem_cons_self,
    List.erase_cons_head]

theorem startTurn_apply (slot : Fin cfg.maxProcs) :
    startTurn slot ⟨s, w, .holding e [] [.process slot], j⟩
      = .ok () ⟨s, w, .holding e [] [], j⟩ := by
  rw [startTurn, modify_apply, Bank.forceRelease_holding List.mem_cons_self, List.erase_cons_head]

theorem beginTurn_ensures (hs : s.Sound) (hv : cfg.IsValid) (hcpu : cpu < cfg.ncpu)
    (hidle : (s.cpu ⟨cpu, hcpu⟩).current = none) :
    EnsuresUnless (ScanFault cfg) (beginTurn cpu) s (Begins s ⟨cpu, hcpu⟩) := by
  intro w e j
  obtain ⟨fault, m, hscan, hfault⟩ | ⟨found, before, j₁, hpicks, hpick⟩ :=
    pick_apply (w := w) (e := true) (j := j) hs hv hcpu
  · refine .inl ⟨fault, m, hscan, bind_of_error ?_⟩
    rw [beginRound, bind_of_ok (modify_apply ..), Bank.enable_holding_nil, bind_of_error hfault]
  right
  let t := Effect.applyAll s before
  cases found with
  | none =>
    let waited := { w with ticks := w.ticks + 1, idleWaits := w.idleWaits + 1 }
    have hround : beginRound cpu ⟨s, w, .holding e [] [], j⟩
        = .ok none ⟨Effect.applyAll t [.count .idle], waited, .holding true [] [], j₁⟩ := by
      rw [beginRound, bind_of_ok (modify_apply ..), Bank.enable_holding_nil, bind_of_ok hpick]
      rfl
    refine ⟨none, _, waited, true, j₁, .idle hpicks,
      Effect.allowedAll_append.mpr ⟨hpicks.allowed, ?_⟩, ?_⟩
    · exact Effect.allowedAll_singleton.mpr (by simp [Effect.Allowed])
    · rw [beginTurn, bind_of_ok hround, Effect.applyAll_append]
      rfl
  | some slot =>
    have hrunnable : (t.table.record slot).state = .runnable := hpicks.runnable slot rfl
    have hnone : (t.cpu ⟨cpu, hcpu⟩).current = none := by
      rw [Effect.current_applyAll hpicks.not_isSwitch, hidle]
    have hallowed : Effect.AllowedAll t [.dispatch ⟨cpu, hcpu⟩ slot, .count .pick] :=
      ⟨⟨hrunnable, hnone, hpicks.active slot rfl⟩, by simp [Effect.Allowed], trivial⟩
    obtain ⟨_, after, w₂, e₂, j₂, hreport, hafter, hreported⟩ :=
      reportDispatch_ensures (s := Effect.applyAll t [.dispatch ⟨cpu, hcpu⟩ slot, .count .pick])
        w true (j₁.push (.dispatched cpu (t.table.record slot).pid))
    let switched := { w₂ with switches := w₂.switches.push (cpu, slot) }
    let u := Effect.applyAll t [.dispatch ⟨cpu, hcpu⟩ slot, .count .pick]
    have hround : beginRound cpu ⟨s, w, .holding e [] [], j⟩
        = .ok (some slot)
            ⟨Effect.applyAll u after, switched, .holding e₂ [] [.process slot], j₂⟩ := by
      rw [beginRound, bind_of_ok (modify_apply ..), Bank.enable_holding_nil, bind_of_ok hpick]
      refine (bind_of_ok (assign_apply hcpu hrunnable)).trans ?_
      rw [bind_of_ok hreported, bind_of_ok (switchTo_apply cpu slot), pure_apply]
    refine ⟨some slot, _, switched, e₂, j₂, .dispatch hpicks hreport, ?_, ?_⟩
    · have hassigned := Effect.allowedAll_append.mpr ⟨hpicks.allowed, hallowed⟩
      refine Effect.allowedAll_append.mpr ⟨hassigned, ?_⟩
      rw [Effect.applyAll_append]
      exact hafter
    · rw [beginTurn, bind_of_ok hround]
      refine (bind_of_ok (startTurn_apply slot)).trans ?_
      rw [Effect.applyAll_append, Effect.applyAll_append]
      rfl

end FeedbackQueue.Kernel
