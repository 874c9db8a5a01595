import FeedbackQueue.Proofs.Kernel.Ledger

/-!
# Lives of processes

A process lives in a slot from its creation to its reaping, and exits in between.  What can be told
of these lives from outside are *life events*, and the events of one slot make up its *chronicle*.

* `LifeEvent`, `Chronicle` — the events, and the order in which they come;
* `Effect.lifeEvents` — the events that effects bring about;
* `Scheduler.Bears` — the record and the link of a slot are those of a life;
* `Effect.bears_applyAll` — so it is wherever effects lead;
* `Effect.kept_applyAll` — a process stays who it is until it is reaped;
* `Effect.exists_created_of_live`, `Effect.exists_created_of_reaped` — and nobody takes its slot
  without a creation.
-/

namespace FeedbackQueue

/-! ## Events -/

/-- Who a process is.  It is given this by its creation and keeps it until it is reaped. -/
structure Identity where
  pid : Pid
  name : String
  parent : Option Pid
  /-- The level that the process was created for. -/
  home : Nat
  deriving DecidableEq

/-- The part of who a process is that its record holds. -/
def Record.names (r : Record) : Pid × String × Option Pid :=
  (r.pid, r.name, r.parent)

/-- An event in the life of a process. -/
inductive LifeEvent (nproc : Nat)
  /-- A process was created in a slot. -/
  | created (slot : Fin nproc) (who : Identity)
  /-- The process in a slot has exited. -/
  | exited (slot : Fin nproc) (status : Int32)
  /-- The process in a slot was reaped, and its pid and status were answered. -/
  | reaped (slot : Fin nproc) (pid : Pid) (status : Int32)
  deriving DecidableEq

/-- The slot of an event. -/
def LifeEvent.slot {nproc : Nat} : LifeEvent nproc → Fin nproc
  | created slot _ | exited slot _ | reaped slot .. => slot

/-- The life of a process so far: who it is, and the status that it has exited with. -/
structure Life where
  who : Identity
  status? : Option Int32
  deriving DecidableEq

/-- The events of a slot come in their order, and lead to the life that the slot holds, if any: in
a free slot a process is created, it exits once, and then it is reaped, which answers the pid that
it was given and the status that it has exited with. -/
inductive Chronicle {nproc : Nat} (slot : Fin nproc) : List (LifeEvent nproc) → Option Life → Prop
  | nil : Chronicle slot [] none
  | elsewhere {events : List (LifeEvent nproc)} {life : Option Life} {event : LifeEvent nproc}
    (before : Chronicle slot events life) (elsewhere : event.slot ≠ slot) :
    Chronicle slot (events ++ [event]) life
  | created {events : List (LifeEvent nproc)} (before : Chronicle slot events none)
    (who : Identity) : Chronicle slot (events ++ [.created slot who]) (some ⟨who, none⟩)
  | exited {events : List (LifeEvent nproc)} {who : Identity}
    (before : Chronicle slot events (some ⟨who, none⟩)) (status : Int32) :
    Chronicle slot (events ++ [.exited slot status]) (some ⟨who, some status⟩)
  | reaped {events : List (LifeEvent nproc)} {who : Identity} {status : Int32}
    (before : Chronicle slot events (some ⟨who, some status⟩)) :
    Chronicle slot (events ++ [.reaped slot who.pid status]) none

/-- The creation of the process that a slot holds has been told of. -/
theorem Chronicle.created_mem {nproc : Nat} {slot : Fin nproc} {events : List (LifeEvent nproc)}
    {life : Option Life} (h : Chronicle slot events life) :
    ∀ l ∈ life, .created slot l.who ∈ events := by
  induction h with
  | nil => simp
  | elsewhere _ _ ih => exact fun l hl => List.mem_append_left _ (ih l hl)
  | created _ who => simp
  | @exited events who _ status ih =>
    intro l hl
    cases hl
    exact List.mem_append_left _ (ih ⟨who, none⟩ rfl)
  | reaped => simp

variable {cfg : Config} {s : Scheduler cfg} {slot : Fin cfg.maxProcs}

namespace Scheduler

/-- Who the process in a slot is. -/
def identity (s : Scheduler cfg) (slot : Fin cfg.maxProcs) : Identity where
  pid := (s.table.record slot).pid
  name := (s.table.record slot).name
  parent := (s.table.record slot).parent
  home := (s.queues.link slot).home

/-- Record and link of a slot are those of a life, or the slot is free. -/
def Bears (s : Scheduler cfg) (slot : Fin cfg.maxProcs) : Option Life → Prop
  | none => (s.table.record slot).state = .unused
  | some life => (s.table.record slot).state ≠ .unused ∧ s.identity slot = life.who ∧
    life.status? = if (s.table.record slot).state = .zombie then
      some (s.table.record slot).exitStatus else none

/-- A slot that is taken by a process that has not exited. -/
theorem Bears.exists_of_ne_zombie {life : Option Life} (h : s.Bears slot life)
    (hlive : (s.table.record slot).state ≠ .unused)
    (hzombie : (s.table.record slot).state ≠ .zombie) :
    ∃ who, life = some ⟨who, none⟩ ∧ s.identity slot = who := by
  cases life with
  | none => exact absurd h hlive
  | some life =>
    obtain ⟨who, status?⟩ := life
    obtain ⟨-, hwho, hstatus⟩ := h
    rw [if_neg hzombie] at hstatus
    exact ⟨who, by rw [← hstatus], hwho⟩

/-- A slot that holds a process that has exited. -/
theorem Bears.exists_of_zombie {life : Option Life} (h : s.Bears slot life)
    (hzombie : (s.table.record slot).state = .zombie) :
    ∃ who, life = some ⟨who, some (s.table.record slot).exitStatus⟩ ∧ s.identity slot = who := by
  cases life with
  | none => exact absurd (hzombie.symm.trans h) (by decide)
  | some life =>
    obtain ⟨who, status?⟩ := life
    obtain ⟨-, hwho, hstatus⟩ := h
    rw [if_pos hzombie] at hstatus
    exact ⟨who, by rw [← hstatus], hwho⟩

end Scheduler

namespace Effect

variable {effect : Effect cfg} {effects : List (Effect cfg)}

/-- The event that a change of a scheduler brings about. -/
def lifeEvent? (s : Scheduler cfg) : Effect cfg → Option (LifeEvent cfg.maxProcs)
  | create slot name parent home => some (.created slot ⟨s.table.nextPid, name, parent, home⟩)
  | stop _ slot (.exit status) => some (.exited slot status)
  | reap slot => some (.reaped slot (s.table.record slot).pid (s.table.record slot).exitStatus)
  | _ => none

/-- A creation alone brings about the event of one. -/
theorem eq_create_of_lifeEvent? {who : Identity}
    (h : effect.lifeEvent? s = some (.created slot who)) :
    effect = .create slot who.name who.parent who.home ∧ who.pid = s.table.nextPid := by
  cases effect with
  | create y name parent home =>
    cases h
    exact ⟨rfl, rfl⟩
  | stop cpu y ending => cases ending <;> cases h
  | _ => cases h

/-- A reaping alone brings about the event of one. -/
theorem eq_reap_of_lifeEvent? {pid : Pid} {status : Int32}
    (h : effect.lifeEvent? s = some (.reaped slot pid status)) : effect = .reap slot := by
  cases effect with
  | reap y =>
    cases h
    rfl
  | stop cpu y ending => cases ending <;> cases h
  | _ => cases h

/-- The events that changes one after another bring about. -/
def lifeEvents (s : Scheduler cfg) : List (Effect cfg) → List (LifeEvent cfg.maxProcs)
  | [] => []
  | effect :: rest => (effect.lifeEvent? s).toList ++ lifeEvents (effect.apply s) rest

theorem lifeEvents_append (first second : List (Effect cfg)) :
    lifeEvents s (first ++ second)
      = lifeEvents s first ++ lifeEvents (applyAll s first) second := by
  induction first generalizing s with
  | nil => rfl
  | cons effect rest ih => simp only [List.cons_append, lifeEvents, ih, List.append_assoc]; rfl

/-- Whether a change brings about an event. -/
def isVital : Effect cfg → Bool
  | create .. | reap _ | stop _ _ (.exit _) => true
  | _ => false

theorem lifeEvent?_of_not_isVital (h : effect.isVital = false) : effect.lifeEvent? s = none := by
  cases effect with
  | create | reap => cases h
  | stop cpu y ending =>
    cases ending with
    | exit => cases h
    | _ => rfl
  | _ => rfl

theorem lifeEvents_of_not_isVital (h : ∀ effect ∈ effects, effect.isVital = false) :
    lifeEvents s effects = [] := by
  induction effects generalizing s with
  | nil => rfl
  | cons effect rest ih =>
    obtain ⟨hfirst, hrest⟩ := List.forall_mem_cons.mp h
    rw [lifeEvents, lifeEvent?_of_not_isVital hfirst, ih hrest]
    rfl

/-- Every event is brought about by one of the changes, between the events before it and those after
it. -/
theorem exists_of_lifeEvents {event : LifeEvent cfg.maxProcs}
    {earlier later : List (LifeEvent cfg.maxProcs)}
    (h : lifeEvents s effects = earlier ++ event :: later) :
    ∃ before effect after, effects = before ++ effect :: after ∧ lifeEvents s before = earlier ∧
      effect.lifeEvent? (applyAll s before) = some event ∧
      lifeEvents (effect.apply (applyAll s before)) after = later := by
  induction effects generalizing s earlier with
  | nil => simp [lifeEvents] at h
  | cons effect rest ih =>
    rw [lifeEvents] at h
    cases hevent : effect.lifeEvent? s with
    | none =>
      rw [hevent, Option.toList_none, List.nil_append] at h
      obtain ⟨before, other, after, rfl, rfl, hother, hafter⟩ := ih h
      exact ⟨effect :: before, other, after, rfl, by simp [lifeEvents, hevent], hother, hafter⟩
    | some first =>
      rw [hevent, Option.toList_some, List.singleton_append] at h
      cases earlier with
      | nil =>
        obtain ⟨rfl, rfl⟩ := List.cons.inj h
        exact ⟨[], effect, rest, rfl, rfl, hevent, rfl⟩
      | cons other earlier =>
        obtain ⟨rfl, hrest⟩ := List.cons.inj h
        obtain ⟨before, other, after, rfl, rfl, hother, hafter⟩ := ih hrest
        exact ⟨effect :: before, other, after, rfl, by simp [lifeEvents, hevent], hother, hafter⟩

/-! ## Who a process is -/

/-- Whether a change puts another process into a slot, or none. -/
def replaces (slot : Fin cfg.maxProcs) : Effect cfg → Bool
  | create y .. | reap y => y = slot
  | _ => false

/-- The names of a process are given to its record by a creation alone. -/
theorem names_apply (h : effect.replaces slot = false) :
    ((effect.apply s).table.record slot).names = (s.table.record slot).names := by
  have hedit : ∀ (y : Fin cfg.maxProcs) {f : Record → Record}, (∀ r, (f r).names = r.names) →
      ((s.table.adjust y f).record slot).names = (s.table.record slot).names :=
    fun y f hf => s.table.field_adjust y slot Record.names hf
  cases effect with
  | create y name parent home =>
    have hy : slot ≠ y := fun heq => by simp [replaces, heq] at h
    simp only [apply, Table.record_adjust, Table.record_claim, if_neg hy]
  | reap y =>
    have hy : slot ≠ y := fun heq => by simp [replaces, heq] at h
    simp only [apply, Table.record_adjust, if_neg hy]
  | stop cpu y ending => exact hedit y fun _ => by cases ending <;> rfl
  | activate y | mark y | charge y | refill y | wake y | dispatch _ y => exact hedit y fun _ => rfl
  | _ => rfl

/-- The home level of a process is given to its link by a creation alone. -/
theorem home_apply (h : effect.replaces slot = false) :
    ((effect.apply s).queues.link slot).home = (s.queues.link slot).home := by
  cases effect with
  | create y name parent home =>
    have hy : slot ≠ y := fun heq => by simp [replaces, heq] at h
    simp only [apply, Queues.link_adjustLink, if_neg hy]
  | activate y =>
    simp only [apply]
    split
    · exact Queues.home_relink ..
    · rfl
  | stop cpu y ending =>
    cases ending with
    | exit status =>
      simp only [apply]
      split
      · exact Queues.home_remove ..
      · rfl
    | _ => rfl
  | swap isLive => exact Queues.home_swap ..
  | cascade source target set skip => exact Queues.home_relinkAll ..
  | requeue y level set => exact Queues.home_relink ..
  | rejoin y pid => exact Queues.home_relink ..
  | setTicks level set value => exact congrArg Link.home (Queues.link_adjustLane ..)
  | _ => rfl

theorem identity_apply (h : effect.replaces slot = false) :
    (effect.apply s).identity slot = s.identity slot := by
  obtain ⟨hpid, hnames⟩ := Prod.mk.inj (names_apply (s := s) h)
  obtain ⟨hname, hparent⟩ := Prod.mk.inj hnames
  simp only [Scheduler.identity, hpid, hname, hparent, home_apply h]

/-- The flag of a process that was asked to end is never taken back. -/
theorem killed_apply (h : effect.replaces slot = false)
    (hkilled : (s.table.record slot).killed = true) :
    ((effect.apply s).table.record slot).killed = true := by
  have hedit : ∀ (y : Fin cfg.maxProcs) {f : Record → Record}, (∀ r, (f r).killed = r.killed) →
      ((s.table.adjust y f).record slot).killed = true := fun y f hf =>
    (s.table.field_adjust y slot Record.killed hf).trans hkilled
  cases effect with
  | create y name parent home =>
    have hy : slot ≠ y := fun heq => by simp [replaces, heq] at h
    simpa only [apply, Table.record_adjust, Table.record_claim, if_neg hy] using hkilled
  | reap y =>
    have hy : slot ≠ y := fun heq => by simp [replaces, heq] at h
    simpa only [apply, Table.record_adjust, if_neg hy] using hkilled
  | mark y =>
    simp only [apply, Table.record_adjust]
    split
    · rfl
    · exact hkilled
  | stop cpu y ending => exact hedit y fun _ => by cases ending <;> rfl
  | activate y | charge y | refill y | wake y | dispatch cpu y => exact hedit y fun _ => rfl
  | _ => exact hkilled

/-! ## Which life a slot holds -/

/-- The state of a process when an event is about to happen to it. -/
theorem state_of_lifeEvent (hs : s.Sound) (ha : effect.Allowed s)
    {event : LifeEvent cfg.maxProcs} (hevent : event ∈ effect.lifeEvent? s) :
    (s.table.record event.slot).state = match event with
      | .created .. => .unused
      | .exited .. => .running
      | .reaped .. => .zombie := by
  cases effect with
  | create y name parent home =>
    cases hevent
    exact ha.1
  | stop cpu y ending =>
    cases ending with
    | exit status =>
      cases hevent
      exact (hs.running y).mpr ⟨cpu, ha⟩
    | _ => cases hevent
  | reap y =>
    cases hevent
    exact ha
  | _ => cases hevent

/-- A status is given by an exit alone. -/
theorem exitStatus_apply (hquiet : ∀ event ∈ effect.lifeEvent? s, event.slot ≠ slot) :
    ((effect.apply s).table.record slot).exitStatus = (s.table.record slot).exitStatus := by
  have hedit : ∀ (y : Fin cfg.maxProcs) {f : Record → Record},
      (∀ r, (f r).exitStatus = r.exitStatus) →
      ((s.table.adjust y f).record slot).exitStatus = (s.table.record slot).exitStatus :=
    fun y f hf => s.table.field_adjust y slot Record.exitStatus hf
  cases effect with
  | create y name parent home =>
    have hy : slot ≠ y := (hquiet _ rfl).symm
    simp only [apply, Table.record_adjust, Table.record_claim, if_neg hy]
  | reap y =>
    have hy : slot ≠ y := (hquiet _ rfl).symm
    simp only [apply, Table.record_adjust, if_neg hy]
  | stop cpu y ending =>
    cases ending with
    | exit status =>
      have hy : slot ≠ y := (hquiet _ rfl).symm
      simp only [apply, Table.record_adjust, if_neg hy]
    | _ => exact hedit y fun _ => rfl
  | activate y | mark y | charge y | refill y | wake y | dispatch _ y => exact hedit y fun _ => rfl
  | _ => rfl

/-- Without an event a slot that is taken stays so, and a process that has not exited has not. -/
theorem state_apply_of_quiet (hs : s.Sound) (ha : effect.Allowed s)
    (hquiet : ∀ event ∈ effect.lifeEvent? s, event.slot ≠ slot) {state : ProcState}
    (hstate : state = .unused ∨ state = .zombie) :
    ((effect.apply s).table.record slot).state = state ↔ (s.table.record slot).state = state := by
  cases htransition : effect.transition? with
  | none => rw [state_apply_of_none htransition]
  | some change =>
    obtain ⟨y, transition⟩ := change
    obtain ⟨hbefore, hafter⟩ := state_apply_of_transition hs ha htransition
    rw [hafter slot]
    by_cases hy : slot = y
    · subst hy
      rw [if_pos rfl, hbefore]
      cases effect with
      | create y name parent home =>
        cases htransition
        exact absurd rfl (hquiet _ rfl)
      | reap y =>
        cases htransition
        exact absurd rfl (hquiet _ rfl)
      | stop cpu y ending =>
        cases ending with
        | exit status =>
          cases htransition
          exact absurd rfl (hquiet _ rfl)
        | _ =>
          cases htransition
          obtain rfl | rfl := hstate <;> simp [Transition.before, Transition.after]
      | activate | wake | dispatch =>
        cases htransition
        obtain rfl | rfl := hstate <;> simp [Transition.before, Transition.after]
      | _ => cases htransition
    · rw [if_neg hy]

theorem replaces_of_quiet (hquiet : ∀ event ∈ effect.lifeEvent? s, event.slot ≠ slot) :
    effect.replaces slot = false := by
  cases effect with
  | create y name parent home => exact decide_eq_false (hquiet _ rfl)
  | reap y => exact decide_eq_false (hquiet _ rfl)
  | _ => rfl

/-- Without an event a slot goes on to hold the life that it holds. -/
theorem bears_apply_of_quiet (hs : s.Sound) (ha : effect.Allowed s)
    (hquiet : ∀ event ∈ effect.lifeEvent? s, event.slot ≠ slot) {life : Option Life}
    (h : s.Bears slot life) : (effect.apply s).Bears slot life := by
  have hunused := state_apply_of_quiet hs ha hquiet (.inl rfl)
  cases life with
  | none => exact hunused.mpr h
  | some life =>
    obtain ⟨hlive, hwho, hstatus⟩ := h
    refine ⟨mt hunused.mp hlive, (identity_apply (replaces_of_quiet hquiet)).trans hwho, ?_⟩
    rw [hstatus, exitStatus_apply hquiet]
    simp only [state_apply_of_quiet hs ha hquiet (.inr rfl)]

/-- A change adds its event to the chronicle of every slot. -/
theorem chronicle_apply (hs : s.Sound) (ha : effect.Allowed s)
    {events : List (LifeEvent cfg.maxProcs)} {life : Option Life} (hc : Chronicle slot events life)
    (h : s.Bears slot life) :
    ∃ life', Chronicle slot (events ++ (effect.lifeEvent? s).toList) life' ∧
      (effect.apply s).Bears slot life' := by
  by_cases hquiet : ∀ event ∈ effect.lifeEvent? s, event.slot ≠ slot
  · refine ⟨life, ?_, bears_apply_of_quiet hs ha hquiet h⟩
    cases hevent : effect.lifeEvent? s with
    | none => simpa using hc
    | some event => exact hc.elsewhere (hquiet event hevent)
  · push Not at hquiet
    obtain ⟨event, hevent, rfl⟩ := hquiet
    have hbefore := state_of_lifeEvent hs ha hevent
    rw [Option.mem_def.mp hevent, Option.toList_some]
    cases effect with
    | create y name parent home =>
      cases hevent
      obtain rfl : life = none := by
        cases life with
        | none => rfl
        | some life => exact absurd hbefore h.1
      refine ⟨_, hc.created _, ?_⟩
      simp [Scheduler.Bears, Scheduler.identity, apply, LifeEvent.slot, Queues.link_adjustLink,
        Link.detached]
    | stop cpu y ending =>
      cases ending with
      | exit status =>
        cases hevent
        obtain ⟨who, rfl, hwho⟩ := h.exists_of_ne_zombie (by simp [hbefore]) (by simp [hbefore])
        refine ⟨_, hc.exited status, ?_, ?_, ?_⟩
        · simp [apply, Ending.record, LifeEvent.slot]
        · exact (identity_apply rfl).trans hwho
        · simp [apply, Ending.record, LifeEvent.slot]
      | _ => cases hevent
    | reap y =>
      cases hevent
      obtain ⟨who, rfl, rfl⟩ := h.exists_of_zombie hbefore
      exact ⟨none, hc.reaped, by simp [Scheduler.Bears, apply, LifeEvent.slot, Record.vacant]⟩
    | _ => cases hevent

/-- Effects add their events to the chronicle of every slot. -/
theorem chronicle_applyAll (hs : s.Sound) (ha : AllowedAll s effects)
    {events : List (LifeEvent cfg.maxProcs)} {life : Option Life} (hc : Chronicle slot events life)
    (h : s.Bears slot life) :
    ∃ life', Chronicle slot (events ++ lifeEvents s effects) life' ∧
      (applyAll s effects).Bears slot life' := by
  induction effects generalizing s events life with
  | nil => exact ⟨life, by simpa [lifeEvents] using hc, h⟩
  | cons effect rest ih =>
    obtain ⟨life₁, hc₁, h₁⟩ := chronicle_apply hs ha.1 hc h
    obtain ⟨life₂, hc₂, h₂⟩ := ih (hs.apply ha.1) ha.2 hc₁ h₁
    exact ⟨life₂, by rwa [lifeEvents, ← List.append_assoc], h₂⟩

/-! ## From creation to reaping -/

/-- A change that puts nobody else into a slot leaves a process in it. -/
theorem live_apply (hs : s.Sound) (ha : effect.Allowed s) (h : effect.replaces slot = false)
    (hlive : (s.table.record slot).state ≠ .unused) :
    ((effect.apply s).table.record slot).state ≠ .unused := by
  cases htransition : effect.transition? with
  | none => rwa [state_apply_of_none htransition]
  | some change =>
    obtain ⟨y, transition⟩ := change
    rw [(state_apply_of_transition hs ha htransition).2 slot]
    split
    case isTrue hy =>
      cases effect with
      | reap y =>
        cases htransition
        simp [replaces, hy] at h
      | stop cpu y ending => cases ending <;> cases htransition <;> simp [Transition.after]
      | create | activate | wake | dispatch =>
        cases htransition
        simp [Transition.after]
      | _ => cases htransition
    case isFalse => exact hlive

/-- Until it is reaped a process stays who it is, and it is not forgotten that it was asked to
end. -/
theorem kept_applyAll (hs : s.Sound) (ha : AllowedAll s effects)
    (hlive : (s.table.record slot).state ≠ .unused)
    (hnot : ∀ pid status, .reaped slot pid status ∉ lifeEvents s effects) :
    let t := applyAll s effects
    (t.table.record slot).state ≠ .unused ∧ t.identity slot = s.identity slot ∧
      ((s.table.record slot).killed = true → (t.table.record slot).killed = true) := by
  induction effects generalizing s with
  | nil => exact ⟨hlive, rfl, id⟩
  | cons effect rest ih =>
    have hreplaces : effect.replaces slot = false := by
      cases effect with
      | create y name parent home => exact decide_eq_false fun hy => hlive (hy ▸ ha.1.1)
      | reap y =>
        refine decide_eq_false fun hy => ?_
        subst hy
        exact hnot _ _ List.mem_cons_self
      | _ => rfl
    obtain ⟨hlive', hwho, hkilled⟩ := ih (hs.apply ha.1) ha.2
      (live_apply hs ha.1 hreplaces hlive)
      fun pid status hmem => hnot pid status (List.mem_append_right _ hmem)
    exact ⟨hlive', hwho.trans (identity_apply hreplaces),
      fun h => hkilled (killed_apply hreplaces h)⟩

/-- A process in a slot that was free has been created in between. -/
theorem exists_created_of_live (hs : s.Sound) (ha : AllowedAll s effects)
    (hfree : (s.table.record slot).state = .unused)
    (hlive : ((applyAll s effects).table.record slot).state ≠ .unused) :
    ∃ who, .created slot who ∈ lifeEvents s effects := by
  induction effects generalizing s with
  | nil => exact absurd hfree hlive
  | cons effect rest ih =>
    by_cases hquiet : ∀ event ∈ effect.lifeEvent? s, event.slot ≠ slot
    · have hfree' := (state_apply_of_quiet hs ha.1 hquiet (.inl rfl)).mpr hfree
      obtain ⟨who, hmem⟩ := ih (hs.apply ha.1) ha.2 hfree' hlive
      exact ⟨who, List.mem_append_right _ hmem⟩
    · push Not at hquiet
      obtain ⟨event, hevent, rfl⟩ := hquiet
      have hbefore := state_of_lifeEvent hs ha.1 hevent
      -- a free slot sees no event but a creation
      cases event with
      | created y who => exact ⟨who, List.mem_append_left _ (Option.mem_toList.mpr hevent)⟩
      | exited y status => cases hfree.symm.trans hbefore
      | reaped y pid status => cases hfree.symm.trans hbefore

/-- A creation that has been told of has put its process into the slot. -/
theorem identity_of_created {who : Identity} (h : effect.lifeEvent? s = some (.created slot who)) :
    ((effect.apply s).table.record slot).state ≠ .unused ∧
      (effect.apply s).identity slot = who := by
  obtain ⟨rfl, hpid⟩ := eq_create_of_lifeEvent? h
  simp [Scheduler.identity, apply, Queues.link_adjustLink, Link.detached, ← hpid]

/-- A process in a slot in which another one was reaped has been created in between. -/
theorem exists_created_of_reaped (hs : s.Sound) (ha : AllowedAll s effects) {pid : Pid}
    {status : Int32} (hreaped : .reaped slot pid status ∈ lifeEvents s effects)
    (hlive : ((applyAll s effects).table.record slot).state ≠ .unused) :
    ∃ who, .created slot who ∈ lifeEvents s effects := by
  obtain ⟨earlier, later, hevents⟩ := List.append_of_mem hreaped
  obtain ⟨before, effect, after, rfl, -, hevent, hlater⟩ := exists_of_lifeEvents hevents
  obtain ⟨hbefore, heffect, hafter⟩ := allowedAll_append.mp ha
  obtain rfl := eq_reap_of_lifeEvent? hevent
  have hs' := (hs.applyAll hbefore).apply heffect
  rw [applyAll_append] at hlive
  obtain ⟨who, hmem⟩ := exists_created_of_live hs' hafter (by simp [apply, Record.vacant]) hlive
  refine ⟨who, ?_⟩
  rw [hevents, ← hlater]
  exact List.mem_append_right _ (List.mem_cons_of_mem _ hmem)

end Effect

end FeedbackQueue
