import FeedbackQueue.Proofs.Kernel.Handover
import FeedbackQueue.Proofs.Scenario.Safety

/-!
# Locks in a run

Between two steps of a run no lock is held and nothing is masked, however CPUs and windows
interleave.  A step leaves the interrupts as they were, unless it begins a round, which turns them
on.  At its suspension a process holds exactly its own lock.
-/

namespace FeedbackQueue

open Kernel Lock

variable {cfg : Config}

/-! ## Actions -/

theorem Action.keeps_perform {action : Action} (hlifecycle : action.isLifecycle = true) :
    Keeps (action.perform : Kernel cfg (Reply cfg.maxProcs)) := by
  have hcreation : ∀ outcome : Except Refusal (Fin cfg.maxProcs), Keeps (creation outcome) := by
    intro outcome
    cases outcome with
    | error refusal => exact .pure _
    | ok slot => exact (keeps_peek slot).bind fun _ => .pure _
  have hlook : ∀ slot, Keeps (look slot : Kernel cfg Record) := fun slot =>
    (keeps_slotAt slot).bind keeps_peek
  cases action with
  | create name priority parent => exact (keeps_create name priority parent).bind hcreation
  | fork name priority parent => exact (keeps_fork name priority parent).bind hcreation
  | activate slot => exact (keeps_activate slot).bind fun _ => .pure _
  | pick cpu => exact (keeps_pickAndDrop cpu).bind fun _ => .pure _
  | setKilled slot => exact (keeps_setKilled slot).bind fun _ => .pure _
  | killed slot => exact (hlook slot).bind fun _ => .pure _
  | state slot => exact (hlook slot).bind fun _ => .pure _
  | quantum slot => exact (hlook slot).bind fun _ => .pure _
  | record slot => exact (hlook slot).bind fun _ => .pure _
  | reap slot =>
    refine (keeps_reap slot).bind fun outcome => ?_
    cases outcome <;> exact .pure _
  | find pid => exact (keeps_find pid).bind fun _ => .pure _
  | current cpu => exact (keeps_current cpu).bind fun _ => .pure _
  | tick cpu count => exact (Keeps.mapM keeps_tick _).bind fun _ => .pure _
  | dump limit => exact keeps_dump.bind fun _ => .pure _
  | listing limit => exact keeps_listing.bind fun _ => .pure _
  | openWindow ticks => exact (keeps_openWindow ticks).bind fun _ => .pure _
  | closeWindow => exact (Keeps.modifyScheduler _).bind fun _ => .pure _
  | windowIsOpen => exact Keeps.get.bind fun _ => .pure _
  | takeConsole => exact Keeps.get.bind fun _ => (Keeps.modifyHardware _).bind fun _ => .pure _
  | «yield» | sleep | exit | suspend | setQuantum | setState | queues | statistics | setTicks =>
    cases hlifecycle

/-! ## Windows -/

theorem keeps_wakeActivity (channel : Nat) (slots : List (Fin cfg.maxProcs)) :
    Keeps (wakeActivity channel slots) := by
  have hupTo : ∀ slots : List (Fin cfg.maxProcs), Keeps (wakeUpTo channel slots) := by
    intro slots
    induction slots with
    | nil => exact .pure none
    | cons slot rest ih =>
      refine (keeps_wakeSleeper channel slot).bind fun found => ?_
      cases found with
      | none => exact ih
      | some pid => exact .pure _
  exact (hupTo slots).bind fun _ => .pure _

theorem keeps_killActivity (pid : Pid) : Keeps (killActivity pid : Kernel cfg _) := by
  refine (keeps_markKilled pid).bind fun outcome => ?_
  obtain refusal | ⟨slot, woken⟩ := outcome
  · exact .pure _
  · dsimp only
    split <;> exact .pure _

theorem keeps_leaveWindow (activity : Activity cfg) : Keeps (leaveWindow activity) := by
  cases activity with
  | turn cpu slot => exact .pure _
  | waking channel slot pid rest =>
    exact (keeps_requeueWoken slot pid).bind fun _ => keeps_wakeActivity channel rest
  | killing slot pid => exact (keeps_requeueWoken slot pid).bind fun _ => .pure _

/-! ## Steps and runs -/

/-- Whether a step begins a round. -/
def Step.isBegin : Step → Bool
  | .begin _ => true
  | _ => false

/-- The moment before the first step on a machine whose interrupts are on or off. -/
def Moment.booted (cfg : Config) (on : Bool) : Moment cfg where
  machine := { Machine.fresh cfg with locks := { interrupts := { enabled := on } } }
  activities := []

namespace Moment

variable {m m' : Moment cfg} {step : Step} {steps : List Step} {e on : Bool}

theorem sound_booted (hv : cfg.IsValid) (on : Bool) : (booted cfg on).Sound where
  scheduler := Scheduler.sound_fresh hv
  free := ⟨on, rfl⟩
  fits := fits_fresh

/-- Only a step that begins a round changes interrupts. -/
theorem keeps_take (hallows : m.Allows step) (hbegin : step.isBegin = false)
    (opened : List (Activity cfg)) : Keeps (take step opened) := by
  cases step with
  | act action => exact (Action.keeps_perform hallows.1).bind fun _ => .pure _
  | begin cpu => cases hbegin
  | finish index ending =>
    rw [take.eq_def]
    dsimp only
    split
    · exact (keeps_endTurnAndRound _ _ ending).bind fun _ => .pure _
    · exact .pure _
  | wakeup channel => exact (keeps_wakeActivity channel _).bind fun _ => .pure _
  | kill pid => exact (keeps_killActivity pid).bind fun _ => .pure _
  | resume index =>
    rw [take.eq_def]
    dsimp only
    split
    · exact (keeps_leaveWindow _).bind fun _ => .pure _
    · exact .pure _

/-- A step leaves no lock held, and it turns interrupts on if it begins a round. -/
theorem next_locks (hallows : m.Allows step) (hlocks : m.machine.locks = .holding e [] [])
    (hnext : m.next step = .ok m') : m'.machine.locks = .holding (e || step.isBegin) [] [] := by
  obtain ⟨opened, t, htake, rfl⟩ : ∃ opened t, take step m.activities m.machine = .ok opened t ∧
      m' = ⟨t, opened⟩ := by
    unfold next at hnext
    split at hnext
    case h_1 opened t htake => exact ⟨opened, t, htake, (Except.ok.inj hnext).symm⟩
    case h_2 => cases hnext
  cases hbegin : step.isBegin with
  | false =>
    rw [Bool.or_false]
    exact keeps_take hallows hbegin m.activities [] [] e m.machine opened t hlocks htake
  | true =>
    rw [Bool.or_true]
    cases step with
    | begin cpu =>
      obtain ⟨picked, t', hturn, hrest⟩ := exists_ok_of_bind htake
      cases hrest
      exact settles_beginTurn cpu e m.machine picked _ hlocks hturn
    | _ => cases hbegin

end Moment

/-- No lock is held at any moment of a run, and interrupts are on once a round has begun. -/
theorem Path.locks_eq {a b : Moment cfg} {steps : List Step} {e : Bool} (h : Path a steps b)
    (hlocks : a.machine.locks = .holding e [] []) :
    b.machine.locks = .holding (e || steps.any Step.isBegin) [] [] := by
  induction h with
  | refl => simpa using hlocks
  | tail _ hallows hnext ih =>
    have h := Moment.next_locks hallows ih hnext
    rwa [List.any_append, ← Bool.or_assoc, List.any_cons, List.any_nil, Bool.or_false]

/-! ## Balance -/

/-- Whoever calls an operation, and whatever locks the caller holds, the operation leaves the locks
as they were.  Interrupts are left as they were, too, unless it is a round, which leaves them on. -/
structure Kernel.Balances (cfg : Config) : Prop where
  action : ∀ action : Action, action.isLifecycle = true →
    Keeps (action.perform : Kernel cfg (Reply cfg.maxProcs))
  endTurn : ∀ cpu ending, Keeps (endTurn cpu ending : Kernel cfg Unit)
  sleep : ∀ cpu channel gs fs, Relocks (sleep cpu channel .condition : Kernel cfg Unit)
    (.condition :: gs) fs (fun _ => .condition :: gs) fun _ => fs
  wakeup : ∀ channel (window : Nat → Kernel cfg Unit), (∀ woken, Keeps (window woken)) →
    Keeps (wakeup cfg channel window : Kernel cfg Nat)
  kill : ∀ pid (window : Kernel cfg Unit), Keeps window →
    Keeps (kill cfg pid window : Kernel cfg (Except Refusal Unit))
  round : ∀ cpu (turn : Fin cfg.maxProcs → Kernel cfg Unit) on,
    (∀ slot, Settles (turn slot) true true) → Settles (dispatchOnce cpu turn) on true

theorem Kernel.balances (cfg : Config) : Balances cfg where
  action _ := Action.keeps_perform
  endTurn := keeps_endTurn
  sleep cpu channel _ _ := relocks_sleep cpu channel
  wakeup channel _ := keeps_wakeup channel
  kill pid _ := keeps_kill pid
  round cpu _ on hturn := settles_dispatchOnce cpu hturn on

/-- Operations are balanced, in every run from a machine on which interrupts were on or off.  At
every moment no lock is held and nothing is masked.  Whatever is done from there on, in whatever
order CPUs and windows interleave, interrupts change only when a round begins.  Each time a process
is suspended by the call that ends its turn, exactly its own lock is held, and interrupts are
off. -/
theorem Path.balances_locks (hv : cfg.IsValid) {on : Bool} {before : List Step} {m : Moment cfg}
    (hrun : Path (.booted cfg on) before m) :
    Balances cfg ∧
    ((∀ lock, m.machine.locks.isHeld lock = false) ∧ m.machine.locks.depth = 0 ∧
      m.machine.locks.interrupts.enabled = (on || before.any Step.isBegin)) ∧
    (∀ steps m', Path m steps m' → m'.machine.locks
      = if steps.any Step.isBegin then m.machine.locks.enable else m.machine.locks) ∧
    ∀ cpu slot ending, .turn cpu slot ∈ m.activities →
      (endTurn cpu ending : Kernel cfg Unit)
        = (do
          let slot ← approach cpu ending
          suspend slot
          afterwards slot ending) ∧
      ∃ t, approach cpu ending m.machine = .ok slot t ∧ t.locks.depth = 1 ∧
        t.locks.interrupts.enabled = false ∧
        ∀ lock, t.locks.isHeld lock = true ↔ lock = .process slot := by
  have hlocks : m.machine.locks = .holding (on || before.any Step.isBegin) [] [] :=
    hrun.locks_eq rfl
  refine ⟨balances cfg, ⟨fun lock => ?_, ?_, ?_⟩, fun steps m' hpath => ?_,
    fun cpu slot ending hturn => ⟨endTurn_eq cpu ending, ?_⟩⟩
  · rw [hlocks]
    rfl
  · rw [hlocks, Bank.depth_holding]
    rfl
  · rw [hlocks, Bank.enabled_holding]
    simp
  · rw [hpath.locks_eq hlocks, hlocks]
    split
    case isTrue hbegin => rw [hbegin, Bool.or_true, Bank.enable_holding_nil]
    case isFalse hbegin => rw [Bool.eq_false_iff.mpr hbegin, Bool.or_false]
  · have hsound : m.Sound := (Moment.sound_booted hv on).path hv hrun
    obtain ⟨hcpu, hcurrent⟩ := (hsound.fits.turn_iff cpu slot).mp hturn
    obtain ⟨t, happroach, hheld⟩ := approach_apply (w := m.machine.hardware)
      (e := on || before.any Step.isBegin) (j := m.machine.journal) hsound.scheduler hcpu hcurrent
      ending
    rw [← hlocks] at happroach
    refine ⟨t, happroach, ?_, ?_, fun lock => ?_⟩
    · rw [hheld, Bank.depth_holding]
      rfl
    · rw [hheld, Bank.enabled_holding]
      simp
    · rw [hheld, Bank.isHeld_holding_iff]
      simp

/-- After a slot was used again in the window of a wakeup, which then left it alone, the process in
it gets a CPU and goes to sleep. -/
theorem reuseInWindow_balances : ∃ m ∈ (Moment.booted .smallest false).walk?
      (reuseInWindow ++ [.resume 0, .act (.activate 0), .begin 0]),
    .turn 0 Config.onlySlot ∈ m.activities ∧ m.machine.locks.depth = 0 ∧
      m.machine.locks.interrupts.enabled = true ∧
      ∃ t, approach 0 (.sleep 7) m.machine = .ok Config.onlySlot t ∧ t.locks.depth = 1 := by
  have hrun : ∃ m ∈ (Moment.booted .smallest false).walk?
        (reuseInWindow ++ [.resume 0, .act (.activate 0), .begin 0]),
      .turn 0 Config.onlySlot ∈ m.activities := by decide +kernel
  obtain ⟨m, hwalk, hturn⟩ := hrun
  obtain ⟨-, ⟨-, hdepth, hon⟩, -, hsuspended⟩ :=
    Path.balances_locks (by decide) (path_of_walk? hwalk)
  obtain ⟨-, t, happroach, hone, -⟩ := hsuspended 0 _ (.sleep 7) hturn
  exact ⟨m, hwalk, hturn, hdepth, hon, t, happroach, hone⟩

end FeedbackQueue
