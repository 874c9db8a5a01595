import FeedbackQueue.Proofs.Kernel.Timer

/-!
# Ticks in a row

Any number of ticks of a CPU that runs a process take the budget of the process down by as many, as
far as the least value.  Under feedback they also take down the ticks of the queue that the process
is in, and there the least value is the end: one tick more is a fault.

* `Scheduler.charged` — the scheduler when some ticks have been charged to a process;
* `Kernel.ticks_apply` — ticks in a row do this, as long as the queue affords them;
* `Kernel.ticks_fault` — and when it does not, they fault.
-/

namespace FeedbackQueue

variable {cfg : Config}

/-! ## Counting down -/

/-- Ticks counted down, as far as the least value. -/
def countDown (ticks : Int32) (count : Nat) : Int32 :=
  Int32.ofInt (max Int32.minValue.toInt (ticks.toInt - count))

theorem toInt_countDown (ticks : Int32) (count : Nat) :
    (countDown ticks count).toInt = max Int32.minValue.toInt (ticks.toInt - count) := by
  have hmin : Int32.minValue.toInt = -2 ^ 31 := rfl
  have hhi := Int32.toInt_lt ticks
  exact Int32.toInt_ofInt_of_le (by omega) (by omega)

theorem minValue_toInt_le (ticks : Int32) : Int32.minValue.toInt ≤ ticks.toInt :=
  Int32.le_toInt ticks

@[simp] theorem countDown_zero (ticks : Int32) : countDown ticks 0 = ticks := by
  have hle := minValue_toInt_le ticks
  apply Int32.toInt_inj.mp
  rw [toInt_countDown]
  omega

theorem countDown_countDown (ticks : Int32) (first second : Nat) :
    countDown (countDown ticks first) second = countDown ticks (first + second) := by
  apply Int32.toInt_inj.mp
  rw [toInt_countDown, toInt_countDown, toInt_countDown]
  omega

theorem countDown_one {ticks : Int32} (h : ticks ≠ Int32.minValue) :
    countDown ticks 1 = ticks - 1 := by
  have hle := minValue_toInt_le ticks
  have hne : ticks.toInt ≠ Int32.minValue.toInt := fun hmin => h (Int32.toInt_inj.mp hmin)
  apply Int32.toInt_inj.mp
  rw [toInt_countDown, toInt_sub_one h]
  omega

/-- A budget is counted down. -/
theorem Record.charge_eq (r : Record) :
    r.charge = { r with quantum := countDown r.quantum 1 } := by
  unfold charge
  split
  case isTrue hmin =>
    rw [hmin]
    rfl
  case isFalse h => rw [countDown_one h]

/-! ## Ticks that have been charged -/

namespace Scheduler

variable (s : Scheduler cfg) (slot : Fin cfg.maxProcs)

/-- The queue that the ticks of a process are charged to.  Only feedback charges queues. -/
def chargedQueue? : Option (Nat × QueueSet) :=
  if cfg.effectivePolicy = .feedback then s.queues.location slot else none

/-- The scheduler when some ticks have been charged to a process.  Its budget and the ticks of its
queue have been counted down, and nothing else has changed. -/
def charged (count : Nat) : Scheduler cfg :=
  { s with
    table := s.table.adjust slot fun r => { r with quantum := countDown r.quantum count }
    queues := (s.chargedQueue? slot).elim s.queues fun (level, set) =>
      s.queues.adjustLane level set fun lane =>
        { lane with quantum := countDown lane.quantum count } }

@[simp] theorem charged_zero : s.charged slot 0 = s := by
  unfold charged
  cases s.chargedQueue? slot <;> simp [Table.adjust_id, Queues.adjustLane_id]

theorem budget_charged (count : Nat) : ((s.charged slot count).table.record slot).quantum
    = countDown (s.table.record slot).quantum count := by
  simp [charged]

theorem location_charged (count : Nat) (y : Fin cfg.maxProcs) :
    (s.charged slot count).queues.location y = s.queues.location y := by
  unfold charged Queues.location
  cases s.chargedQueue? slot <;> simp

theorem chargedQueue?_charged (count : Nat) :
    (s.charged slot count).chargedQueue? slot = s.chargedQueue? slot := by
  rw [chargedQueue?, location_charged, chargedQueue?]

theorem charged_charged (first second : Nat) :
    (s.charged slot first).charged slot second = s.charged slot (first + second) := by
  have hqueue := s.chargedQueue?_charged slot first
  rw [charged, hqueue]
  unfold charged
  cases s.chargedQueue? slot <;>
    simp [Table.adjust_adjust, Queues.adjustLane_adjustLane, countDown_countDown]

variable {s slot}

/-- The queue that the ticks of a CPU are charged to, if there is one, has got so many left. -/
def Affords (s : Scheduler cfg) (cpu : Fin cfg.ncpu) (count : Nat) : Prop :=
  ∀ ticks ∈ s.chargedTicks? cpu, Int32.minValue.toInt + count ≤ ticks.toInt

theorem affords_zero (cpu : Fin cfg.ncpu) : s.Affords cpu 0 := by
  intro ticks _
  have hle := minValue_toInt_le ticks
  omega

theorem chargedTicks?_eq {cpu : Fin cfg.ncpu} (hcurrent : (s.cpu cpu).current = some slot) :
    s.chargedTicks? cpu = (s.chargedQueue? slot).bind fun (level, set) =>
      (s.queues.lane? level set).map Lane.quantum := by
  unfold chargedTicks? chargedQueue?
  rw [hcurrent]
  split <;> rfl

theorem chargedTicks?_charged {cpu : Fin cfg.ncpu} (hcurrent : (s.cpu cpu).current = some slot)
    (count : Nat) : (s.charged slot count).chargedTicks? cpu
      = (s.chargedTicks? cpu).map (countDown · count) := by
  rw [chargedTicks?_eq hcurrent, chargedTicks?_eq (s := s.charged slot count) hcurrent,
    chargedQueue?_charged]
  unfold charged
  cases s.chargedQueue? slot with
  | none => rfl
  | some place =>
    simp only [Option.elim, Option.bind_some, Queues.lane?_adjustLane, and_self, if_true,
      Option.map_map]
    rfl

/-- A queue affords one tick and some more if it has got one left, and affords the others after
it. -/
theorem affords_succ {cpu : Fin cfg.ncpu} (hcurrent : (s.cpu cpu).current = some slot)
    {count : Nat} : s.Affords cpu (count + 1) ↔
      s.chargedTicks? cpu ≠ some Int32.minValue ∧ (s.charged slot 1).Affords cpu count := by
  unfold Affords
  rw [chargedTicks?_charged hcurrent]
  cases s.chargedTicks? cpu with
  | none => simp
  | some ticks =>
    have hle := minValue_toInt_le ticks
    have hne : ticks = Int32.minValue ↔ ticks.toInt = Int32.minValue.toInt := Int32.toInt_inj.symm
    simp only [Option.mem_def, Option.some.injEq, forall_eq', Option.map_some, ne_eq, hne,
      toInt_countDown]
    omega

theorem affords_one {cpu : Fin cfg.ncpu} (hcurrent : (s.cpu cpu).current = some slot) :
    s.Affords cpu 1 ↔ s.chargedTicks? cpu ≠ some Int32.minValue :=
  (affords_succ hcurrent).trans (and_iff_left (affords_zero cpu))

end Scheduler

namespace Kernel

variable {s : Scheduler cfg} {cpu : Fin cfg.ncpu} {slot : Fin cfg.maxProcs}

/-! ## A single tick -/

theorem Charges.applyAll_eq {answer : Bool} {effects : List (Effect cfg)}
    (h : Charges s cpu answer effects) (hcurrent : (s.cpu cpu).current = some slot) :
    Effect.applyAll s effects = s.charged slot 1 := by
  have hunqueued : cfg.effectivePolicy ≠ .feedback →
      Effect.applyAll s [.charge slot] = s.charged slot 1 := by
    intro hp
    simp [Effect.applyAll, Effect.apply, Scheduler.charged, Scheduler.chargedQueue?, hp,
      funext Record.charge_eq]
  cases h with
  | idle current => cases current.symm.trans hcurrent
  | scan policy current =>
    cases current.symm.trans hcurrent
    exact hunqueued (by simp [policy])
  | roundRobin policy current =>
    cases current.symm.trans hcurrent
    exact hunqueued (by simp [policy])
  | @feedback slot' level set lane policy current place ticks left =>
    cases current.symm.trans hcurrent
    have hlane : s.queues.adjustLane level set (fun lane' =>
            { lane' with quantum := lane.quantum - 1 })
        = s.queues.adjustLane level set fun lane' =>
            { lane' with quantum := countDown lane'.quantum 1 } := by
      refine Queues.adjustLane_congr ?_
      rw [ticks, Option.map_some, Option.map_some, countDown_one left]
    simp [Effect.applyAll, Effect.apply, Scheduler.charged, Scheduler.chargedQueue?, policy,
      place, hlane, funext Record.charge_eq]

/-- What is charged had a tick left. -/
theorem Charges.chargedTicks?_ne {answer : Bool} {effects : List (Effect cfg)}
    (h : Charges s cpu answer effects) : s.chargedTicks? cpu ≠ some Int32.minValue := by
  unfold Scheduler.chargedTicks?
  cases h with
  | idle current => simp [current]
  | scan policy current => simp [policy]
  | roundRobin policy current => simp [policy]
  | feedback policy current place ticks left => simp [policy, current, place, ticks, left]

variable (w : Hardware cfg.maxProcs) (e : Bool) (j : Array Event)

/-- A tick of a CPU that runs nothing changes nothing. -/
theorem chargeTick_idle (hidle : (s.cpu cpu).current = none) :
    chargeTick cpu ⟨s, w, .holding e [] [], j⟩ = .ok false ⟨s, w, .holding e [] [], j⟩ := by
  rw [chargeTick, bind_of_ok (current_apply cpu.isLt List.not_mem_nil List.not_mem_nil)]
  rw [hidle]
  rfl

/-- A tick of a CPU that runs a process is charged, as long as the queue affords it. -/
theorem chargeTick_charged (hs : s.Sound) (hcurrent : (s.cpu cpu).current = some slot)
    (haffords : s.Affords cpu 1) :
    (s.charged slot 1).Sound ∧ ∃ answer, chargeTick cpu ⟨s, w, .holding e [] [], j⟩
      = .ok answer ⟨s.charged slot 1, w, .holding e [] [], j⟩ := by
  obtain ⟨hmin, -⟩ | ⟨answer, effects, hcharges, hallowed, hok⟩ :=
    chargeTick_apply hs cpu.isLt w e j
  · exact absurd hmin ((Scheduler.affords_one hcurrent).mp haffords)
  · rw [← hcharges.applyAll_eq hcurrent]
    exact ⟨hs.applyAll hallowed, answer, hok⟩

/-- A tick that the queue does not afford is a fault. -/
theorem chargeTick_fault (hs : s.Sound) (hcurrent : (s.cpu cpu).current = some slot)
    (hspent : ¬s.Affords cpu 1) :
    ∃ m, chargeTick cpu ⟨s, w, .holding e [] [], j⟩ = .error (.overflow .subtract) m := by
  obtain ⟨-, hfault⟩ | ⟨answer, effects, hcharges, -, -⟩ := chargeTick_apply hs cpu.isLt w e j
  · exact hfault
  · exact absurd ((Scheduler.affords_one hcurrent).mpr hcharges.chargedTicks?_ne) hspent

/-! ## Ticks in a row -/

/-- Ticks in a row are charged, as long as the queue affords them. -/
theorem ticks_apply (hs : s.Sound) (hcurrent : (s.cpu cpu).current = some slot) (count : Nat)
    (haffords : s.Affords cpu count) :
    ∃ answers, (List.replicate count cpu.val).mapM tick ⟨s, w, .holding e [] [], j⟩
      = .ok answers ⟨s.charged slot count, { w with ticks := w.ticks + UInt64.ofNat count },
          .holding e [] [], j⟩ := by
  induction count generalizing s w with
  | zero => exact ⟨[], by simp [pure_apply]⟩
  | succ count ih =>
    obtain ⟨hleft, hrest⟩ := (Scheduler.affords_succ hcurrent).mp haffords
    obtain ⟨hsound, answer, hfirst⟩ := chargeTick_charged { w with ticks := w.ticks + 1 } e j hs
      hcurrent ((Scheduler.affords_one hcurrent).mpr hleft)
    obtain ⟨answers, hticks⟩ := ih { w with ticks := w.ticks + 1 } hsound hcurrent hrest
    have htimer : w.ticks + 1 + UInt64.ofNat count = w.ticks + UInt64.ofNat (count + 1) := by
      rw [UInt64.add_assoc, UInt64.add_comm 1, UInt64.ofNat_add]
      rfl
    refine ⟨answer :: answers, ?_⟩
    rw [List.replicate_succ, List.mapM_cons]
    refine (bind_of_ok hfirst).trans ((bind_of_ok hticks).trans ?_)
    rw [Scheduler.charged_charged, Nat.add_comm 1 count, htimer, pure_apply]

/-- Ticks in a row fault when the queue does not afford them. -/
theorem ticks_fault (hs : s.Sound) (hcurrent : (s.cpu cpu).current = some slot) {count : Nat}
    (hspent : ¬s.Affords cpu count) :
    ∃ m, (List.replicate count cpu.val).mapM tick ⟨s, w, .holding e [] [], j⟩
      = .error (.overflow .subtract) m := by
  induction count generalizing s w with
  | zero => exact absurd (Scheduler.affords_zero cpu) hspent
  | succ count ih =>
    rw [List.replicate_succ, List.mapM_cons]
    by_cases hone : s.Affords cpu 1
    · obtain ⟨hsound, answer, hfirst⟩ :=
        chargeTick_charged { w with ticks := w.ticks + 1 } e j hs hcurrent hone
      have hrest : ¬(s.charged slot 1).Affords cpu count := fun hrest =>
        hspent ((Scheduler.affords_succ hcurrent).mpr
          ⟨(Scheduler.affords_one hcurrent).mp hone, hrest⟩)
      obtain ⟨m, hfault⟩ := ih { w with ticks := w.ticks + 1 } hsound hcurrent hrest
      exact ⟨m, (bind_of_ok hfirst).trans (bind_of_error hfault)⟩
    · obtain ⟨m, hfault⟩ := chargeTick_fault { w with ticks := w.ticks + 1 } e j hs hcurrent hone
      exact ⟨m, bind_of_error hfault⟩

end Kernel

end FeedbackQueue
