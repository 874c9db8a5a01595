import FeedbackQueue.Proofs.Kernel.Countdown
import FeedbackQueue.Proofs.Scenario.Exhaustion

/-!
# Timer accounting

At every moment of every run a tick of an idle CPU changes nothing, and any number of ticks of a CPU
that runs a process are charged to the process and, under feedback, to the queue that it is in
(`Scheduler.charged`).  A budget stops at the least value.  A queue does not: it can be charged as
many ticks as it has got left above the least value, and the next one faults.

* `Reachable.ticks_accounted` — this, for every policy and every number of ticks;
* `longTurn_faults` — a run in which a process keeps its CPU until the next tick faults.
-/

namespace FeedbackQueue

open Kernel

variable {cfg : Config}

/-! ## Ticks as steps -/

namespace Moment

variable {m : Moment cfg} {cpu : Fin cfg.ncpu} {slot : Fin cfg.maxProcs} {count : Nat}

/-- The moment after some ticks of a process. -/
def charged (m : Moment cfg) (slot : Fin cfg.maxProcs) (count : Nat) : Moment cfg :=
  { m with machine := { m.machine with
      scheduler := m.machine.scheduler.charged slot count
      hardware := { m.machine.hardware with
        ticks := m.machine.hardware.ticks + UInt64.ofNat count } } }

theorem allows_tick (m : Moment cfg) (cpu : Fin cfg.ncpu) (count : Nat) :
    m.Allows (.act (.tick cpu count)) := by
  refine ⟨rfl, ?_, ?_, ?_⟩ <;> simp [Action.slot?, Action.cpu?, Action.freshSlot?]

theorem Sound.tick_idle (h : m.Sound) (hidle : (m.machine.scheduler.cpu cpu).current = none) :
    chargeTick cpu m.machine = .ok false m.machine :=
  h.machine_of_forall (P := fun t => chargeTick cpu t = .ok false t)
    fun w enabled j => chargeTick_idle w enabled j hidle

section Current

variable (h : m.Sound) (hcurrent : (m.machine.scheduler.cpu cpu).current = some slot)
include h hcurrent

theorem Sound.tick_charged (haffords : m.machine.scheduler.Affords cpu 1) :
    ∃ answer, chargeTick cpu m.machine
      = .ok answer { m.machine with scheduler := m.machine.scheduler.charged slot 1 } :=
  h.machine_of_forall
    (P := fun t => ∃ answer, chargeTick cpu t
      = .ok answer { t with scheduler := m.machine.scheduler.charged slot 1 })
    fun w enabled j => (chargeTick_charged w enabled j h.scheduler hcurrent haffords).2

theorem Sound.tick_fault (hspent : ¬m.machine.scheduler.Affords cpu 1) :
    ∃ left, chargeTick cpu m.machine = .error (.overflow .subtract) left :=
  h.machine_of_forall (P := fun t => ∃ left, chargeTick cpu t = .error (.overflow .subtract) left)
    fun w enabled j => chargeTick_fault w enabled j h.scheduler hcurrent hspent

theorem Sound.next_ticks (haffords : m.machine.scheduler.Affords cpu count) :
    m.next (.act (.tick cpu count)) = .ok (m.charged slot count) := by
  obtain ⟨answers, hticks⟩ := h.machine_of_forall
    (P := fun t => ∃ answers, (List.replicate count cpu.val).mapM tick t = .ok answers
      { t with
        scheduler := m.machine.scheduler.charged slot count
        hardware := { t.hardware with ticks := t.hardware.ticks + UInt64.ofNat count } })
    fun w enabled j => ticks_apply w enabled j h.scheduler hcurrent count haffords
  have htake : take (.act (.tick cpu count)) m.activities m.machine
      = .ok m.activities (m.charged slot count).machine := bind_of_ok (bind_of_ok hticks)
  rw [Moment.next, htake]
  rfl

theorem Sound.next_ticks_fault (hspent : ¬m.machine.scheduler.Affords cpu count) :
    m.next (.act (.tick cpu count)) = .error (.overflow .subtract) := by
  obtain ⟨left, hfault⟩ := h.machine_of_forall
    (P := fun t => ∃ left, (List.replicate count cpu.val).mapM tick t
      = .error (.overflow .subtract) left)
    fun w enabled j => ticks_fault w enabled j h.scheduler hcurrent hspent
  have htake : take (.act (.tick cpu count)) m.activities m.machine
      = .error (.overflow .subtract) left := bind_of_error (bind_of_error hfault)
  rw [Moment.next, htake]

end Current

end Moment

/-! ## Accounting -/

/-- At every moment of every run, a tick of an idle CPU is answered with no and changes nothing.
Any number of ticks of a CPU that runs a process are answered and charged to the process, which
under feedback is in a queue, unless that queue does not afford them.  Then they fault. -/
theorem Reachable.ticks_accounted (hv : cfg.IsValid) {m : Moment cfg} (hm : Reachable m)
    (cpu : Fin cfg.ncpu) :
    let s := m.machine.scheduler
    ((s.cpu cpu).current = none → chargeTick cpu m.machine = .ok false m.machine) ∧
    ∀ slot, (s.cpu cpu).current = some slot →
      (cfg.effectivePolicy = .feedback → ∃ level set,
        s.queues.location slot = some (level, set) ∧ level < cfg.levels) ∧
      (s.Affords cpu 1 → ∃ answer,
        chargeTick cpu m.machine = .ok answer { m.machine with scheduler := s.charged slot 1 }) ∧
      (¬s.Affords cpu 1 → ∃ left,
        chargeTick cpu m.machine = .error (.overflow .subtract) left) ∧
      ∀ count : Nat,
        (s.Affords cpu count → m.next (.act (.tick cpu count)) = .ok (m.charged slot count)) ∧
        (¬s.Affords cpu count →
          m.next (.act (.tick cpu count)) = .error (.overflow .subtract)) := by
  have hsound := hm.sound hv
  have hs := hsound.scheduler
  refine ⟨hsound.tick_idle, fun slot hcurrent => ⟨fun hp => ?_, hsound.tick_charged hcurrent,
    hsound.tick_fault hcurrent, fun count =>
      ⟨hsound.next_ticks hcurrent, hsound.next_ticks_fault hcurrent⟩⟩⟩
  have hstate := (hs.running slot).mpr ⟨cpu, hcurrent⟩
  obtain ⟨level, set, hplace⟩ := hs.exists_location slot (by rw [hp]; rfl) (by rw [hstate]; rfl)
  exact ⟨level, set, hplace, hs.queues.level_lt hplace⟩

/-- The only process starts its turn with a budget of one tick, in a queue that has got ten left. -/
theorem startsAlone_charges : ∃ m ∈ (Moment.fresh .smallest).walk? startsAlone,
    (m.machine.scheduler.cpu ⟨0, by decide⟩).current = some Config.onlySlot ∧
      m.machine.scheduler.chargedTicks? ⟨0, by decide⟩ = some 10 ∧
      (m.machine.scheduler.table.record Config.onlySlot).quantum = 1 := by
  decide +kernel

/-- Its turn can last until the queue has been charged to the least value, and no tick longer. -/
theorem startsAlone_accounted : ∃ m ∈ (Moment.fresh .smallest).walk? startsAlone,
    (∃ answer, chargeTick 0 m.machine
      = .ok answer { m.machine with scheduler := m.machine.scheduler.charged Config.onlySlot 1 }) ∧
    m.next (.act (.tick 0 2147483658)) = .ok (m.charged Config.onlySlot 2147483658) ∧
    m.next (.act (.tick 0 2147483659)) = .error (.overflow .subtract) := by
  obtain ⟨m, hwalk, hcurrent, hticks, -⟩ := startsAlone_charges
  have haffords : ∀ count : Nat, m.machine.scheduler.Affords ⟨0, by decide⟩ count ↔
      Int32.minValue.toInt + count ≤ (10 : Int32).toInt := by
    simp [Scheduler.Affords, hticks]
  obtain ⟨-, hcharges⟩ :=
    Reachable.ticks_accounted (by decide) ⟨_, path_of_walk? hwalk⟩ ⟨0, by decide⟩
  obtain ⟨-, hcharged, -, hrow⟩ := hcharges Config.onlySlot hcurrent
  refine ⟨m, hwalk, hcharged ((haffords _).mpr (by decide)), (hrow _).1 ((haffords _).mpr ?_),
    (hrow _).2 (mt (haffords _).mp ?_)⟩
  · decide
  · decide

/-- The process keeps its CPU until its queue has been charged to the least value.  Its budget has
stopped there long ago, and the next tick faults. -/
theorem longTurn_faults : ∃ m,
    Path (.fresh .smallest) (startsAlone ++ [.act (.tick 0 2147483658)]) m ∧
      (m.machine.scheduler.cpu ⟨0, by decide⟩).current = some Config.onlySlot ∧
      (m.machine.scheduler.table.record Config.onlySlot).quantum = Int32.minValue ∧
      ∃ left, chargeTick 0 m.machine = .error (.overflow .subtract) left := by
  obtain ⟨m, hwalk, hcurrent, hticks, hbudget⟩ := startsAlone_charges
  have hpath := path_of_walk? hwalk
  have hsound : m.Sound := Reachable.sound (by decide) ⟨_, hpath⟩
  have haffords : m.machine.scheduler.Affords ⟨0, by decide⟩ 2147483658 := by
    rintro ticks hmem
    cases hticks.symm.trans hmem
    decide
  have hlong := hpath.tail (m.allows_tick ⟨0, by decide⟩ 2147483658)
    (hsound.next_ticks hcurrent haffords)
  have hsound' : (m.charged Config.onlySlot 2147483658).Sound :=
    Reachable.sound (by decide) ⟨_, hlong⟩
  have hspent : ¬(m.charged Config.onlySlot 2147483658).machine.scheduler.Affords
      ⟨0, by decide⟩ 1 := by
    have hcharged := Scheduler.chargedTicks?_charged hcurrent 2147483658
    rw [hticks, Option.map_some] at hcharged
    intro haffords
    exact absurd (haffords _ hcharged) (by decide)
  refine ⟨_, hlong, hcurrent, ?_, hsound'.tick_fault hcurrent hspent⟩
  refine (m.machine.scheduler.budget_charged Config.onlySlot 2147483658).trans ?_
  rw [hbudget]
  decide

end FeedbackQueue
