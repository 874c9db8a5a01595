import FeedbackQueue.Kernel.Timer
import FeedbackQueue.Proofs.Kernel.Waking

/-!
# What a tick does

A tick is answered unless it would charge a queue below the least number of ticks, and then it
faults (`chargeTick_apply`).  `Charges` says what is charged and what the answer is read off: the
budget of the process that the CPU runs and, under feedback, the ticks of the queue that the process
is in.  `ChargesAll` says the same of ticks one after another.
-/

namespace FeedbackQueue

variable {cfg : Config}

/-- The ticks of the queue that a tick of a CPU is charged to.  Only feedback charges queues. -/
def Scheduler.chargedTicks? (s : Scheduler cfg) (cpu : Fin cfg.ncpu) : Option Int32 :=
  if cfg.effectivePolicy = .feedback then do
    let slot ← (s.cpu cpu).current
    let (level, set) ← s.queues.location slot
    (s.queues.lane? level set).map Lane.quantum
  else none

/-- Above the least value, ticks can be counted down. -/
theorem toInt_sub_one {ticks : Int32} (h : ticks ≠ Int32.minValue) :
    (ticks - 1).toInt = ticks.toInt - 1 := by
  have hlo := Int32.le_toInt ticks
  have hhi := Int32.toInt_lt ticks
  have hne : ticks.toInt ≠ -2 ^ 31 := fun hmin => h (Int32.toInt_inj.mp hmin)
  rw [Int32.toInt_sub, Int32.toInt_one, Int.bmod_eq_of_le] <;> omega

theorem sub_one_le {ticks bound : Int32} (h : ticks ≠ Int32.minValue) (hle : ticks ≤ bound) :
    ticks - 1 ≤ bound := by
  rw [Int32.le_iff_toInt_le] at hle ⊢
  rw [toInt_sub_one h]
  omega

namespace Kernel

variable {α : Type} {s : Scheduler cfg}
variable {w : Hardware cfg.maxProcs} {e : Bool} {j : Array Event} {slot : Fin cfg.maxProcs}

theorem withQueues_apply_error {f : Queues cfg.levels cfg.maxProcs →
      Except Fault (α × Queues cfg.levels cfg.maxProcs)} {fault : Fault}
    (hf : f s.queues = .error fault) :
    withQueues f ⟨s, w, .holding e [] [], j⟩
      = .error fault ⟨s, w, .holding e [.queues] [], j⟩ := by
  rw [withQueues, locked, bind_of_ok (acquire_apply List.not_mem_nil List.not_mem_nil), bind_apply,
    bind_of_ok (queues_apply _), hf]
  rfl

/-- A tick is charged to the queue that a process is in, as long as that has one. -/
theorem chargeQueue_apply {level : Nat} {set : QueueSet} {lane : Lane cfg.maxProcs}
    (hplace : s.queues.location slot = some (level, set))
    (hlane : s.queues.lane? level set = some lane) :
    chargeQueue slot ⟨s, w, .holding e [] [], j⟩
      = if lane.quantum = Int32.minValue then
          .error (.overflow .subtract) ⟨s, w, .holding e [.queues] [], j⟩
        else .ok (lane.quantum - 1) ⟨(Effect.setTicks level set (lane.quantum - 1)).apply s,
          w, .holding e [] [], j⟩ := by
  have hfound : s.queues.lane level set = .ok lane := by rw [Queues.lane, hlane]
  split
  case isTrue hmin =>
    refine withQueues_apply_error ?_
    rw [hplace]
    simp only [Queues.charge, hfound, if_pos hmin]
  case isFalse hmin =>
    refine withQueues_apply ?_ List.not_mem_nil List.not_mem_nil
    rw [hplace]
    simp only [Queues.charge, hfound, if_neg hmin]

theorem chargeProcess_apply (slot : Fin cfg.maxProcs) :
    chargeProcess slot ⟨s, w, .holding e [] [], j⟩
      = .ok (s.table.record slot).charge.quantum
          ⟨(Effect.charge slot).apply s, w, .holding e [] [], j⟩ := by
  refine locked_apply List.not_mem_nil List.not_mem_nil ?_
  rw [bind_of_ok (adjust_apply ..), bind_of_ok (record_apply ..), pure_apply,
    Table.record_adjust_self]
  rfl

theorem current_ensures {cpu : Nat} (hcpu : cpu < cfg.ncpu) :
    Ensures (current cpu) s fun found effects =>
      found = (s.cpu ⟨cpu, hcpu⟩).current ∧ effects = [] :=
  fun w e j => ⟨_, [], w, e, j, ⟨rfl, rfl⟩, trivial,
    current_apply hcpu List.not_mem_nil List.not_mem_nil⟩

/-! ## A single tick -/

/-- The answer to a tick, and what the tick is charged to: the process that the CPU runs and, under
feedback, the queue that the process is in. -/
inductive Charges (s : Scheduler cfg) (cpu : Fin cfg.ncpu) : Bool → List (Effect cfg) → Prop
  | idle (current : (s.cpu cpu).current = none) : Charges s cpu false []
  | scan {slot : Fin cfg.maxProcs} (policy : cfg.effectivePolicy = .fifo)
    (current : (s.cpu cpu).current = some slot) : Charges s cpu true [.charge slot]
  | roundRobin {slot : Fin cfg.maxProcs} (policy : cfg.effectivePolicy = .roundRobin)
    (current : (s.cpu cpu).current = some slot) :
    Charges s cpu ((s.table.record slot).charge.quantum ≤ 0) [.charge slot]
  | feedback {slot : Fin cfg.maxProcs} {level : Nat} {set : QueueSet} {lane : Lane cfg.maxProcs}
    (policy : cfg.effectivePolicy = .feedback) (current : (s.cpu cpu).current = some slot)
    (place : s.queues.location slot = some (level, set))
    (ticks : s.queues.lane? level set = some lane) (left : lane.quantum ≠ Int32.minValue) :
    Charges s cpu ((s.table.record slot).charge.quantum ≤ 0 || lane.quantum - 1 ≤ 0)
      [.charge slot, .setTicks level set (lane.quantum - 1)]

/-- A tick touches the scheduler alone.  It is charged, or the queue has not got a tick left. -/
theorem chargeTick_apply (hs : s.Sound) {cpu : Nat} (hcpu : cpu < cfg.ncpu)
    (w : Hardware cfg.maxProcs) (e : Bool) (j : Array Event) :
    (s.chargedTicks? ⟨cpu, hcpu⟩ = some Int32.minValue ∧
        ∃ m, chargeTick cpu ⟨s, w, .holding e [] [], j⟩ = .error (.overflow .subtract) m) ∨
      ∃ answer effects, Charges s ⟨cpu, hcpu⟩ answer effects ∧ Effect.AllowedAll s effects ∧
        chargeTick cpu ⟨s, w, .holding e [] [], j⟩
          = .ok answer ⟨Effect.applyAll s effects, w, .holding e [] [], j⟩ := by
  rw [chargeTick, bind_of_ok (current_apply hcpu List.not_mem_nil List.not_mem_nil)]
  cases hcurrent : (s.cpu ⟨cpu, hcpu⟩).current with
  | none => exact .inr ⟨_, _, .idle hcurrent, trivial, rfl⟩
  | some slot =>
    dsimp only
    rw [bind_of_ok (chargeProcess_apply slot)]
    cases hp : cfg.effectivePolicy with
    | fifo => exact .inr ⟨_, _, .scan hp hcurrent, ⟨trivial, trivial⟩, rfl⟩
    | roundRobin => exact .inr ⟨_, _, .roundRobin hp hcurrent, ⟨trivial, trivial⟩, rfl⟩
    | feedback =>
      have hstate := (hs.running slot).mpr ⟨_, hcurrent⟩
      obtain ⟨level, set, hplace⟩ := hs.exists_location slot (by rw [hp]; rfl)
        (by rw [hstate]; rfl)
      have hlane := s.queues.lane?_of_lt set (hs.queues.level_lt hplace)
      have hqueue := chargeQueue_apply (s := (Effect.charge slot).apply s) (w := w) (e := e)
        (j := j) hplace hlane
      split at hqueue
      case isTrue hmin =>
        refine .inl ⟨?_, _, bind_of_error hqueue⟩
        simp [Scheduler.chargedTicks?, hp, hcurrent, hplace, hlane, hmin]
      case isFalse hleft =>
        exact .inr ⟨_, _, .feedback hp hcurrent hplace hlane hleft, ⟨trivial, trivial, trivial⟩,
          bind_of_ok hqueue⟩

theorem chargeTick_ensures (hs : s.Sound) {cpu : Nat} (hcpu : cpu < cfg.ncpu) :
    EnsuresUnless (· = .overflow .subtract) (chargeTick cpu) s (Charges s ⟨cpu, hcpu⟩) := by
  intro w e j
  obtain ⟨-, m, hfault⟩ | ⟨answer, effects, hcharges, hallowed, hok⟩ :=
    chargeTick_apply hs hcpu w e j
  · exact .inl ⟨_, m, rfl, hfault⟩
  · exact .inr ⟨answer, effects, w, e, j, hcharges, hallowed, hok⟩

/-- Whether a change charges a tick. -/
def isCharge : Effect cfg → Bool
  | .charge _ | .setTicks .. => true
  | _ => false

theorem Charges.isCharge {cpu : Fin cfg.ncpu} {answer : Bool} {effects : List (Effect cfg)}
    (h : Charges s cpu answer effects) : ∀ effect ∈ effects, isCharge effect = true := by
  cases h <;> simp [Kernel.isCharge]

/-! ## Ticks one after another -/

/-- The answers to some ticks of a CPU, and what they are charged to. -/
inductive ChargesAll (cpu : Fin cfg.ncpu) :
    Scheduler cfg → List Bool → List (Effect cfg) → Prop
  | nil {s : Scheduler cfg} : ChargesAll cpu s [] []
  | cons {s : Scheduler cfg} {answer : Bool} {answers : List Bool} {first rest : List (Effect cfg)}
    (charges : Charges s cpu answer first)
    (chargesAll : ChargesAll cpu (Effect.applyAll s first) answers rest) :
    ChargesAll cpu s (answer :: answers) (first ++ rest)

theorem ChargesAll.isCharge {cpu : Fin cfg.ncpu} {answers : List Bool} {effects : List (Effect cfg)}
    (h : ChargesAll cpu s answers effects) : ∀ effect ∈ effects, Kernel.isCharge effect = true := by
  induction h with
  | nil => simp
  | cons charges _ ih => exact List.forall_mem_append.mpr ⟨charges.isCharge, ih⟩

theorem ticks_ensures (hs : s.Sound) {cpu : Nat} (hcpu : cpu < cfg.ncpu) (count : Nat) :
    EnsuresUnless (· = .overflow .subtract) ((List.replicate count cpu).mapM tick) s
      (ChargesAll ⟨cpu, hcpu⟩ s) := by
  induction count generalizing s with
  | zero => exact EnsuresUnless.pure .nil
  | succ count ih =>
    rw [List.replicate_succ, List.mapM_cons]
    have htick : EnsuresUnless (· = .overflow .subtract) (tick cpu) s (Charges s ⟨cpu, hcpu⟩) :=
      fun w e j => chargeTick_ensures hs hcpu { w with ticks := w.ticks + 1 } e j
    refine htick.bind fun answer effects hcharges hallowed => ?_
    refine (ih (hs.applyAll hallowed)).bind fun answers more hmore _ => ?_
    exact EnsuresUnless.pure (by simpa using ChargesAll.cons hcharges hmore)

end Kernel

end FeedbackQueue
