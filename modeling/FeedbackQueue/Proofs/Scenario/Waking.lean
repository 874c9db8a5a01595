import FeedbackQueue.Proofs.Kernel.Sleepers
import FeedbackQueue.Proofs.Scenario.Steps

/-!
# Wakeups and kills

At any moment of a run a wakeup or a kill may be called, with nothing done in its windows.  A wakeup
wakes the sleepers of its channel and touches nothing else, so that a second one finds nobody.  A
kill reaches the process that a search finds; a sleeper it wakes as a wakeup would that found nobody
else asleep on the channel, and on any other process it leaves its mark alone.

* `Reachable.wakeup_wakes_sleepers` — what a wakeup does;
* `Scheduler.withOthersOn` — a scheduler with its other processes on other channels;
* `Kernel.KillsAlone` — what a kill does to the process that it reaches;
* `Reachable.kill_reaches_found` — so it does, and to the process that is found.
-/

namespace FeedbackQueue

open Kernel

variable {cfg : Config}

namespace Scheduler

variable {s : Scheduler cfg} {slot : Fin cfg.maxProcs} {channel : Nat}

/-! ## Wakeups -/

/-- Sleepers are in the queues, so that waking them moves them there. -/
theorem Sound.wakesTo_awakenAll (hs : s.Sound) {slots : List (Fin cfg.maxProcs)}
    (hnodup : slots.Nodup) (hsleep : ∀ y ∈ slots, (s.table.record y).state = .sleeping) :
    s.WakesTo (slots.foldl awaken s) slots := by
  refine Scheduler.wakesTo_awakenAll hs.queues (fun huse y hy => ?_) hnodup
  obtain ⟨level, set, hplace⟩ := hs.exists_location y huse (by rw [hsleep y hy]; rfl)
  rw [hplace, Option.isSome_some]

theorem sleepers_of_wakesTo {s' : Scheduler cfg} (h : s.WakesTo s' (s.sleepers channel)) :
    s'.sleepers channel = [] := by
  refine List.filter_eq_nil_iff.mpr fun y _ hsleeps => ?_
  rw [h.record] at hsleeps
  split at hsleeps
  case isTrue => simp [sleepsOn, Record.woken] at hsleeps
  case isFalse hawake => exact hawake (mem_sleepers.mpr hsleeps)

end Scheduler

/-- A wakeup at a moment of a run, or with another scheduler in its place. -/
theorem Moment.Sound.wakeup_apply {m : Moment cfg} (h : m.Sound) {s : Scheduler cfg}
    (hq : s.queues.Sound) (channel : Nat) :
    (wakeup cfg channel (fun _ => pure ()) : Kernel cfg Nat) { m.machine with scheduler := s }
      = .ok (s.sleepers channel).length
          { m.machine with scheduler := (s.sleepers channel).foldl Scheduler.awaken s } :=
  h.machine_of_forall (P := fun t =>
    (wakeup cfg channel (fun _ => pure ()) : Kernel cfg Nat) { t with scheduler := s }
      = .ok _ { t with scheduler := _ }) fun _ _ _ => Kernel.wakeup_apply hq channel

/-- At every moment of every run, a wakeup wakes the processes that sleep on its channel, in the
order of their slots, and answers how many they are.  A second one wakes nobody. -/
theorem Reachable.wakeup_wakes_sleepers (hv : cfg.IsValid) {m : Moment cfg} (hm : Reachable m)
    (channel : Nat) : ∃ s' : Scheduler cfg,
    m.machine.scheduler.WakesTo s' (m.machine.scheduler.sleepers channel) ∧
    (wakeup cfg channel (fun _ => pure ()) : Kernel cfg Nat) m.machine
      = .ok (m.machine.scheduler.sleepers channel).length { m.machine with scheduler := s' } ∧
    (wakeup cfg channel (fun _ => pure ()) : Kernel cfg Nat) { m.machine with scheduler := s' }
      = .ok 0 { m.machine with scheduler := s' } := by
  have hsound := hm.sound hv
  have hwakes := hsound.scheduler.wakesTo_awakenAll
    (m.machine.scheduler.nodup_sleepers channel) fun y hy =>
      state_of_sleepsOn (Scheduler.mem_sleepers.mp hy)
  refine ⟨_, hwakes, hsound.wakeup_apply hsound.scheduler.queues channel, ?_⟩
  rw [hsound.wakeup_apply hwakes.sound, Scheduler.sleepers_of_wakesTo hwakes]
  rfl

/-- A run after which both processes sleep on a channel, and the second is ahead in its queue. -/
def bothAsleep : List Step :=
  [.act (.fork "worker" none none), .act (.fork "other" none none), .begin 0, .finish 0 .yield,
    .begin 0, .begin 1, .finish 0 (.sleep 7), .finish 0 (.sleep 7)]

/-- The wakeup lines them up in the order of their slots. -/
theorem bothAsleep_woken : ∃ m ∈ (Moment.fresh .paired).walk? bothAsleep,
    ∃ s' : Scheduler .paired,
      (wakeup .paired 7 (fun _ => pure ()) : Kernel .paired Nat) m.machine
        = .ok 2 { m.machine with scheduler := s' } ∧
      m.machine.scheduler.queues.members 0 .active = [Config.secondSlot, Config.firstSlot] ∧
      s'.queues.members 0 .active = [Config.firstSlot, Config.secondSlot] := by
  have hrun : ∃ m ∈ (Moment.fresh .paired).walk? bothAsleep,
      m.machine.scheduler.sleepers 7 = [Config.firstSlot, Config.secondSlot] ∧
      (∀ y, m.machine.scheduler.queues.location y = some (0, .active)) ∧
      m.machine.scheduler.queues.members 0 .active = [Config.secondSlot, Config.firstSlot] := by
    decide +kernel
  obtain ⟨m, hwalk, hsleepers, hplace, hmembers⟩ := hrun
  obtain ⟨s', hwakes, hanswer, -⟩ :=
    Reachable.wakeup_wakes_sleepers (by decide) ⟨_, path_of_walk? hwalk⟩ 7
  rw [hsleepers] at hwakes hanswer
  refine ⟨m, hwalk, s', hanswer, hmembers, ?_⟩
  rw [hwakes.members (by decide), hmembers]
  simp [hplace]

/-! ## Kills -/

namespace Scheduler

variable {s : Scheduler cfg} {slot : Fin cfg.maxProcs} {channel : Nat}

/-- The scheduler if the processes in the other slots were on other channels. -/
def withOthersOn (s : Scheduler cfg) (slot : Fin cfg.maxProcs)
    (channels : Fin cfg.maxProcs → Option Nat) : Scheduler cfg :=
  { s with table.records := .ofFn fun y =>
      if y = slot then s.table.record y else { s.table.record y with channel := channels y } }

variable {channels : Fin cfg.maxProcs → Option Nat}

theorem record_withOthersOn (y : Fin cfg.maxProcs) :
    (s.withOthersOn slot channels).table.record y
      = if y = slot then s.table.record y else { s.table.record y with channel := channels y } := by
  simp [withOthersOn, Table.record]

theorem awaken_withOthersOn :
    (s.withOthersOn slot channels).awaken slot = (s.awaken slot).withOthersOn slot channels := by
  have htable : ((s.withOthersOn slot channels).awaken slot).table
      = ((s.awaken slot).withOthersOn slot channels).table := by
    refine Table.ext_record (fun y => ?_) rfl
    rw [record_awaken, record_withOthersOn, record_withOthersOn, record_awaken]
    split <;> rfl
  exact congrArg (fun table => { s.awaken slot with table := table }) htable

theorem sleepers_withOthersOn (hsleeps : sleepsOn channel (s.table.record slot) = true)
    (hothers : ∀ y ≠ slot, channels y ≠ some channel) :
    (s.withOthersOn slot channels).sleepers channel = [slot] := by
  have hlone : (s.withOthersOn slot channels).sleepers channel
      = (List.finRange cfg.maxProcs).filter (· == slot) := by
    refine List.filter_congr fun y _ => ?_
    rw [record_withOthersOn]
    by_cases hy : y = slot
    · simp [hy, hsleeps]
    · simp [hy, sleepsOn, hothers y hy]
  rw [hlone, List.filter_beq,
    List.count_eq_one_of_mem (List.nodup_finRange _) (List.mem_finRange slot)]
  rfl

end Scheduler

/-- What a kill does to the process that it reaches, where `s'` is what the scheduler has become but
for the mark on the process.  If the process does not sleep, it is marked and nothing else happens.
If it sleeps, it is woken too, as by a wakeup on its channel that finds nobody else there. -/
structure Kernel.KillsAlone (m : Machine cfg) (pid : Pid) (slot : Fin cfg.maxProcs)
    (s' : Scheduler cfg) : Prop where
  killed : (kill cfg pid (pure ()) : Kernel cfg (Except Refusal Unit)) m
    = .ok (.ok ()) { m with
        scheduler := s'.marked slot
        journal := m.journal.push (.killed pid (m.scheduler.table.record slot).state) }
  awake : (m.scheduler.table.record slot).state ≠ .sleeping → s' = m.scheduler
  asleep : (m.scheduler.table.record slot).state = .sleeping → m.scheduler.WakesTo s' [slot] ∧
    ∃ channel, (m.scheduler.table.record slot).channel = some channel
  lone : ∀ channel, m.scheduler.sleepers channel = [slot] →
    (wakeup cfg channel (fun _ => pure ()) : Kernel cfg Nat) m = .ok 1 { m with scheduler := s' }
  alone : ∀ channel, sleepsOn channel (m.scheduler.table.record slot) = true →
    ∀ channels : Fin cfg.maxProcs → Option Nat, (∀ y ≠ slot, channels y ≠ some channel) →
      (wakeup cfg channel (fun _ => pure ()) : Kernel cfg Nat)
          { m with scheduler := m.scheduler.withOthersOn slot channels }
        = .ok 1 { m with scheduler := s'.withOthersOn slot channels }

namespace Moment.Sound

variable {m : Moment cfg} (h : m.Sound) {pid : Pid} {slot : Fin cfg.maxProcs}
include h

theorem killsAlone (hfound : m.machine.scheduler.table.find? pid = some slot) :
    KillsAlone m.machine pid slot
      (if (m.machine.scheduler.table.record slot).state = .sleeping
        then m.machine.scheduler.awaken slot else m.machine.scheduler) := by
  constructor
  case killed =>
    refine h.machine_of_forall (P := fun t => (kill cfg pid (pure ()) : Kernel cfg _) t
      = .ok (.ok ()) { t with scheduler := _, journal := t.journal.push _ }) fun w e j => ?_
    rw [kill_apply h.scheduler.queues, hfound]
  case awake => exact fun hawake => if_neg hawake
  case asleep =>
    intro hsleeps
    rw [if_pos hsleeps]
    refine ⟨h.scheduler.wakesTo_awakenAll (List.nodup_singleton slot) (by simp [hsleeps]), ?_⟩
    exact Option.isSome_iff_exists.mp ((h.scheduler.channel slot).mpr hsleeps)
  case lone =>
    intro channel hlone
    have hsleeps := state_of_sleepsOn (Scheduler.mem_sleepers.mp (hlone ▸ List.mem_cons_self))
    rw [if_pos hsleeps]
    refine (h.wakeup_apply h.scheduler.queues channel).trans ?_
    rw [hlone]
    rfl
  case alone =>
    intro channel hsleeps channels hothers
    rw [if_pos (state_of_sleepsOn hsleeps)]
    refine (h.wakeup_apply (s := m.machine.scheduler.withOthersOn slot channels)
      h.scheduler.queues channel).trans ?_
    rw [Scheduler.sleepers_withOthersOn hsleeps hothers, ← Scheduler.awaken_withOthersOn]
    rfl

end Moment.Sound

/-- At every moment of every run, a kill is refused exactly when a search for the pid finds nothing,
and else it reaches the process that the search finds. -/
theorem Reachable.kill_reaches_found (hv : cfg.IsValid) {m : Moment cfg} (hm : Reachable m)
    (pid : Pid) :
    find pid m.machine = .ok (m.machine.scheduler.table.find? pid) m.machine ∧
    (∀ refusal m', (kill cfg pid (pure ()) : Kernel cfg (Except Refusal Unit)) m.machine
        = .ok (.error refusal) m' ↔
      m.machine.scheduler.table.find? pid = none ∧ refusal = .noSuchProcess pid ∧
        m' = m.machine) ∧
    ∀ slot ∈ m.machine.scheduler.table.find? pid, ∃ s', KillsAlone m.machine pid slot s' := by
  have hsound := hm.sound hv
  refine ⟨?_, ?_, fun slot hfound => ⟨_, hsound.killsAlone hfound⟩⟩
  · exact hsound.machine_of_forall (P := fun t => find pid t = .ok _ t) fun _ _ _ => find_apply pid
  · intro refusal m'
    cases hfound : m.machine.scheduler.table.find? pid with
    | none =>
      rw [hsound.machine_of_forall (P := fun t => (kill cfg pid (pure ()) : Kernel cfg _) t
        = .ok _ t) fun _ _ _ => kill_of_find?_eq_none hfound _]
      simp [eq_comm]
    | some slot => simp [(hsound.killsAlone hfound).killed]

/-- Of two processes that sleep on a channel, the one that is killed is woken as if it were alone
there, and the other sleeps on. -/
theorem bothAsleep_killed : ∃ m ∈ (Moment.fresh .paired).walk? bothAsleep,
    find 2 m.machine = .ok (some Config.secondSlot) m.machine ∧
    ∃ s' : Scheduler .paired, KillsAlone m.machine 2 Config.secondSlot s' ∧
      (s'.table.record Config.firstSlot).state = .sleeping ∧
      (s'.table.record Config.secondSlot).state = .runnable ∧
      s'.queues.members 0 .active = [Config.firstSlot, Config.secondSlot] ∧
      (wakeup .paired 7 (fun _ => pure ()) : Kernel .paired Nat)
          { m.machine with
            scheduler := m.machine.scheduler.withOthersOn Config.secondSlot fun _ => some 8 }
        = .ok 1
          { m.machine with scheduler := s'.withOthersOn Config.secondSlot fun _ => some 8 } := by
  have hrun : ∃ m ∈ (Moment.fresh .paired).walk? bothAsleep,
      m.machine.scheduler.table.find? 2 = some Config.secondSlot ∧
      (∀ y, sleepsOn 7 (m.machine.scheduler.table.record y) = true) ∧
      (∀ y, m.machine.scheduler.queues.location y = some (0, .active)) ∧
      m.machine.scheduler.queues.members 0 .active = [Config.secondSlot, Config.firstSlot] := by
    decide +kernel
  obtain ⟨m, hwalk, hfound, hsleep, hplace, hmembers⟩ := hrun
  obtain ⟨hfind, -, hkill⟩ := Reachable.kill_reaches_found (by decide) ⟨_, path_of_walk? hwalk⟩ 2
  obtain ⟨s', hkills⟩ := hkill _ hfound
  obtain ⟨hwakes, -⟩ := hkills.asleep (state_of_sleepsOn (hsleep _))
  refine ⟨m, hwalk, hfound ▸ hfind, s', hkills, ?_, ?_, ?_, ?_⟩
  · rw [hwakes.record, if_neg (by decide), state_of_sleepsOn (hsleep _)]
  · rw [hwakes.record, if_pos (by decide)]
    rfl
  · rw [hwakes.members (by decide), hmembers]
    simp [hplace, Config.firstSlot, Config.secondSlot]
  · exact hkills.alone 7 (hsleep _) _ (by simp)

end FeedbackQueue
