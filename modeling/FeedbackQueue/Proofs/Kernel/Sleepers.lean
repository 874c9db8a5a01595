import FeedbackQueue.Proofs.Kernel.Waking
import FeedbackQueue.Proofs.Process.Search
import FeedbackQueue.Proofs.Queue.Cascade

/-!
# Waking sleepers with nothing in between

When nothing is done in its window, waking a process is a single change of the scheduler
(`Scheduler.awaken`).  A wakeup makes this change for the sleepers of its channel, in the order of
their slots (`Kernel.wakeup_apply`), and a kill makes it for the process that it reaches, if that
sleeps (`Kernel.kill_apply`).

* `Scheduler.WakesTo` — what is left when some sleepers have been woken one after another;
* `Scheduler.wakesTo_awaken` — so it is after a single one;
* `Scheduler.wakesTo_awakenAll` — and so it is after any number of them.
-/

namespace FeedbackQueue

variable {cfg : Config}

namespace Scheduler

/-- The processes that sleep on a channel, in the order of their slots. -/
def sleepers (s : Scheduler cfg) (channel : Nat) : List (Fin cfg.maxProcs) :=
  (Kernel.allSlots cfg).filter fun slot => Kernel.sleepsOn channel (s.table.record slot)

/-- The scheduler once a sleeper has been woken, with nothing done in its window. -/
def awaken (s : Scheduler cfg) (slot : Fin cfg.maxProcs) : Scheduler cfg :=
  { s with
    table := s.table.adjust slot (Record.woken cfg)
    queues :=
      if cfg.effectivePolicy.usesQueues then
        s.queues.relink slot ((s.queues.link slot).level?.getD (s.queues.link slot).home) .active
      else s.queues
    stats := s.stats.record .wakeup }

/-- The scheduler once a process has been asked to end. -/
def marked (s : Scheduler cfg) (slot : Fin cfg.maxProcs) : Scheduler cfg :=
  { s with
    table := s.table.adjust slot fun r => { r with killed := true }
    stats := s.stats.record .kill }

/-- What is left when some sleepers have been woken one after another.  They are runnable and wait
on no channel.  Each of them has left the place that it had in the queues and has come to the tail
of the active queue of the same level, one behind the other; whoever else is in a queue keeps its
place and its order, and the queues are well formed.  All other records, homes and ticks, the CPUs
and the other counters are as they were. -/
structure WakesTo (s s' : Scheduler cfg) (woken : List (Fin cfg.maxProcs)) : Prop where
  record : ∀ y, s'.table.record y
    = if y ∈ woken then (s.table.record y).woken cfg else s.table.record y
  queued : cfg.effectivePolicy.usesQueues = true → ∀ y ∈ woken,
    (s.queues.location y).isSome = true
  members : cfg.effectivePolicy.usesQueues = true → ∀ level set, s'.queues.members level set
    = (s.queues.members level set).filter (· ∉ woken) ++
      woken.filter fun y => set = .active ∧ (s.queues.location y).map Prod.fst = some level
  location : cfg.effectivePolicy.usesQueues = true → ∀ y, s'.queues.location y
    = if y ∈ woken then (s.queues.location y).map fun (level, _) => (level, .active)
      else s.queues.location y
  unqueued : cfg.effectivePolicy.usesQueues = false → s'.queues = s.queues
  sound : s'.queues.Sound
  quantum : ∀ level set, s'.queues.quantum level set = s.queues.quantum level set
  refill : s'.queues.refill = s.queues.refill
  home : ∀ y, (s'.queues.link y).home = (s.queues.link y).home
  nextPid : s'.table.nextPid = s.table.nextPid
  cpus : s'.cpus = s.cpus
  stats : s'.stats = { s.stats with wakeups := s.stats.wakeups + .ofNat woken.length }
  window : s'.window = s.window

variable {s s₁ s₂ : Scheduler cfg} {slot : Fin cfg.maxProcs} {rest : List (Fin cfg.maxProcs)}

theorem mem_sleepers {channel : Nat} :
    slot ∈ s.sleepers channel ↔ Kernel.sleepsOn channel (s.table.record slot) = true := by
  simp [sleepers]

theorem nodup_sleepers (s : Scheduler cfg) (channel : Nat) : (s.sleepers channel).Nodup :=
  (List.nodup_finRange _).filter _

theorem record_awaken (s : Scheduler cfg) (slot y : Fin cfg.maxProcs) :
    (s.awaken slot).table.record y
      = if y = slot then (s.table.record y).woken cfg else s.table.record y := by
  refine (s.table.record_adjust slot y (Record.woken cfg)).trans ?_
  split
  case isTrue hy => rw [hy]
  case isFalse => rfl

theorem awaken_marked (s : Scheduler cfg) (slot : Fin cfg.maxProcs) :
    (s.marked slot).awaken slot = (s.awaken slot).marked slot := by
  simp [awaken, marked, Table.adjust_adjust, Record.woken, Statistics.record]

theorem queues_awaken (s : Scheduler cfg) (slot : Fin cfg.maxProcs) :
    (s.awaken slot).queues = if cfg.effectivePolicy.usesQueues then
        s.queues.relink slot ((s.queues.link slot).level?.getD (s.queues.link slot).home) .active
      else s.queues :=
  rfl

theorem sound_queues_awaken (hq : s.queues.Sound) (slot : Fin cfg.maxProcs) :
    (s.awaken slot).queues.Sound := by
  rw [queues_awaken]
  split
  · exact hq.relink slot (hq.levelOrHome_lt slot) .active
  · exact hq

/-! ## One sleeper -/

theorem wakesTo_nil (hq : s.queues.Sound) : s.WakesTo s [] := by
  constructor <;> simp [hq]

theorem wakesTo_awaken (hq : s.queues.Sound)
    (hqueued : cfg.effectivePolicy.usesQueues = true → (s.queues.location slot).isSome = true) :
    s.WakesTo (s.awaken slot) [slot] := by
  have hrelinked : cfg.effectivePolicy.usesQueues = true → ∃ level set, level < cfg.levels ∧
      s.queues.location slot = some (level, set) ∧
      (s.awaken slot).queues = s.queues.relink slot level .active := by
    intro huse
    obtain ⟨⟨level, set⟩, hplace⟩ := Option.isSome_iff_exists.mp (hqueued huse)
    have hlevel : (s.queues.link slot).level? = some level := by
      simpa [Queues.location, Link.location] using congrArg (Option.map Prod.fst) hplace
    refine ⟨level, set, hq.level_lt hplace, hplace, ?_⟩
    rw [queues_awaken, if_pos huse, hlevel]
    rfl
  have hqueues : cfg.effectivePolicy.usesQueues = false → (s.awaken slot).queues = s.queues :=
    fun hnone => if_neg (by simp [hnone])
  constructor
  case record => exact fun y => by simp [record_awaken]
  case queued => simpa using hqueued
  case members =>
    intro huse l t
    obtain ⟨level, set, hl, hplace, hrelink⟩ := hrelinked huse
    have hjoins : (level, .active) = (l, t)
        ↔ t = .active ∧ (s.queues.location slot).map Prod.fst = some l := by
      simp only [hplace, Option.map_some, Option.some.injEq, Prod.mk.injEq]
      exact and_comm.trans (and_congr_left' eq_comm)
    rw [hrelink, hq.members_relink slot hl l t .active, List.filter_singleton]
    congr 1
    · simp [bne, beq_eq_decide]
    · simp only [hjoins, Bool.cond_decide]
  case location =>
    intro huse y
    obtain ⟨level, set, hl, hplace, hrelink⟩ := hrelinked huse
    rw [hrelink, hq.location_relink slot y hl .active]
    by_cases hy : y = slot
    · simp [hy, hplace]
    · simp [hy]
  case unqueued => exact hqueues
  case sound => exact sound_queues_awaken hq slot
  case quantum =>
    intro l t
    rw [queues_awaken]
    split <;> simp
  case refill =>
    rw [queues_awaken]
    split <;> simp
  case home =>
    intro y
    rw [queues_awaken]
    split <;> simp
  all_goals rfl

/-! ## One sleeper after the other -/

theorem WakesTo.isSome_location {woken : List (Fin cfg.maxProcs)} (h : s.WakesTo s₁ woken)
    (huse : cfg.effectivePolicy.usesQueues = true) (y : Fin cfg.maxProcs) :
    (s₁.queues.location y).isSome = (s.queues.location y).isSome := by
  rw [h.location huse]
  split
  case isTrue => exact Option.isSome_map
  case isFalse => rfl

/-- The first sleeper is woken, and then the rest. -/
theorem WakesTo.cons (hfirst : s.WakesTo s₁ [slot]) (hrest : s₁.WakesTo s₂ rest)
    (hslot : slot ∉ rest) : s.WakesTo s₂ (slot :: rest) := by
  constructor
  case record =>
    intro y
    rw [hrest.record, hfirst.record]
    by_cases hy : y = slot
    · simp [hy, hslot]
    · simp [hy]
  case queued =>
    intro huse y hy
    obtain rfl | hy := List.mem_cons.mp hy
    · exact hfirst.queued huse y List.mem_cons_self
    · rw [← hfirst.isSome_location huse]
      exact hrest.queued huse y hy
  case members =>
    intro huse l t
    have hlevel : ∀ y,
        (s₁.queues.location y).map Prod.fst = (s.queues.location y).map Prod.fst := by
      intro y
      rw [hfirst.location huse]
      split
      case isTrue => rw [Option.map_map]; rfl
      case isFalse => rfl
    have hmembers : s₁.queues.members l t = (s.queues.members l t).filter (· != slot) ++
        if t = .active ∧ (s.queues.location slot).map Prod.fst = some l then [slot] else [] := by
      rw [hfirst.members huse, List.filter_singleton, Bool.cond_decide]
      simp [bne, beq_eq_decide]
    rw [hrest.members huse, hmembers]
    simp only [hlevel]
    exact filter_append_filter_cons _ hslot
      fun y => t = .active ∧ (s.queues.location y).map Prod.fst = some l
  case location =>
    intro huse y
    rw [hrest.location huse, hfirst.location huse]
    by_cases hy : y = slot
    · simp [hy, hslot]
    · simp [hy]
  case unqueued => exact fun hnone => (hrest.unqueued hnone).trans (hfirst.unqueued hnone)
  case sound => exact hrest.sound
  case quantum => exact fun l t => (hrest.quantum l t).trans (hfirst.quantum l t)
  case refill => exact hrest.refill.trans hfirst.refill
  case home => exact fun y => (hrest.home y).trans (hfirst.home y)
  case nextPid => exact hrest.nextPid.trans hfirst.nextPid
  case cpus => exact hrest.cpus.trans hfirst.cpus
  case stats =>
    rw [hrest.stats, hfirst.stats]
    simp [UInt64.add_assoc, UInt64.add_comm]
  case window => exact hrest.window.trans hfirst.window

theorem wakesTo_awakenAll (hq : s.queues.Sound)
    (hqueued : cfg.effectivePolicy.usesQueues = true → ∀ y ∈ rest,
      (s.queues.location y).isSome = true)
    (hnodup : rest.Nodup) : s.WakesTo (rest.foldl awaken s) rest := by
  induction rest generalizing s with
  | nil => exact wakesTo_nil hq
  | cons slot rest ih =>
    obtain ⟨hslot, hnodup⟩ := List.nodup_cons.mp hnodup
    have hfirst := wakesTo_awaken hq fun huse => hqueued huse slot List.mem_cons_self
    refine hfirst.cons (ih hfirst.sound (fun huse y hy => ?_) hnodup) hslot
    rw [hfirst.isSome_location huse]
    exact hqueued huse y (List.mem_cons_of_mem _ hy)

end Scheduler

namespace Kernel

variable {s : Scheduler cfg} {w : Hardware cfg.maxProcs} {e : Bool} {j : Array Event}
variable {slot : Fin cfg.maxProcs}

/-- With nothing in between, the second step of waking a process completes the first. -/
theorem requeueWoken_awaken (hq : s.queues.Sound) :
    requeueWoken slot (s.table.record slot).pid
        ⟨Effect.applyAll s (wakeEffects slot), w, .holding e [] [], j⟩
      = .ok () ⟨s.awaken slot, w, .holding e [] [], j⟩ := by
  by_cases huse : cfg.effectivePolicy.usesQueues = true
  · refine (requeueWoken_apply (s := Effect.applyAll s (wakeEffects slot)) hq huse ?_).trans ?_
    · simp [wakeEffects, Effect.applyAll, Effect.apply, Record.woken]
    · rw [Scheduler.awaken, if_pos huse]
      rfl
  · rw [requeueWoken_of_not_usesQueues huse, Scheduler.awaken, if_neg huse]
    rfl

theorem wakeAmong_apply (hq : s.queues.Sound) (channel : Nat) {slots : List (Fin cfg.maxProcs)}
    (hnodup : slots.Nodup) (woken : Nat) :
    (wakeAmong cfg channel (fun _ => pure ()) woken slots : Kernel cfg Nat)
        ⟨s, w, .holding e [] [], j⟩
      = .ok (woken + (slots.filter fun y => sleepsOn channel (s.table.record y)).length)
          ⟨(slots.filter fun y => sleepsOn channel (s.table.record y)).foldl Scheduler.awaken s,
            w, .holding e [] [], j⟩ := by
  induction slots generalizing s woken with
  | nil => rfl
  | cons slot rest ih =>
    obtain ⟨hslot, hnodup⟩ := List.nodup_cons.mp hnodup
    have hfirst := wakeSleeper_apply (s := s) (w := w) (e := e) (j := j) channel slot
    rw [List.filter_cons]
    split at hfirst
    case isTrue hsleeps =>
      have hkept : (rest.filter fun y => sleepsOn channel ((s.awaken slot).table.record y))
          = rest.filter fun y => sleepsOn channel (s.table.record y) := by
        refine List.filter_congr fun y hy => ?_
        rw [Scheduler.record_awaken, if_neg (ne_of_mem_of_not_mem hy hslot)]
      rw [if_pos hsleeps]
      refine (bind_of_ok hfirst).trans ((bind_of_ok (requeueWoken_awaken hq)).trans ?_)
      rw [ih (Scheduler.sound_queues_awaken hq slot) hnodup, hkept, List.length_cons,
        List.foldl_cons, Nat.add_right_comm, Nat.add_assoc]
    case isFalse hawake =>
      rw [if_neg hawake]
      exact (bind_of_ok hfirst).trans (ih hq hnodup woken)

/-- A wakeup wakes the sleepers on its channel one after the other and answers how many they
are. -/
theorem wakeup_apply (hq : s.queues.Sound) (channel : Nat) :
    (wakeup cfg channel (fun _ => pure ()) : Kernel cfg Nat) ⟨s, w, .holding e [] [], j⟩
      = .ok (s.sleepers channel).length
          ⟨(s.sleepers channel).foldl Scheduler.awaken s, w, .holding e [] [], j⟩ := by
  refine (wakeAmong_apply hq channel (List.nodup_finRange _) 0).trans ?_
  rw [Nat.zero_add]
  rfl

/-- A kill marks the process that carries the pid.  If that sleeps, it is woken too. -/
theorem kill_apply (hq : s.queues.Sound) (pid : Pid) :
    (kill cfg pid (pure ()) : Kernel cfg (Except Refusal Unit)) ⟨s, w, .holding e [] [], j⟩
      = match s.table.find? pid with
        | none => .ok (.error (.noSuchProcess pid)) ⟨s, w, .holding e [] [], j⟩
        | some slot => .ok (.ok ())
            ⟨(if (s.table.record slot).state = .sleeping then s.awaken slot else s).marked slot, w,
              .holding e [] [], j.push (.killed pid (s.table.record slot).state)⟩ := by
  cases hfound : s.table.find? pid with
  | none => exact kill_of_find?_eq_none hfound _
  | some slot =>
    have hpid : ((s.marked slot).table.record slot).pid = pid := by
      simpa [Scheduler.marked] using (Table.find?_eq_some_iff.mp hfound).1.2
    rw [kill_of_find?_eq_some hfound, killEffects]
    by_cases hsleeps : (s.table.record slot).state = .sleeping
    · simp only [hsleeps, if_true]
      rw [← Scheduler.awaken_marked, Effect.applyAll_append, ← hpid]
      exact bind_of_ok (requeueWoken_awaken (s := s.marked slot) hq)
    · simp only [hsleeps, if_false]
      rfl

end Kernel

end FeedbackQueue
