import FeedbackQueue.Proofs.Config
import FeedbackQueue.Proofs.Kernel.Effects
import FeedbackQueue.Proofs.Process.Table
import FeedbackQueue.Proofs.Queue.Sound

/-!
# Sound schedulers

`Scheduler.Sound` is the invariant of the scheduler: records, queues and CPUs agree with each other.
A fresh scheduler has it, and every allowed effect keeps it (`Sound.apply`), so that it holds
wherever effects lead (`Sound.applyAll`).
-/

namespace FeedbackQueue

/-- A process in one of these states has a place in the queues, if there are any. -/
def ProcState.isQueued : ProcState → Bool
  | sleeping | runnable | running => true
  | _ => false

namespace Scheduler

variable {cfg : Config}

/-- Records, queues and CPUs agree: the queues are sound and hold exactly the processes that belong
there, only sleepers have a channel, and a process is running exactly when one CPU runs it. -/
structure Sound (s : Scheduler cfg) : Prop where
  queues : s.queues.Sound
  isLinked_eq : ∀ slot, s.queues.isLinked slot
    = (cfg.effectivePolicy.usesQueues && (s.table.record slot).state.isQueued)
  channel : ∀ slot, (s.table.record slot).channel.isSome = true
    ↔ (s.table.record slot).state = .sleeping
  running : ∀ slot, (s.table.record slot).state = .running
    ↔ ∃ cpu, (s.cpu cpu).current = some slot
  exclusive : ∀ cpu cpu' slot, (s.cpu cpu).current = some slot →
    (s.cpu cpu').current = some slot → cpu = cpu'
  cursor_lt : ∀ cpu, (s.cpu cpu).cursor < cfg.maxProcs

theorem sound_fresh (hv : cfg.IsValid) : (fresh cfg).Sound where
  queues := Queues.sound_empty _ _ hv.levels_pos _
  isLinked_eq slot := by
    simp [fresh, Queues.isLinked, Queues.empty, Queues.link, Link.detached, Link.isLinked,
      Record.vacant, ProcState.isQueued]
  channel slot := by simp [fresh, Record.vacant]
  running slot := by simp [fresh, Record.vacant, Scheduler.cpu]
  exclusive cpu cpu' slot h := by simp [fresh, Scheduler.cpu] at h
  cursor_lt cpu := by simpa [fresh, Scheduler.cpu] using hv.maxProcs_pos

namespace Sound

variable {s s' : Scheduler cfg}

/-- A process that no CPU runs is not running. -/
theorem not_current (h : s.Sound) {slot : Fin cfg.maxProcs}
    (hstate : (s.table.record slot).state ≠ .running) (cpu : Fin cfg.ncpu) :
    (s.cpu cpu).current ≠ some slot :=
  fun hcurrent => hstate ((h.running slot).mpr ⟨cpu, hcurrent⟩)

/-- A process that belongs into the queues has a place there. -/
theorem exists_location (h : s.Sound) (slot : Fin cfg.maxProcs)
    (huse : cfg.effectivePolicy.usesQueues = true)
    (hqueued : (s.table.record slot).state.isQueued = true) :
    ∃ level set, s.queues.location slot = some (level, set) := by
  have hlinked := h.isLinked_eq slot
  rw [huse, hqueued, Bool.true_and, Queues.isLinked_eq_isSome_location] at hlinked
  obtain ⟨⟨level, set⟩, hplace⟩ := Option.isSome_iff_exists.mp hlinked
  exact ⟨level, set, hplace⟩

/-- A process that has a place belongs into the queues. -/
theorem queued_of_location (h : s.Sound) {slot : Fin cfg.maxProcs} {level : Nat} {set : QueueSet}
    (hplace : s.queues.location slot = some (level, set)) :
    cfg.effectivePolicy.usesQueues = true ∧ (s.table.record slot).state.isQueued = true := by
  have hlinked := h.isLinked_eq slot
  rw [Queues.isLinked_eq_isSome_location, hplace] at hlinked
  exact Bool.and_eq_true_iff.mp hlinked.symm

/-! ## Effects that change no state -/

/-- Soundness depends on states, channels, links and CPUs alone. -/
theorem of_same (h : s.Sound) (hq : s'.queues.Sound)
    (hlinked : ∀ y, s'.queues.isLinked y = s.queues.isLinked y)
    (hstate : ∀ y, (s'.table.record y).state = (s.table.record y).state)
    (hchannel : ∀ y, (s'.table.record y).channel = (s.table.record y).channel)
    (hcurrent : ∀ cpu, (s'.cpu cpu).current = (s.cpu cpu).current)
    (hcursor : ∀ cpu, (s'.cpu cpu).cursor < cfg.maxProcs) : s'.Sound where
  queues := hq
  isLinked_eq y := by rw [hlinked, hstate, h.isLinked_eq]
  channel y := by rw [hchannel, hstate, h.channel]
  running y := by simp only [hstate, hcurrent, h.running]
  exclusive cpu cpu' y := by
    rw [hcurrent, hcurrent]
    exact h.exclusive cpu cpu' y
  cursor_lt := hcursor

/-- An edit of a record that touches neither state nor channel. -/
theorem adjust (h : s.Sound) (slot : Fin cfg.maxProcs) {f : Record → Record}
    (hstate : ∀ r, (f r).state = r.state) (hchannel : ∀ r, (f r).channel = r.channel) :
    ({ s with table := s.table.adjust slot f } : Scheduler cfg).Sound :=
  h.of_same h.queues (fun _ => rfl) (fun y => s.table.field_adjust slot y Record.state hstate)
    (fun y => s.table.field_adjust slot y Record.channel hchannel) (fun _ => rfl) h.cursor_lt

/-- A move of the queues that leaves every process where it belongs. -/
theorem setQueues (h : s.Sound) {q : Queues cfg.levels cfg.maxProcs} (hq : q.Sound)
    (hlinked : ∀ y, q.isLinked y = s.queues.isLinked y) (stats : Statistics) :
    ({ s with queues := q, stats } : Scheduler cfg).Sound :=
  h.of_same hq hlinked (fun _ => rfl) (fun _ => rfl) (fun _ => rfl) h.cursor_lt

/-- A process that is moved within the queues. -/
theorem relink (h : s.Sound) (slot : Fin cfg.maxProcs) {level : Nat} (hl : level < cfg.levels)
    (set : QueueSet) (hlinked : s.queues.isLinked slot = true) :
    ({ s with queues := s.queues.relink slot level set } : Scheduler cfg).Sound := by
  refine h.setQueues (h.queues.relink slot hl set) (fun y => ?_) s.stats
  rw [h.queues.isLinked_relink slot y hl set]
  by_cases hy : y = slot
  · simp [hy, hlinked]
  · simp [hy]

theorem aim (h : s.Sound) (cpu : Fin cfg.ncpu) {cursor : Nat} (hc : cursor < cfg.maxProcs) :
    ({ s with cpus := s.replaceCpu cpu { s.cpu cpu with cursor } } : Scheduler cfg).Sound := by
  refine h.of_same h.queues (fun _ => rfl) (fun _ => rfl) (fun _ => rfl) (fun c => ?_) (fun c => ?_)
  · rw [cpu_set]
    split
    case isTrue hcpu => rw [hcpu]
    case isFalse => rfl
  · rw [cpu_set]
    split
    · exact hc
    · exact h.cursor_lt c

/-! ## Effects that move one process from state to state -/

/-- What has to be seen to when a single process changes its state while every CPU goes on with what
it runs. -/
theorem of_change (h : s.Sound) (slot : Fin cfg.maxProcs) (hq : s'.queues.Sound)
    (hcpus : s'.cpus = s.cpus)
    (hlinked : ∀ y ≠ slot, s'.queues.isLinked y = s.queues.isLinked y)
    (hrecord : ∀ y ≠ slot, s'.table.record y = s.table.record y)
    (hslot : s'.queues.isLinked slot
      = (cfg.effectivePolicy.usesQueues && (s'.table.record slot).state.isQueued))
    (hchannel : (s'.table.record slot).channel.isSome = true
      ↔ (s'.table.record slot).state = .sleeping)
    (hbefore : (s.table.record slot).state ≠ .running)
    (hafter : (s'.table.record slot).state ≠ .running) : s'.Sound := by
  have hcpu : ∀ c, s'.cpu c = s.cpu c := fun c => by simp only [Scheduler.cpu, hcpus]
  constructor
  case queues => exact hq
  case isLinked_eq =>
    intro y
    by_cases hy : y = slot
    · rw [hy, hslot]
    · rw [hlinked y hy, hrecord y hy, h.isLinked_eq]
  case channel =>
    intro y
    by_cases hy : y = slot
    · rw [hy, hchannel]
    · rw [hrecord y hy, h.channel]
  case running =>
    intro y
    simp only [hcpu]
    by_cases hy : y = slot
    · subst hy
      simp only [hafter, false_iff, not_exists]
      exact h.not_current hbefore
    · rw [hrecord y hy, h.running]
  case exclusive => simpa only [hcpu] using h.exclusive
  case cursor_lt => simpa only [hcpu] using h.cursor_lt

theorem create (h : s.Sound) (slot : Fin cfg.maxProcs) (name : String) (parent : Option Pid)
    {home : Nat} (hfree : (s.table.record slot).state = .unused) (hhome : home < cfg.levels) :
    ((Effect.create slot name parent home).apply s).Sound := by
  have hlinked : s.queues.isLinked slot = false := by
    simp [h.isLinked_eq, hfree, ProcState.isQueued]
  have hlocation := fun y => Queues.Sound.location_detach slot y s.queues home
  refine h.of_change slot (h.queues.detach slot hlinked hhome) rfl ?_ ?_ ?_ ?_ (by simp [hfree]) ?_
  · intro y hy
    simp only [Effect.apply, Queues.isLinked_eq_isSome_location, hlocation, if_neg hy]
  · intro y hy
    simp only [Effect.apply, Table.record_adjust, Table.record_claim, if_neg hy]
  · simp [Effect.apply, Queues.isLinked_eq_isSome_location, hlocation, ProcState.isQueued]
  all_goals simp [Effect.apply, Record.vacant]

theorem activate (h : s.Sound) (slot : Fin cfg.maxProcs)
    (hused : (s.table.record slot).state = .used) :
    ((Effect.activate slot).apply s).Sound := by
  have hhome := h.queues.home_lt slot
  have hchannel : (s.table.record slot).channel = none := by
    simpa [hused] using h.channel slot
  refine h.of_change slot ?_ rfl ?_ ?_ ?_ ?_ (by simp [hused]) (by simp [Effect.apply])
  · simp only [Effect.apply]
    split
    · exact h.queues.relink slot hhome .active
    · exact h.queues
  · intro y hy
    simp only [Effect.apply]
    split
    · simp [h.queues.isLinked_relink slot y hhome .active, hy]
    · rfl
  · intro y hy
    simp only [Effect.apply, Table.record_adjust, if_neg hy]
  · simp only [Effect.apply, Table.record_adjust_self]
    split
    case isTrue huse =>
      simp [h.queues.isLinked_relink slot slot hhome .active, huse, ProcState.isQueued]
    case isFalse huse => simp [h.isLinked_eq, huse]
  · simp [Effect.apply, hchannel]

theorem reap (h : s.Sound) (slot : Fin cfg.maxProcs)
    (hzombie : (s.table.record slot).state = .zombie) : ((Effect.reap slot).apply s).Sound := by
  refine h.of_change slot h.queues rfl (fun _ _ => rfl) ?_ ?_ ?_ (by simp [hzombie]) ?_
  · intro y hy
    simp only [Effect.apply, Table.record_adjust, if_neg hy]
  · simp [Effect.apply, h.isLinked_eq, hzombie, Record.vacant, ProcState.isQueued]
  all_goals simp [Effect.apply, Record.vacant]

theorem wake (h : s.Sound) (slot : Fin cfg.maxProcs)
    (hsleeping : (s.table.record slot).state = .sleeping) : ((Effect.wake slot).apply s).Sound := by
  refine h.of_change slot h.queues rfl (fun _ _ => rfl) ?_ ?_ ?_ (by simp [hsleeping]) ?_
  · intro y hy
    simp only [Effect.apply, Table.record_adjust, if_neg hy]
  · simp [Effect.apply, h.isLinked_eq, hsleeping, Record.woken, ProcState.isQueued]
  all_goals simp [Effect.apply, Record.woken]

/-! ## Effects that change what a CPU runs -/

theorem dispatch (h : s.Sound) (cpu : Fin cfg.ncpu) (slot : Fin cfg.maxProcs)
    (hrunnable : (s.table.record slot).state = .runnable) (hidle : (s.cpu cpu).current = none) :
    ((Effect.dispatch cpu slot).apply s).Sound := by
  have hfree := h.not_current (show (s.table.record slot).state ≠ .running by simp [hrunnable])
  constructor
  case queues => exact h.queues
  case isLinked_eq =>
    intro y
    simp only [Effect.apply, Table.record_adjust, h.isLinked_eq]
    by_cases hy : y = slot
    · simp [hy, hrunnable, ProcState.isQueued]
    · rw [if_neg hy]
  case channel =>
    intro y
    simp only [Effect.apply, Table.record_adjust]
    by_cases hy : y = slot
    · simpa [hy, hrunnable] using h.channel slot
    · rw [if_neg hy, h.channel]
  case running =>
    intro y
    simp only [Effect.apply, Table.record_adjust, cpu_set]
    by_cases hy : y = slot
    · simp only [hy, if_true, true_iff]
      exact ⟨cpu, by simp⟩
    · rw [if_neg hy, h.running]
      refine exists_congr fun c => ?_
      by_cases hc : c = cpu
      · simp [hc, hidle, Ne.symm hy]
      · rw [if_neg hc]
  case exclusive =>
    intro c c' y
    simp only [Effect.apply, cpu_set]
    split <;> split
    case isTrue.isTrue hc hc' => exact fun _ _ => hc.trans hc'.symm
    case isTrue.isFalse =>
      rintro hy hy'
      obtain rfl : slot = y := Option.some.inj hy
      exact absurd hy' (hfree c')
    case isFalse.isTrue =>
      rintro hy hy'
      obtain rfl : slot = y := Option.some.inj hy'
      exact absurd hy (hfree c)
    case isFalse.isFalse => exact h.exclusive c c' y
  case cursor_lt =>
    intro c
    simp only [Effect.apply, cpu_set]
    split
    · exact h.cursor_lt cpu
    · exact h.cursor_lt c

/-- The queues when a process gives its CPU back. -/
theorem queues_stop (h : s.Sound) (cpu : Fin cfg.ncpu) (slot : Fin cfg.maxProcs) (ending : Ending)
    (hcurrent : (s.cpu cpu).current = some slot) :
    ((Effect.stop cpu slot ending).apply s).queues.Sound ∧
      ∀ y, ((Effect.stop cpu slot ending).apply s).queues.isLinked y
        = (cfg.effectivePolicy.usesQueues &&
            if y = slot then (ending.record (s.table.record slot)).state.isQueued
            else (s.table.record y).state.isQueued) := by
  have hstate := (h.running slot).mpr ⟨cpu, hcurrent⟩
  have hsame : ∀ y, s.queues.isLinked y
      = (cfg.effectivePolicy.usesQueues && if y = slot then true
          else (s.table.record y).state.isQueued) := by
    intro y
    rw [h.isLinked_eq]
    by_cases hy : y = slot
    · simp [hy, hstate, ProcState.isQueued]
    · rw [if_neg hy]
  cases ending with
  | yield => exact ⟨h.queues, hsame⟩
  | sleep channel => exact ⟨h.queues, hsame⟩
  | exit status =>
    simp only [Effect.apply]
    cases huse : cfg.effectivePolicy.usesQueues with
    | false =>
      refine ⟨h.queues, fun y => ?_⟩
      simp [hsame, huse]
    | true =>
      refine ⟨h.queues.remove slot, fun y => ?_⟩
      simp only [if_true, Queues.Sound.isLinked_remove, hsame, huse]
      by_cases hy : y = slot <;> simp [hy, Ending.record, ProcState.isQueued]

theorem stop (h : s.Sound) (cpu : Fin cfg.ncpu) (slot : Fin cfg.maxProcs) (ending : Ending)
    (hcurrent : (s.cpu cpu).current = some slot) :
    ((Effect.stop cpu slot ending).apply s).Sound := by
  obtain ⟨hq, hlinked⟩ := h.queues_stop cpu slot ending hcurrent
  have hstate := (h.running slot).mpr ⟨cpu, hcurrent⟩
  have hchannel : (s.table.record slot).channel = none := by simpa [hstate] using h.channel slot
  have hrecord : ∀ y, (((Effect.stop cpu slot ending).apply s).table.record y)
      = if y = slot then ending.record (s.table.record slot) else s.table.record y := by
    intro y
    simp only [Effect.apply, Table.record_adjust]
  have hcpu : ∀ c, (((Effect.stop cpu slot ending).apply s).cpu c)
      = if c = cpu then { s.cpu cpu with current := none } else s.cpu c := by
    intro c
    simp only [Effect.apply, cpu_set]
  constructor
  case queues => exact hq
  case isLinked_eq =>
    intro y
    rw [hlinked, hrecord]
    split <;> rfl
  case channel =>
    intro y
    rw [hrecord]
    split
    · cases ending <;> simp [Ending.record, hchannel]
    · exact h.channel y
  case running =>
    intro y
    simp only [hrecord, hcpu]
    by_cases hy : y = slot
    · have hstopped : (ending.record (s.table.record slot)).state ≠ .running := by
        cases ending <;> simp [Ending.record]
      simp only [hy, if_true, hstopped, false_iff, not_exists]
      intro c
      split
      case isTrue => simp
      case isFalse hc => exact fun hslot => hc (h.exclusive c cpu slot hslot hcurrent)
    · rw [if_neg hy, h.running]
      refine exists_congr fun c => ?_
      by_cases hc : c = cpu
      · simp [hc, hcurrent, Ne.symm hy]
      · rw [if_neg hc]
  case exclusive =>
    intro c c' y
    simp only [hcpu]
    split <;> split
    case isFalse.isFalse => exact h.exclusive c c' y
    all_goals simp
  case cursor_lt =>
    intro c
    rw [hcpu]
    split
    · exact h.cursor_lt cpu
    · exact h.cursor_lt c

/-! ## Every effect -/

/-- An allowed effect keeps a scheduler sound. -/
theorem apply (h : s.Sound) {effect : Effect cfg} (ha : effect.Allowed s) :
    (effect.apply s).Sound := by
  cases effect with
  | create slot name parent home => exact h.create slot name parent ha.1 ha.2
  | activate slot => exact h.activate slot ha
  | reap slot => exact h.reap slot ha
  | mark slot => exact h.adjust slot (fun _ => rfl) (fun _ => rfl)
  | charge slot => exact h.adjust slot (fun _ => rfl) (fun _ => rfl)
  | refill slot => exact h.adjust slot (fun _ => rfl) (fun _ => rfl)
  | wake slot => exact h.wake slot ha
  | dispatch cpu slot => exact h.dispatch cpu slot ha.1 ha.2.1
  | stop cpu slot ending => exact h.stop cpu slot ending ha
  | aim cpu cursor => exact h.aim cpu ha
  | swap isLive =>
    exact h.setQueues (h.queues.swap isLive) (fun y => Queues.Sound.isLinked_swap y _ _) _
  | cascade source target set skip =>
    exact h.setQueues (h.queues.relinkAll set ha.2.1 _)
      (fun y => h.queues.isLinked_cascade y set skip ha.1 ha.2.1) s.stats
  | requeue slot level set =>
    obtain ⟨huse, hstate, hl⟩ := ha
    exact h.relink slot hl set (by simp [h.isLinked_eq, huse, hstate, ProcState.isQueued])
  | rejoin slot pid =>
    obtain ⟨huse, -, hstate⟩ := ha
    refine h.relink slot (h.queues.levelOrHome_lt slot) .active ?_
    obtain hstate | hstate := hstate <;> simp [h.isLinked_eq, huse, hstate, ProcState.isQueued]
  | setTicks level set value =>
    refine h.setQueues (h.queues.setTicks level set value) (fun y => ?_) s.stats
    simp [Queues.isLinked]
  | count occurrence => exact h.setQueues h.queues (fun _ => rfl) _
  | setWindow window =>
    exact h.of_same h.queues (fun _ => rfl) (fun _ => rfl) (fun _ => rfl) (fun _ => rfl) h.cursor_lt

/-- Wherever allowed effects lead, the scheduler is sound. -/
theorem applyAll (h : s.Sound) {effects : List (Effect cfg)} (ha : Effect.AllowedAll s effects) :
    (Effect.applyAll s effects).Sound :=
  Effect.applyAll_induction h ha fun _ _ _ hallowed ht => ht.apply hallowed

end Sound

end Scheduler

end FeedbackQueue
