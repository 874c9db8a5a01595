import FeedbackQueue.Proofs.Kernel.Creation
import FeedbackQueue.Proofs.Kernel.Pick
import FeedbackQueue.Proofs.Kernel.Report
import FeedbackQueue.Proofs.Kernel.Timer

/-!
# What actions do

An action of the lifecycle is carried out and replied to, except for the two faults of
`Action.MayFault`.  `Performs` lists its effects together with the reply that goes with them: a pick
may exchange the sets, and all other effects are plain.
-/

namespace FeedbackQueue

open Kernel

variable {cfg : Config} {s : Scheduler cfg}

/-- The faults that an action may end in: a tick that charges a queue below the least number of
ticks, and a pick by table scan on a table that is too large. -/
def Action.MayFault (cfg : Config) : Action → Fault → Prop
  | .tick .., fault => fault = .overflow .subtract
  | .pick _, fault => ScanFault cfg fault
  | _, _ => False

/-- Whether a reply tells of a process that was created. -/
def Reply.isCreated {nproc : Nat} : Reply nproc → Bool
  | .created .. => true
  | _ => false

/-- Whether a reply tells of a process that was reaped. -/
def Reply.isReaped {nproc : Nat} : Reply nproc → Bool
  | .reaped .. => true
  | _ => false

/-- What an action does to a scheduler, and the reply that goes with it. -/
inductive Performs (s : Scheduler cfg) : Action → Reply cfg.maxProcs → List (Effect cfg) → Prop
  | create {name : String} {priority : Option Nat} {parent : Option Pid} {slot : Fin cfg.maxProcs}
    {home : Nat} {pid : Pid} :
    Performs s (.create name priority parent) (.created slot pid) [.create slot name parent home]
  | fork {name : String} {priority : Option Nat} {parent : Option Pid} {slot : Fin cfg.maxProcs}
    {home : Nat} {pid : Pid} :
    Performs s (.fork name priority parent) (.created slot pid)
      [.create slot name parent home, .activate slot, .count .fork]
  | activate (slot : Fin cfg.maxProcs) :
    Performs s (.activate slot) .done [.activate slot, .count .fork]
  | pick {cpu : Fin cfg.ncpu} {found : Option (Fin cfg.maxProcs)} {effects : List (Effect cfg)}
    (picks : Picks s cpu found effects) : Performs s (.pick cpu) (.slot found) effects
  | setKilled (slot : Fin cfg.maxProcs) : Performs s (.setKilled slot) .done [.mark slot]
  | reap (slot : Fin cfg.maxProcs) {pid : Pid} {status : Int32} :
    Performs s (.reap slot) (.reaped pid status) [.reap slot]
  | tick {cpu : Fin cfg.ncpu} {count : Nat} {flags : List Bool} {effects : List (Effect cfg)}
    (charges : ChargesAll cpu s flags effects) : Performs s (.tick cpu count) (.flags flags) effects
  | window {action : Action} {window : Window} : Performs s action .done [.setWindow window]
  | look {action : Action} {reply : Reply cfg.maxProcs} (created : reply.isCreated = false)
    (reaped : reply.isReaped = false) : Performs s action reply []

/-- Only a pick has effects that are not plain. -/
theorem Performs.pick_or_plain {action : Action} {reply : Reply cfg.maxProcs}
    {effects : List (Effect cfg)} (h : Performs s action reply effects) :
    (∃ cpu found, Picks s cpu found effects) ∨ ∀ effect ∈ effects, effect.isPlain = true := by
  cases h with
  | @pick cpu found effects picks => exact .inl ⟨cpu, found, picks⟩
  | @tick cpu count flags effects charges =>
    refine .inr fun effect hmem => ?_
    have hcharge := charges.isCharge effect hmem
    cases effect <;> first | rfl | cases hcharge
  | _ => simp [Effect.isPlain]

theorem Performs.not_isSwitch {action : Action} {reply : Reply cfg.maxProcs}
    {effects : List (Effect cfg)} (h : Performs s action reply effects) :
    ∀ effect ∈ effects, effect.isSwitch = false := by
  obtain ⟨cpu, found, picks⟩ | plain := h.pick_or_plain
  · exact picks.not_isSwitch
  · exact fun effect hmem => Effect.isSwitch_of_isPlain (plain effect hmem)

namespace Action

/-! ## Answers -/

theorem look_ensures {slot : Nat} (hslot : slot < cfg.maxProcs) :
    Ensures (look slot) s fun r effects => r = s.table.record ⟨slot, hslot⟩ ∧ effects = [] := by
  intro w e j
  refine ⟨_, [], w, e, j, ⟨rfl, rfl⟩, trivial, ?_⟩
  rw [look, bind_of_ok (slotAt_apply hslot _), peek_apply ⟨slot, hslot⟩ (by simp) (by simp)]
  rfl

theorem find_ensures (pid : Pid) : Ensures (Kernel.find pid) s fun found effects =>
    found = s.table.find? pid ∧ effects = [] :=
  fun w e j => ⟨_, [], w, e, j, ⟨rfl, rfl⟩, trivial, find_apply pid⟩

/-! ## Every action -/

section Perform

variable {action : Action}

/-- An answer is put into words without any effect. -/
theorem performs_of_answer {α : Type} {x : Kernel cfg α} {g : α → Reply cfg.maxProcs}
    {may : Fault → Prop}
    (hx : EnsuresUnless may x s fun a effects => Performs s action (g a) effects) :
    EnsuresUnless may (do return g (← x)) s (Performs s action) :=
  hx.bind fun _ effects hperforms _ => .pure (by rwa [List.append_nil])

/-- An action that only looks. -/
theorem performs_of_look {α : Type} {x : Kernel cfg α} {g : α → Reply cfg.maxProcs}
    {may : Fault → Prop} {p : α → Prop} (hx : Ensures x s fun a effects => p a ∧ effects = [])
    (hcreated : ∀ a, (g a).isCreated = false) (hreaped : ∀ a, (g a).isReaped = false) :
    EnsuresUnless may (do return g (← x)) s (Performs s action) :=
  performs_of_answer <| (hx.mono fun a _ h _ => h.2 ▸ .look (hcreated a) (hreaped a)).unless _

theorem performs_report (limit : Option Nat) (text : String) :
    Performs s action (.ofReport limit text) [] := by
  cases limit <;> exact .look rfl rfl

/-- The reply to a creation, from the scheduler that it leaves. -/
def creationReply (s : Scheduler cfg) : Except Refusal (Fin cfg.maxProcs) → Reply cfg.maxProcs
  | .error refusal => .refused refusal
  | .ok slot => .created slot (s.table.record slot).pid

/-- A creation is put into words without any effect. -/
theorem creation_ensures {x : Kernel cfg (Except Refusal (Fin cfg.maxProcs))}
    {post : Except Refusal (Fin cfg.maxProcs) → List (Effect cfg) → Prop} (hx : Ensures x s post) :
    Ensures (do creation (← x)) s fun reply effects =>
      ∃ outcome, post outcome effects ∧
        reply = creationReply (Effect.applyAll s effects) outcome := by
  refine hx.bind fun outcome effects hpost _ => ?_
  intro w e j
  refine ⟨creationReply (Effect.applyAll s effects) outcome, [], w, e, j, ?_, trivial, ?_⟩
  · dsimp only
    rw [List.append_nil]
    exact ⟨outcome, hpost, rfl⟩
  · cases outcome with
    | error refusal => rfl
    | ok slot => exact bind_of_ok (peek_apply slot (by simp) (by simp))

/-- A creation is refused, and then it has no effect, or it is told with its slot. -/
theorem performs_of_creation {x : Kernel cfg (Except Refusal (Fin cfg.maxProcs))}
    {may : Fault → Prop} {post : Except Refusal (Fin cfg.maxProcs) → List (Effect cfg) → Prop}
    (hx : Ensures x s post)
    (hrefused : ∀ refusal effects, post (.error refusal) effects → effects = [])
    (hcreated : ∀ slot effects, post (.ok slot) effects → ∀ pid,
      Performs s action (.created slot pid) effects) :
    EnsuresUnless may (do creation (← x)) s (Performs s action) := by
  refine ((creation_ensures hx).mono fun reply effects hreply _ => ?_).unless _
  obtain ⟨outcome, hpost, rfl⟩ := hreply
  cases outcome with
  | error refusal =>
    rw [hrefused refusal effects hpost]
    exact .look rfl rfl
  | ok slot => exact hcreated slot effects hpost _

theorem perform_ensures (hs : s.Sound) (hv : cfg.IsValid) (hlifecycle : action.isLifecycle = true)
    (hslot : ∀ slot ∈ action.slot?, slot < cfg.maxProcs)
    (hcpu : ∀ cpu ∈ action.cpu?, cpu < cfg.ncpu)
    (hfresh : ∀ slot ∈ action.freshSlot?, s.isFresh slot) :
    EnsuresUnless (action.MayFault cfg) action.perform s (Performs s action) := by
  cases action with
  | create name priority parent =>
    refine performs_of_creation (create_ensures hs hv name priority parent) ?_ ?_
    · intro refusal effects h
      split at h <;> simp_all
    · intro slot effects h pid
      split at h
      case h_3 =>
        obtain ⟨heq, rfl⟩ := h
        obtain rfl := Except.ok.inj heq
        exact .create
      all_goals cases h.1
  | fork name priority parent =>
    refine performs_of_creation (Kernel.fork_ensures hs hv name priority parent) ?_ ?_
    · intro refusal effects h
      split at h <;> simp_all
    · intro slot effects h pid
      split at h
      case h_3 =>
        obtain ⟨heq, rfl⟩ := h
        obtain rfl := Except.ok.inj heq
        exact .fork
      all_goals cases h.1
  | activate slot =>
    have hlt : slot < cfg.maxProcs := hslot slot rfl
    have hused : (s.table.record ⟨slot, hlt⟩).state = .used := by
      simpa [Scheduler.isFresh, hlt] using hfresh slot rfl
    exact performs_of_answer <| ((activate_ensures hs hused).mono fun _ _ h _ =>
      h ▸ .activate ⟨slot, hlt⟩).unless _
  | pick cpu =>
    exact performs_of_answer <| (pickAndDrop_ensures hs hv (hcpu cpu rfl)).mono
      fun _ _ h _ => .pick h
  | setKilled slot =>
    have hlt : slot < cfg.maxProcs := hslot slot rfl
    exact performs_of_answer <| ((setKilled_ensures ⟨slot, hlt⟩).mono fun _ _ h _ =>
      h ▸ .setKilled ⟨slot, hlt⟩).unless _
  | reap slot =>
    have hlt : slot < cfg.maxProcs := hslot slot rfl
    refine ((reap_ensures ⟨slot, hlt⟩).bind fun outcome effects h _ => ?_).unless _
    split at h
    · obtain ⟨rfl, rfl⟩ := h
      exact .pure (.reap ⟨slot, hlt⟩)
    · obtain ⟨rfl, rfl⟩ := h
      exact .pure (.look rfl rfl)
  | killed slot =>
    exact performs_of_look (look_ensures (hslot slot rfl)) (fun _ => rfl) (fun _ => rfl)
  | state slot =>
    exact performs_of_look (look_ensures (hslot slot rfl)) (fun _ => rfl) (fun _ => rfl)
  | quantum slot =>
    exact performs_of_look (look_ensures (hslot slot rfl)) (fun _ => rfl) (fun _ => rfl)
  | record slot =>
    exact performs_of_look (look_ensures (hslot slot rfl)) (fun _ => rfl) (fun _ => rfl)
  | find pid => exact performs_of_look (find_ensures pid) (fun _ => rfl) (fun _ => rfl)
  | current cpu =>
    exact performs_of_look (current_ensures (hcpu cpu rfl)) (fun _ => rfl) (fun _ => rfl)
  | tick cpu count =>
    exact performs_of_answer <| (ticks_ensures hs (hcpu cpu rfl) count).mono fun _ _ h _ => .tick h
  | dump limit =>
    exact performs_of_answer <| (dump_ensures.mono fun text _ h _ =>
      h ▸ performs_report limit text).unless _
  | listing limit =>
    exact performs_of_answer <| (listing_ensures.mono fun text _ h _ =>
      h ▸ performs_report limit text).unless _
  | openWindow ticks =>
    exact fun w e j => .inr ⟨_, [.setWindow _], w, e, _, .window, ⟨trivial, trivial⟩, rfl⟩
  | closeWindow =>
    exact fun w e j => .inr ⟨_, [.setWindow _], w, e, _, .window, ⟨trivial, trivial⟩, rfl⟩
  | windowIsOpen => exact fun w e j => .inr ⟨_, [], w, e, j, .look rfl rfl, trivial, rfl⟩
  | takeConsole =>
    exact fun w e j => .inr ⟨_, [], { w with console := "" }, e, j, .look rfl rfl, trivial, rfl⟩
  | _ => cases hlifecycle

end Perform

end Action

end FeedbackQueue
