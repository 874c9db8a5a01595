import FeedbackQueue.Proofs.Kernel.Sections
import FeedbackQueue.Proofs.Kernel.Sound

/-!
# Operations that answer

`Kernel.Ensures` says of an operation that it answers, with no lock left held, and that its answer
and its effects are as they should be.  `Kernel.EnsuresUnless` says the same of an operation that
may also fault in some ways.  The effects of operations one after another are the effects of the
first and then those of the second.
-/

namespace FeedbackQueue

namespace Kernel

variable {cfg : Config} {α β : Type} {s : Scheduler cfg}

/-- With no lock held, the operation answers.  Answer and effects satisfy the postcondition, each
effect is allowed when its turn comes, and no lock is held afterwards. -/
def Ensures (op : Kernel cfg α) (s : Scheduler cfg) (post : α → List (Effect cfg) → Prop) : Prop :=
  ∀ w e j, ∃ a effects w' e' j', post a effects ∧ Effect.AllowedAll s effects ∧
    op ⟨s, w, .holding e [] [], j⟩
      = .ok a ⟨Effect.applyAll s effects, w', .holding e' [] [], j'⟩

namespace Ensures

variable {x : Kernel cfg α} {f : α → Kernel cfg β} {a : α}
variable {pre : α → List (Effect cfg) → Prop} {post : β → List (Effect cfg) → Prop}

theorem pure (h : pre a []) : Ensures (pure a) s pre :=
  fun w e j => ⟨a, [], w, e, j, h, trivial, rfl⟩

theorem mono {post : α → List (Effect cfg) → Prop} (hx : Ensures x s pre)
    (h : ∀ a effects, pre a effects → Effect.AllowedAll s effects → post a effects) :
    Ensures x s post := by
  intro w e j
  obtain ⟨a, effects, w', e', j', hpre, hallowed, heq⟩ := hx w e j
  exact ⟨a, effects, w', e', j', h a effects hpre hallowed, hallowed, heq⟩

theorem bind (hx : Ensures x s pre)
    (hf : ∀ a effects, pre a effects → Effect.AllowedAll s effects →
      Ensures (f a) (Effect.applyAll s effects) fun b more => post b (effects ++ more)) :
    Ensures (x >>= f) s post := by
  intro w e j
  obtain ⟨a, effects, w₁, e₁, j₁, hpre, hallowed, heq⟩ := hx w e j
  obtain ⟨b, more, w₂, e₂, j₂, hpost, hmore, heq'⟩ := hf a effects hpre hallowed w₁ e₁ j₁
  refine ⟨b, effects ++ more, w₂, e₂, j₂, hpost, Effect.allowedAll_append.mpr ⟨hallowed, hmore⟩, ?_⟩
  rw [bind_of_ok heq, heq', Effect.applyAll_append]

end Ensures

/-- With no lock held, the operation answers as `Ensures` says, or it faults in one of some ways. -/
def EnsuresUnless (may : Fault → Prop) (op : Kernel cfg α) (s : Scheduler cfg)
    (post : α → List (Effect cfg) → Prop) : Prop :=
  ∀ w e j, (∃ fault m, may fault ∧ op ⟨s, w, .holding e [] [], j⟩ = .error fault m) ∨
    ∃ a effects w' e' j', post a effects ∧ Effect.AllowedAll s effects ∧
      op ⟨s, w, .holding e [] [], j⟩
        = .ok a ⟨Effect.applyAll s effects, w', .holding e' [] [], j'⟩

theorem Ensures.unless {op : Kernel cfg α} {post : α → List (Effect cfg) → Prop}
    (h : Ensures op s post) (may : Fault → Prop) : EnsuresUnless may op s post :=
  fun w e j => .inr (h w e j)

namespace EnsuresUnless

variable {may : Fault → Prop} {x : Kernel cfg α} {f : α → Kernel cfg β} {a : α}
variable {pre : α → List (Effect cfg) → Prop} {post : β → List (Effect cfg) → Prop}

theorem pure (h : pre a []) : EnsuresUnless may (pure a) s pre :=
  (Ensures.pure h).unless may

theorem mono {post : α → List (Effect cfg) → Prop} (hx : EnsuresUnless may x s pre)
    (h : ∀ a effects, pre a effects → Effect.AllowedAll s effects → post a effects) :
    EnsuresUnless may x s post := by
  intro w e j
  obtain hfault | ⟨a, effects, w', e', j', hpre, hallowed, heq⟩ := hx w e j
  · exact .inl hfault
  · exact .inr ⟨a, effects, w', e', j', h a effects hpre hallowed, hallowed, heq⟩

theorem bind (hx : EnsuresUnless may x s pre)
    (hf : ∀ a effects, pre a effects → Effect.AllowedAll s effects →
      EnsuresUnless may (f a) (Effect.applyAll s effects) fun b more => post b (effects ++ more)) :
    EnsuresUnless may (x >>= f) s post := by
  intro w e j
  obtain ⟨fault, m, hmay, herror⟩ | ⟨a, effects, w₁, e₁, j₁, hpre, hallowed, heq⟩ := hx w e j
  · exact .inl ⟨fault, m, hmay, bind_of_error herror⟩
  · obtain ⟨fault, m, hmay, herror⟩ | ⟨b, more, w₂, e₂, j₂, hpost, hmore, heq'⟩ :=
      hf a effects hpre hallowed w₁ e₁ j₁
    · exact .inl ⟨fault, m, hmay, (bind_of_ok heq).trans herror⟩
    · refine .inr ⟨b, effects ++ more, w₂, e₂, j₂, hpost,
        Effect.allowedAll_append.mpr ⟨hallowed, hmore⟩, ?_⟩
      rw [bind_of_ok heq, heq', Effect.applyAll_append]

end EnsuresUnless

end Kernel

end FeedbackQueue
