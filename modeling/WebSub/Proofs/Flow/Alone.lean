import WebSub.Proofs.Interleaving.Shared
import WebSub.Service.Basic

/-!
# Flows that run alone

What a flow comes to while no other one has its turn, however its requests are answered.
-/

namespace WebSub

open Interleaving

/-- How a request may be answered, and what is shared before and after. -/
abbrev Answering : Type := (w w' : Shared) → (q : Request) → q.Answer → Prop

namespace Flow

variable {α β ε : Type} {R : Answering} {w : Shared}

/-- Alone, the flow ends with a result: there is an answer to each of its requests, it never breaks
down, and whatever it is answered, its result and what is shared then are as they should be. -/
def Ensures (R : Answering) : Flow α → Shared → (Shared → α → Prop) → Prop
  | .done a, w, good => good w a
  | .crash, _, _ => False
  | .ask q next, w, good =>
    (∃ w' a, R w w' q a) ∧ ∀ w' a, R w w' q a → (next a).Ensures R w' good

theorem Ensures.bind {f : Flow α} {g : α → Flow β} {good : Shared → α → Prop}
    {better : Shared → β → Prop} (h : f.Ensures R w good)
    (rest : ∀ w' a, good w' a → (g a).Ensures R w' better) : (f.bind g).Ensures R w better := by
  induction f generalizing w with
  | done a => exact rest w a h
  | crash => exact h
  | ask q next ih => exact ⟨h.1, fun w' a answer => ih a (h.2 w' a answer)⟩

theorem Ensures.weaken {f : Flow α} {good better : Shared → α → Prop} (h : f.Ensures R w good)
    (weaker : ∀ w' a, good w' a → better w' a) : f.Ensures R w better := by
  induction f generalizing w with
  | done a => exact weaker w a h
  | crash => exact h
  | ask q next ih => exact ⟨h.1, fun w' a answer => ih a (h.2 w' a answer)⟩

theorem Ensures.exists_both {f : Flow α} {good good' : Shared → α → Prop}
    (h : f.Ensures R w good) (h' : f.Ensures R w good') : ∃ w' a, good w' a ∧ good' w' a := by
  induction f generalizing w with
  | done a => exact ⟨w, a, h, h'⟩
  | crash => exact h.elim
  | ask q next ih =>
    obtain ⟨w', a, answer⟩ := h.1
    exact ih a (h.2 w' a answer) (h'.2 w' a answer)

theorem Ensures.run_bind {x : ExceptT ε Flow α} {g : α → ExceptT ε Flow β}
    {good : Shared → Except ε α → Prop} {better : Shared → Except ε β → Prop}
    (h : Ensures R x.run w good) (fails : ∀ w' e, good w' (.error e) → better w' (.error e))
    (rest : ∀ w' a, good w' (.ok a) → Ensures R (g a).run w' better) :
    Ensures R (x >>= g).run w better := by
  refine h.bind fun w' a ha => ?_
  cases a with
  | ok a => exact rest w' a ha
  | error e => exact fails w' e ha

end Flow

/-! ## What a flow leaves alone -/

/-- Only subscriptions may differ. -/
def Within (w w' : Shared) : Prop := w' = { w with subscriptions := w'.subscriptions }

theorem Within.trans {w w₁ w₂ : Shared} (first : Within w w₁) (second : Within w₁ w₂) :
    Within w w₂ := by
  unfold Within at *
  rw [second, first]

/-! ## Nothing fails -/

/-- The store of subscriptions carries out every call, and the clock shows `t`; beside them,
anything may be answered that ever is. -/
def Undisturbed (t : Instant) (w w' : Shared) : (q : Request) → q.Answer → Prop
  | .now, a => a = t ∧ w' = w
  | .subscriptions c, a => a = (w.subscriptions.answer c).1 ∧
    w' = { w with subscriptions := (w.subscriptions.answer c).2 }
  | q, a => w.Answers w' q a

namespace Undisturbed

variable {α : Type} {t : Instant} {w : Shared} {good : Shared → α → Prop}

theorem ensures_now {next : Instant → Flow α} (h : (next t).Ensures (Undisturbed t) w good) :
    (Flow.ask .now next).Ensures (Undisturbed t) w good := by
  refine ⟨⟨w, t, rfl, rfl⟩, ?_⟩
  rintro w' a ⟨rfl, rfl⟩
  exact h

theorem ensures_subscriptions {c : Store.SubscriptionCall} {next : c.Answer → Flow α}
    (h : (next (w.subscriptions.answer c).1).Ensures (Undisturbed t)
      { w with subscriptions := (w.subscriptions.answer c).2 } good) :
    (Flow.ask (.subscriptions c) next).Ensures (Undisturbed t) w good := by
  refine ⟨⟨_, _, rfl, rfl⟩, ?_⟩
  rintro w' a ⟨rfl, rfl⟩
  exact h

theorem ensures_call {c : Store.SubscriptionCall} {v : c.Value}
    {good : Shared → Except Service.Error c.Value → Prop}
    (answer : (w.subscriptions.answer c).1 = some (.ok v))
    (h : good { w with subscriptions := (w.subscriptions.answer c).2 } (.ok v)) :
    Flow.Ensures (Undisturbed t) (Service.call c).run w good := by
  refine ensures_subscriptions ?_
  rw [answer]
  exact h

end Undisturbed

end WebSub
