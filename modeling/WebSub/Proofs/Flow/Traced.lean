import WebSub.Proofs.Flow.Alone
import WebSub.Proofs.Store.SubscriptionRows
import WebSub.Proofs.Subscription.Changes

/-!
# The course of a flow

What a flow goes through, request by request, while others may have their turn in between: how it
was answered, what was shared just before and after, and how it ends.
-/

namespace WebSub.Flow

open Interleaving

/-- A request as it was answered, and what was shared just before and after. -/
structure Turn where
  before : Shared
  exchange : Exchange
  after : Shared

/-- Whether a request goes to the hub. -/
def Turn.isCall (t : Turn) : Bool :=
  match t.exchange.request with
  | .hub .. | .hubUnlessStopped _ => true
  | _ => false

/-- What others may do between two requests. -/
abbrev Meanwhile : Type := Shared → Shared → Prop

namespace Meanwhile

def nothing : Meanwhile := fun w w' => w' = w

/-- Others do as they please, as long as they leave an identity to draw. -/
def anything : Meanwhile := fun _ w' => ∃ id, id ∉ w'.drawn

end Meanwhile

variable {α β ε : Type} {m : Meanwhile} {R : Answering} {past : List Turn} {w : Shared}

/-- Each request is one that there is an answer to, and whatever the flow is answered, its whole
course, what is shared at the end and its result are as they should be. A flow that breaks down has
no result; `past` is what it went through before. -/
def Leads (m : Meanwhile) (R : Answering) :
    Flow α → List Turn → Shared → (List Turn → Shared → Option α → Prop) → Prop
  | .done a, past, w, good => good past w (some a)
  | .crash, past, w, good => good past w none
  | .ask q next, past, w, good => ∀ w₁, m w w₁ →
    (∃ w₂ a, R w₁ w₂ q a) ∧
      ∀ w₂ a, R w₁ w₂ q a → (next a).Leads m R (past ++ [⟨w₁, ⟨q, a⟩, w₂⟩]) w₂ good

theorem Leads.bind {f : Flow α} {g : α → Flow β} {good : List Turn → Shared → Option α → Prop}
    {better : List Turn → Shared → Option β → Prop} (h : f.Leads m R past w good)
    (broken : ∀ past w, good past w none → better past w none)
    (rest : ∀ past w a, good past w (some a) → (g a).Leads m R past w better) :
    (f.bind g).Leads m R past w better := by
  induction f generalizing past w with
  | done a => exact rest past w a h
  | crash => exact broken past w h
  | ask q next ih =>
    intro w₁ others
    obtain ⟨possible, onward⟩ := h w₁ others
    exact ⟨possible, fun w₂ a answer => ih a (onward w₂ a answer)⟩

theorem Leads.weaken {f : Flow α} {good better : List Turn → Shared → Option α → Prop}
    (h : f.Leads m R past w good) (weaker : ∀ past w r, good past w r → better past w r) :
    f.Leads m R past w better := by
  induction f generalizing past w with
  | done a => exact weaker past w _ h
  | crash => exact weaker past w _ h
  | ask q next ih =>
    intro w₁ others
    obtain ⟨possible, onward⟩ := h w₁ others
    exact ⟨possible, fun w₂ a answer => ih a (onward w₂ a answer)⟩

theorem Leads.run_bind {x : ExceptT ε Flow α} {g : α → ExceptT ε Flow β}
    {good : List Turn → Shared → Option (Except ε α) → Prop}
    {better : List Turn → Shared → Option (Except ε β) → Prop} (h : Leads m R x.run past w good)
    (broken : ∀ past w, good past w none → better past w none)
    (fails : ∀ past w e, good past w (some (.error e)) → better past w (some (.error e)))
    (rest : ∀ past w a, good past w (some (.ok a)) → Leads m R (g a).run past w better) :
    Leads m R (x >>= g).run past w better := by
  refine h.bind broken fun past w a ha => ?_
  cases a with
  | ok a => exact rest past w a ha
  | error e => exact fails past w e ha

/-! ## Amid others -/

theorem exists_answer (w : Shared) (q : Request) (left : q = .freshId → ∃ id, id ∉ w.drawn) :
    ∃ w' a, w.Answers w' q a := by
  cases q with
  | now => exact ⟨w, (⟨0⟩ : Instant), isReading_epoch, rfl⟩
  | freshId =>
    obtain ⟨id, new⟩ := left rfl
    exact ⟨_, id, new, rfl⟩
  | subscriptions c => exact ⟨_, _, Or.inl ⟨rfl, rfl⟩⟩
  | events c => exact ⟨_, _, Or.inl ⟨rfl, rfl⟩⟩
  | hub mode r => exact ⟨w, (.error (.transport "") : Hub.Result), rfl⟩
  | hubUnlessStopped r =>
    cases stopped : w.stopped with
    | true => exact ⟨w, (none : Option Hub.Result), ⟨fun _ => stopped, fun _ => rfl⟩, rfl⟩
    | false =>
      refine ⟨w, (some (.error (.transport "")) : Option Hub.Result), ⟨nofun, ?_⟩, rfl⟩
      intro now
      rw [stopped] at now
      cases now
  | stopped => exact ⟨w, w.stopped, rfl, rfl⟩
  | handle event n => exact ⟨_, (.ok () : Except (List String) Unit), rfl⟩
  | lockSweeps => exact ⟨_, !w.sweeping, rfl, rfl⟩
  | unlockSweeps => exact ⟨_, (), rfl⟩
  | renewAll limit rows => exact ⟨w, (none : Option (List Sweep.Renewal)), rfl⟩
  | count metric n => exact ⟨w, (), rfl⟩

theorem leads_amid {q : Request} {next : q.Answer → Flow α}
    {good : List Turn → Shared → Option α → Prop}
    (h : ∀ w₁ w₂ a, w₁.Answers w₂ q a →
      (next a).Leads .anything Shared.Answers (past ++ [⟨w₁, ⟨q, a⟩, w₂⟩]) w₂ good) :
    (Flow.ask q next).Leads .anything Shared.Answers past w good :=
  fun w₁ left => ⟨exists_answer w₁ q fun _ => left, h w₁⟩

end WebSub.Flow

namespace WebSub

open Interleaving
open WebSub.Flow (Meanwhile Turn)

/-- Nothing fails: the store of subscriptions carries out every call, and the clock leaves room for
the longest lease. Beside them, anything may be answered that ever is. -/
def Reliable (w w' : Shared) : (q : Request) → q.Answer → Prop
  | .now, t => (IsReading t ∧ t.HasRoom) ∧ w' = w
  | .subscriptions c, a => a = (w.subscriptions.answer c).1 ∧
    w' = { w with subscriptions := (w.subscriptions.answer c).2 }
  | q, a => w.Answers w' q a

namespace Reliable

variable {α : Type} {past : List Turn} {w : Shared}
  {good : List Turn → Shared → Option α → Prop}

theorem leads_now {next : Instant → Flow α}
    (h : ∀ t, IsReading t → t.HasRoom →
      (next t).Leads .nothing Reliable (past ++ [⟨w, ⟨.now, t⟩, w⟩]) w good) :
    (Flow.ask .now next).Leads .nothing Reliable past w good := by
  rintro w₁ rfl
  have room : (⟨0⟩ : Instant).HasRoom := by
    unfold Instant.HasRoom
    decide
  refine ⟨⟨w₁, (⟨0⟩ : Instant), ⟨isReading_epoch, room⟩, rfl⟩, ?_⟩
  rintro w₂ t ⟨⟨reading, room⟩, rfl⟩
  exact h t reading room

theorem leads_subscriptions {c : Store.SubscriptionCall} {next : c.Answer → Flow α}
    (h : (next (w.subscriptions.answer c).1).Leads .nothing Reliable
      (past ++ [⟨w, ⟨.subscriptions c, (w.subscriptions.answer c).1⟩,
        { w with subscriptions := (w.subscriptions.answer c).2 }⟩])
      { w with subscriptions := (w.subscriptions.answer c).2 } good) :
    (Flow.ask (.subscriptions c) next).Leads .nothing Reliable past w good := by
  rintro w₁ rfl
  refine ⟨⟨_, _, rfl, rfl⟩, ?_⟩
  rintro w₂ a ⟨rfl, rfl⟩
  exact h

theorem leads_read {c : Store.SubscriptionCall} {next : c.Answer → Flow α}
    (read : Store.Subscriptions.IsRead c)
    (h : (next (w.subscriptions.answer c).1).Leads .nothing Reliable
      (past ++ [⟨w, ⟨.subscriptions c, (w.subscriptions.answer c).1⟩, w⟩]) w good) :
    (Flow.ask (.subscriptions c) next).Leads .nothing Reliable past w good := by
  refine leads_subscriptions ?_
  rw [w.subscriptions.answer_read read]
  exact h

theorem leads_hub {mode : Hub.Mode} {r : Hub.Request} {next : Hub.Result → Flow α}
    (h : ∀ result, (next result).Leads .nothing Reliable
      (past ++ [⟨w, ⟨.hub mode r, result⟩, w⟩]) w good) :
    (Flow.ask (.hub mode r) next).Leads .nothing Reliable past w good := by
  rintro w₁ rfl
  refine ⟨⟨w₁, (.error (.transport "") : Hub.Result), rfl⟩, ?_⟩
  rintro w₂ result same
  obtain rfl : w₂ = w₁ := same
  exact h result

theorem leads_stopped {next : Bool → Flow α}
    (h : (next w.stopped).Leads .nothing Reliable
      (past ++ [⟨w, ⟨.stopped, w.stopped⟩, w⟩]) w good) :
    (Flow.ask .stopped next).Leads .nothing Reliable past w good := by
  rintro w₁ rfl
  refine ⟨⟨w₁, w₁.stopped, rfl, rfl⟩, ?_⟩
  rintro w₂ stopped ⟨rfl, same⟩
  obtain rfl : w₂ = w₁ := same
  exact h

theorem leads_hubUnlessStopped {r : Hub.Request} {next : Option Hub.Result → Flow α}
    (running : w.stopped = false)
    (h : ∀ result, (next (some result)).Leads .nothing Reliable
      (past ++ [⟨w, ⟨.hubUnlessStopped r, some result⟩, w⟩]) w good) :
    (Flow.ask (.hubUnlessStopped r) next).Leads .nothing Reliable past w good := by
  rintro w₁ rfl
  refine ⟨Flow.exists_answer w₁ (.hubUnlessStopped r) nofun, ?_⟩
  rintro w₂ answer ⟨given_up, same⟩
  obtain rfl : w₂ = w₁ := same
  cases answer with
  | none =>
    have stopped := given_up.mp rfl
    rw [running] at stopped
    cases stopped
  | some result => exact h result

theorem leads_freshId {next : Uuid → Flow α} (left : ∃ id, id ∉ w.drawn)
    (h : ∀ id, id ∉ w.drawn → (next id).Leads .nothing Reliable
      (past ++ [⟨w, ⟨.freshId, id⟩, { w with drawn := w.drawn ++ [id] }⟩])
      { w with drawn := w.drawn ++ [id] } good) :
    (Flow.ask .freshId next).Leads .nothing Reliable past w good := by
  rintro w₁ rfl
  obtain ⟨id, new⟩ := left
  refine ⟨⟨_, id, new, rfl⟩, ?_⟩
  rintro w₂ id ⟨new, rfl⟩
  exact h id new

end Reliable

end WebSub
