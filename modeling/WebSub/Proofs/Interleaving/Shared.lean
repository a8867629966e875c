import WebSub.Flow.Basic
import WebSub.Store.Backend

/-!
# What operations share

The stores and all else that operations have in common while they run side by side, and how their
requests may be answered. The answers are not determined: the clock may show anything, the hub and
the handler may say anything, and any store call may fail without effect.
-/

namespace WebSub.Interleaving

structure Shared where
  subscriptions : Store.Subscriptions
  events : Store.Events
  /-- The identities that were given out. -/
  drawn : List Uuid
  /-- What was handed on, in order. -/
  handled : List (Uuid × Feed.Notification)
  /-- The shutdown was called for. -/
  stopped : Bool
  /-- Some sweep holds the lock. -/
  sweeping : Bool

def IsReading (t : Instant) : Prop := Instant.first ≤ t ∧ t ≤ Instant.last

theorem isReading_epoch : IsReading ⟨0⟩ := by
  constructor <;> decide

namespace Shared

/-- Databases without a row, before anything was done. -/
def empty : Shared := ⟨.table {}, .table {}, [], [], false, false⟩

/-- What may be answered to a request, and what is shared afterwards. -/
def Answers (w w' : Shared) : (q : Request) → q.Answer → Prop
  | .now, t => IsReading t ∧ w' = w
  | .freshId, id => id ∉ w.drawn ∧ w' = { w with drawn := w.drawn ++ [id] }
  | .subscriptions c, a =>
    (a = (w.subscriptions.answer c).1 ∧
      w' = { w with subscriptions := (w.subscriptions.answer c).2 }) ∨
    ((∃ e, a = some (.error e)) ∧ w' = w)
  | .events c, a =>
    (a = (w.events.answer c).1 ∧ w' = { w with events := (w.events.answer c).2 }) ∨
    ((∃ e, a = .error e) ∧ w' = w)
  | .handle event n, _ => w' = { w with handled := w.handled ++ [(event, n)] }
  -- The shutdown wins over an answer that comes at the same time.
  | .hubUnlessStopped _, a => (a = none ↔ w.stopped = true) ∧ w' = w
  | .stopped, b => b = w.stopped ∧ w' = w
  | .lockSweeps, b => b = !w.sweeping ∧ w' = { w with sweeping := true }
  | .unlockSweeps, _ => w' = { w with sweeping := false }
  | .hub .., _ | .renewAll .., _ | .count .., _ => w' = w

/-! ## What an answer leaves alone -/

variable {w w' : Shared} {q : Request} {a : q.Answer}

theorem unchanged_of_answers (h : w.Answers w' q a) :
    (w'.handled = w.handled ∨ ∃ id n, q = .handle id n) ∧
      (w'.events = w.events ∨ ∃ c, q = .events c) ∧
        (w'.subscriptions = w.subscriptions ∨ ∃ c, q = .subscriptions c) := by
  cases q with
  | handle id n =>
    rw [show w' = _ from h]
    exact ⟨Or.inr ⟨id, n, rfl⟩, Or.inl rfl, Or.inl rfl⟩
  | events c =>
    rcases h with ⟨-, h⟩ | ⟨-, h⟩
    · rw [h]
      exact ⟨Or.inl rfl, Or.inr ⟨c, rfl⟩, Or.inl rfl⟩
    · rw [h]
      exact ⟨Or.inl rfl, Or.inl rfl, Or.inl rfl⟩
  | subscriptions c =>
    rcases h with ⟨-, h⟩ | ⟨-, h⟩
    · rw [h]
      exact ⟨Or.inl rfl, Or.inl rfl, Or.inr ⟨c, rfl⟩⟩
    · rw [h]
      exact ⟨Or.inl rfl, Or.inl rfl, Or.inl rfl⟩
  | now | freshId | hubUnlessStopped | stopped | lockSweeps =>
    rw [h.2]
    exact ⟨Or.inl rfl, Or.inl rfl, Or.inl rfl⟩
  | unlockSweeps =>
    rw [show w' = { w with sweeping := false } from h]
    exact ⟨Or.inl rfl, Or.inl rfl, Or.inl rfl⟩
  | hub | renewAll | count =>
    rw [show w' = w from h]
    exact ⟨Or.inl rfl, Or.inl rfl, Or.inl rfl⟩

theorem handled_of_answers (h : w.Answers w' q a) (other : ∀ id n, q ≠ .handle id n) :
    w'.handled = w.handled := by
  rcases (unchanged_of_answers h).1 with same | ⟨id, n, handed⟩
  · exact same
  · exact absurd handed (other id n)

theorem events_of_answers (h : w.Answers w' q a) (other : ∀ c, q ≠ .events c) :
    w'.events = w.events := by
  rcases (unchanged_of_answers h).2.1 with same | ⟨c, called⟩
  · exact same
  · exact absurd called (other c)

end Shared

structure Exchange where
  request : Request
  answer : request.Answer

inductive Deed where
  /-- A call to the hub leaves; its answer is awaited from then on. -/
  | called (q : Request)
  | answered (x : Exchange)

namespace Deed

def request : Deed → Request
  | called q => q
  | answered x => x.request

def exchange? : Deed → Option Exchange
  | called _ => none
  | answered x => some x

end Deed

end WebSub.Interleaving
