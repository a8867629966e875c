import WebSub.Flow.Request

/-!
# Flows

An operation as the tree of what it asks and of how it goes on after each answer. A flow decides
nothing about its surroundings, so that operations can be run one after another or interleaved.
-/

namespace WebSub

inductive Flow (α : Type) where
  | done (a : α)
  /-- Broke down; nothing more happens. -/
  | crash
  | ask (q : Request) (next : q.Answer → Flow α)

namespace Flow

variable {α β : Type}

/-- First one flow, then another one that depends on its result. -/
def bind : Flow α → (α → Flow β) → Flow β
  | done a, f => f a
  | crash, _ => crash
  | ask q next, f => ask q fun a => (next a).bind f

instance : Monad Flow where
  pure := done
  bind := bind

/-- Does one more thing at the end, also after a breakdown. -/
def ensuring (f : Flow α) (last : Flow Unit) : Flow α :=
  match f with
  | done a => last.bind fun _ => done a
  | crash => last.bind fun _ => crash
  | ask q next => ask q fun a => (next a).ensuring last

/-- A flow that stands on its own: its breakdown is a result. -/
def isolated : Flow α → Flow (Option α)
  | done a => done (some a)
  | crash => done none
  | ask q next => ask q fun a => (next a).isolated

/-! ## Single requests -/

def request (q : Request) : Flow q.Answer := ask q done

def ofOption : Option α → Flow α
  | some a => done a
  | none => crash

/-- The changed subscription, or a breakdown where the change stopped. -/
def ofChange : Subscription.Change → Flow Subscription
  | .ok s => done s
  | .error _ => crash

def now : Flow Instant := request .now

def freshId : Flow Uuid := request .freshId

def subscriptions (c : Store.SubscriptionCall) : Flow (Except Store.Error c.Value) :=
  ask (.subscriptions c) ofOption

def events (c : Store.EventCall) : Flow (Except Store.Error c.Value) := request (.events c)

def hub (mode : Hub.Mode) (r : Hub.Request) : Flow Hub.Result := request (.hub mode r)

def count (m : Metric) : Flow Unit := request (.count m 1)

end Flow

end WebSub
