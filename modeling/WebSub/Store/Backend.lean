import WebSub.Store.EventTable
import WebSub.Store.Memory
import WebSub.Store.SubscriptionTable

/-!
# Stores

The two stores of a subscriber, each kept in memory or in a database.
-/

namespace WebSub.Store

inductive Subscriptions where
  | memory (m : MemorySubscriptions)
  | table (t : SubscriptionTable)
deriving DecidableEq, Repr

namespace Subscriptions

def rows : Subscriptions → List Subscription
  | memory m => m.rows
  | table t => t.rows

def get? (s : Subscriptions) (id : Uuid) : Option Subscription := s.rows.find? (·.id == id)

def answer (c : SubscriptionCall) : Subscriptions → c.Answer × Subscriptions
  | memory m => let (a, m) := m.answer c; (some a, memory m)
  | table t => let (a, t) := t.answer c; (a, table t)

end Subscriptions

inductive Events where
  | memory (m : MemoryEvents)
  | table (t : EventTable)
deriving DecidableEq, Repr

namespace Events

def rows : Events → List Event
  | memory m => m.rows
  | table t => t.rows

def answer (c : EventCall) : Events → c.Answer × Events
  | memory m => let (a, m) := m.answer c; (a, memory m)
  | table t => let (a, t) := t.answer c; (a, table t)

end Events

end WebSub.Store
