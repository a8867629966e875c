import WebSub.Delivery.Event
import WebSub.Subscription.Basic

/-!
# Store calls

What can be asked of the store of subscriptions and of the store of events, and what is answered.
A call is one atomic step.
-/

namespace WebSub.Store

/-- Why a call failed; a failed call changes nothing. -/
inductive Error where
  | database (detail : String)
  | duplicate
  | notFound
deriving DecidableEq, Repr

def Error.message : Error → String
  | .database detail => "Database error: " ++ detail
  | .duplicate => "Record already exists"
  | .notFound => "Record not found"

/-- A call to the store of subscriptions. -/
inductive SubscriptionCall where
  | create (s : Subscription)
  | find (id : Uuid)
  | findByPair (channelId callbackUrl : String)
  | findByTopic (topicUrl : String)
  | update (s : Subscription)
  /-- A page of the rows, oldest first, perhaps only those that have a status at `now`. -/
  | list (status : Option Status) (limit offset : Nat) (now : Instant)
  /-- The rows that are due for a renewal. -/
  | findExpiring (before : Instant) (limit : Nat)
  | markLapsed (now : Instant)
  | delete (id : Uuid)
deriving DecidableEq, Repr

namespace SubscriptionCall

abbrev Value : SubscriptionCall → Type
  | create _ | update _ => Subscription
  | find _ | findByPair .. => Option Subscription
  | findByTopic _ | list .. | findExpiring .. => List Subscription
  | markLapsed _ => Nat
  | delete _ => Bool

def name : SubscriptionCall → String
  | create _ => "create"
  | find _ => "find_by_id"
  | findByPair .. => "find_by_channel_and_callback"
  | findByTopic _ => "find_by_topic"
  | update _ => "update"
  | list .. => "list"
  | findExpiring .. => "find_expiring"
  | markLapsed _ => "mark_lapsed"
  | delete _ => "delete"

/-- A call's answer; there is none if the call itself breaks down. -/
abbrev Answer (c : SubscriptionCall) : Type := Option (Except Error c.Value)

end SubscriptionCall

/-- A call to the store of events. -/
inductive EventCall where
  | insertNew (e : Event)
  | find (id : Uuid)
  | findByHash (contentHash : String)
  | recordOutcome (id : Uuid) (outcome : Event.Outcome)
deriving DecidableEq, Repr

namespace EventCall

abbrev Value : EventCall → Type
  | insertNew _ => Event
  | find _ | findByHash _ => Option Event
  | recordOutcome .. => Unit

/-- The name of a call that changes the store; mere look-ups have none. -/
def name? : EventCall → Option String
  | insertNew _ => some "insert_new"
  | recordOutcome .. => some "record_outcome"
  | _ => none

abbrev Answer (c : EventCall) : Type := Except Error c.Value

end EventCall

end WebSub.Store
