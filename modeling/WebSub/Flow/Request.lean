import WebSub.Metrics
import WebSub.Store.Call
import WebSub.Sweep.Report

/-!
# Requests

What an operation asks of its surroundings. Each request is answered in one step, during which
nothing else happens; between two requests of one operation, others may have their turn.
-/

namespace WebSub

abbrev Hub.Result := Except Hub.Error Hub.Response

inductive Request where
  /-- The wall clock. -/
  | now
  /-- An identity that was never given out before. -/
  | freshId
  | subscriptions (call : Store.SubscriptionCall)
  | events (call : Store.EventCall)
  /-- A call to the hub, however long it takes. -/
  | hub (mode : Hub.Mode) (request : Hub.Request)
  /-- A subscribe call that is given up when the shutdown comes first. -/
  | hubUnlessStopped (request : Hub.Request)
  /-- Whether the shutdown was called for. -/
  | stopped
  /-- Hands a notification on. -/
  | handle (event : Uuid) (notification : Feed.Notification)
  /-- Takes the lock of the sweeps if it is free. -/
  | lockSweeps
  | unlockSweeps
  /-- Renews the rows, a number of them at a time. -/
  | renewAll (limit : Nat) (rows : List Subscription)
  | count (metric : Metric) (amount : Nat)

abbrev Request.Answer : Request → Type
  | now => Instant
  | freshId => Uuid
  | subscriptions call => call.Answer
  | events call => call.Answer
  | hub .. => Hub.Result
  -- None if the shutdown came first.
  | hubUnlessStopped _ => Option Hub.Result
  | stopped => Bool
  -- A failure is a chain of causes, outermost first.
  | handle .. => Except (List String) Unit
  | lockSweeps => Bool
  | unlockSweeps => Unit
  -- None if one of the renewals broke down.
  | renewAll .. => Option (List Sweep.Renewal)
  | count .. => Unit

end WebSub
