import WebSub.Delivery.Pipeline
import WebSub.Service.Subscriptions
import WebSub.Sweep.Basic

/-!
# Status codes of failures

The status with which each failure is told to a client.
-/

namespace WebSub.Http.Status

def ofHub : Hub.Error → Nat
  | .subscriptionFailed .. | .invalidLease .. => 400
  | .transport _ => 502

def ofStore : Store.Error → Nat
  | .notFound => 404
  | .duplicate => 409
  | .database _ => 500

def ofService : Service.Error → Nat
  | .invalidRequest _ => 400
  | .notFound => 404
  | .hub e => ofHub e
  | .persistence e => ofStore e

/-- A duplicate is no failure to whoever delivers it. -/
def ofDelivery : Delivery.Error → Nat
  | .signature _ => 401
  | .duplicate _ => 200
  | .persistence _ => 500

def ofSweep : Sweep.Error → Nat
  | .alreadyRunning => 409
  | .listing _ => 500

def internal : Nat := 500

end WebSub.Http.Status
