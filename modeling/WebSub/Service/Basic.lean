import WebSub.Flow.Basic
import WebSub.Subscription.Input

/-!
# The subscription service

What every operation on subscriptions shares: the parameters for new subscriptions, the ways to
fail, and the step from a hub's answer to the stored row.
-/

namespace WebSub

/-- The parameters of new subscriptions. -/
structure Defaults where
  hubUrl : String
  callbackUrl : String
  secret : Option String
  /-- Asked for when a request names no lease. -/
  leaseSeconds : Int
  /-- The longest lease that may be asked for. -/
  maxLeaseSeconds : Int
deriving DecidableEq, Repr

namespace Service

/-- Why an operation failed. -/
inductive Error where
  | invalidRequest (detail : String)
  | notFound
  | hub (e : Hub.Error)
  | persistence (e : Store.Error)
deriving DecidableEq, Repr

def Error.message : Error → String
  | .invalidRequest detail => "Validation failed: " ++ detail
  | .notFound => "Subscription not found"
  | .hub e => e.message
  | .persistence e => "Repository error: " ++ e.message

abbrev Operation := ExceptT Error Flow

/-- A store call whose failure ends the operation. -/
def call (c : Store.SubscriptionCall) : Operation c.Value :=
  ExceptT.mk do return (← Flow.subscriptions c).mapError .persistence

/-! ## Handshakes -/

/-- Why a handshake failed. -/
inductive HandshakeError where
  | hub (e : Hub.Error)
  | persistence (e : Store.Error)
deriving DecidableEq, Repr

namespace HandshakeError

def message : HandshakeError → String
  | hub e => e.message
  | persistence e => "persistence error: " ++ e.message

def toError : HandshakeError → Error
  | hub e => .hub e
  | persistence e => .persistence e

end HandshakeError

/-- Writes what the hub answered at `now`: an accepted subscription becomes active and its lease
starts over, any other one fails. A hub error is the result even if it cannot be written. -/
def applyHubResult (s : Subscription) (result : Hub.Result) (now : Instant) :
    Flow (Subscription × Except HandshakeError Hub.Response) :=
  match result with
  | .ok response => do
    let s ← Flow.ofChange (s.markActive now response.leaseSeconds)
    match ← Flow.subscriptions (.update s) with
    | .ok _ => return (s, .ok response)
    | .error e => return (s, .error (.persistence e))
  | .error e => do
    let s := s.markFailed now
    let _ ← Flow.subscriptions (.update s)
    return (s, .error (.hub e))

/-- Asks the hub for the subscription, and applies the answer at the time when it comes. -/
def handshake (s : Subscription) : Operation Subscription :=
  ExceptT.mk do
    let result ← Flow.hub .subscribe s.hubRequest
    let (s, outcome) ← applyHubResult s result (← Flow.now)
    return (outcome.map fun _ => s).mapError (·.toError)

end Service

end WebSub
