/-!
# The hub's side of a subscription

What a subscriber asks of a hub, and what it may hear back.
-/

namespace WebSub

def maxLeaseSeconds : Int := 864000

namespace Hub

/-- What is asked of the hub. -/
inductive Mode where
  | subscribe
  | unsubscribe
deriving DecidableEq, Repr

def Mode.name : Mode → String
  | .subscribe => "subscribe"
  | .unsubscribe => "unsubscribe"

/-- The parameters of a request. -/
structure Request where
  hubUrl : String
  topicUrl : String
  callbackUrl : String
  leaseSeconds : Int
  secret : Option String
deriving DecidableEq, Repr

/-- A hub's answer; the lease is the one it settled on, if it named one. -/
structure Response where
  accepted : Bool
  statusCode : Nat
  leaseSeconds : Option Int
deriving DecidableEq, Repr

/-- Why a request came to nothing. -/
inductive Error where
  | subscriptionFailed (status : Nat) (body : String)
  | transport (detail : String)
  | invalidLease (requested max : Int)
deriving DecidableEq, Repr

namespace Error

def message : Error → String
  | .subscriptionFailed status body =>
    "subscription failed: hub returned " ++ toString status ++ ": " ++ body
  | .transport detail => "transport error: " ++ detail
  | .invalidLease requested max =>
    "invalid lease: " ++ toString requested ++ "s (allowed 1..=" ++ toString max ++ "s)"

def isTransient : Error → Bool
  | .transport _ => true
  | _ => false

end Error

/-- A lease must be positive and at most `max`. -/
def checkLease (lease max : Int) : Except Error Unit :=
  if lease ≤ 0 ∨ max < lease then .error (.invalidLease lease max) else .ok ()

end Hub

end WebSub
