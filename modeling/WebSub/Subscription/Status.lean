/-!
# Subscription status

The stages of a subscription's life and the steps between them.
-/

namespace WebSub

inductive Status where
  /-- Asked for; the hub has not answered yet. -/
  | pending
  /-- Accepted by the hub. -/
  | active
  /-- The lease ran out without a renewal. -/
  | expired
  /-- The hub refused, or could not be reached. -/
  | failed
deriving DecidableEq, Repr

namespace Status

def name : Status → String
  | .pending => "pending"
  | .active => "active"
  | .expired => "expired"
  | .failed => "failed"

def ofName? (text : String) : Option Status :=
  [pending, active, expired, failed].find? (·.name == text)

/-- The text shown for a name that no status has. -/
def unknownMessage (text : String) : String := "unknown subscription status: " ++ text

/-- Whether a status may be followed by another: nothing becomes pending again, and only an active
subscription expires. -/
def canBecome : Status → Status → Bool
  | _, .pending => false
  | .active, .expired => true
  | _, .expired => false
  | _, .active => true
  | _, .failed => true

end Status

end WebSub
