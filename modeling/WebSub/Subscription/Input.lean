import WebSub.Hub.Protocol
import WebSub.Json.Record

/-!
# Requests about subscriptions

What clients send to create and to list subscriptions, and the rules it has to keep.
-/

namespace WebSub

/-! ## Rules -/

/-- The value that broke a rule. -/
inductive Offender where
  | text (s : String)
  | int (n : Int)
deriving DecidableEq, Repr

/-- A rule that a field broke. -/
inductive Violation where
  | length (min max : Nat) (value : String)
  | invalidChannelId (value : String)
  | range (min max value : Int)
deriving DecidableEq, Repr

def Violation.code : Violation → String
  | .length .. => "length"
  | .invalidChannelId _ => "invalid_channel_id"
  | .range .. => "range"

/-- The broken rules of each field that has any, in the order of the rules. -/
abbrev Violations := List (String × List Violation)

/-- The violations as `field: code`, sorted and joined by semicolons. -/
def Violations.message (v : Violations) : String :=
  let items := v.flatMap fun (field, broken) => broken.map fun b => field ++ ": " ++ b.code
  "; ".intercalate (items.mergeSort (fun a b => decide (a ≤ b)))

/-- Checks an optional number against its range. -/
def checkRange (field : String) (min max : Int) (value : Option Int) : Violations :=
  match value with
  | some n => if n < min ∨ max < n then [(field, [.range min max n])] else []
  | none => []

/-! ## Creating -/

/-- A request to subscribe to a channel. -/
structure CreateRequest where
  channelId : String
  leaseSeconds : Option Int
deriving DecidableEq, Repr

namespace CreateRequest

def maxChannelIdLength : Nat := 64

/-- The characters that a channel's name is made of. -/
def isChannelIdChar (c : Char) : Bool := c.isAlphanum || c == '-' || c == '_'

def channelIdViolations (id : String) : List Violation :=
  let n := id.toList.length
  (if n < 1 ∨ maxChannelIdLength < n then [.length 1 maxChannelIdLength id] else []) ++
    (if id.toList.all isChannelIdChar then [] else [.invalidChannelId id])

def violations (r : CreateRequest) : Violations :=
  (match channelIdViolations r.channelId with
    | [] => []
    | broken => [("channel_id", broken)]) ++
    checkRange "lease_seconds" 1 maxLeaseSeconds r.leaseSeconds

def fields : Json.Fields := [("channel_id", .text), ("lease_seconds", .optionalInt64)]

def ofJson (bytes : List UInt8) : Except Json.Fault CreateRequest := do
  match ← Json.record fields bytes with
  | [channelId, lease] => return ⟨channelId.text?.getD "", lease.int?⟩
  | _ => .error .unsuitable

end CreateRequest

/-! ## Listing -/

/-- A request for a page of the subscriptions, perhaps only those of one status. -/
structure ListRequest where
  status : Option String
  limit : Option Nat
  offset : Option Nat
deriving DecidableEq, Repr

namespace ListRequest

def maxLimit : Nat := 500

/-- The page's size and start when they are not given. -/
def defaultLimit : Nat := 50
def defaultOffset : Nat := 0

def violations (r : ListRequest) : Violations :=
  checkRange "limit" 1 maxLimit (r.limit.map Int.ofNat)

def fields : Json.Fields :=
  [("status", .optionalText), ("limit", .optionalWord64), ("offset", .optionalWord64)]

def ofJson (bytes : List UInt8) : Except Json.Fault ListRequest := do
  match ← Json.record fields bytes with
  | [status, limit, offset] =>
    return ⟨status.text?, limit.int?.map Int.toNat, offset.int?.map Int.toNat⟩
  | _ => .error .unsuitable

end ListRequest

end WebSub
