import WebSub.Text.Hex

/-!
# Socket addresses

Whether a text is an IPv4 or IPv6 address with a port.
-/

namespace WebSub.SocketAddress

/-- What is left of a text after a part of an address. -/
abbrev Part := List Char → Option (List Char)

/-- The rules for one number in an address. -/
structure NumberRule where
  base : Nat
  max : Nat
  maxDigits : Option Nat
  leadingZeros : Bool

def digit? (base : Nat) (c : Char) : Option Nat := (Hex.value? c).filter (· < base)

/-- Takes every digit that follows; their number and value must keep the rule. -/
def number (rule : NumberRule) : Part := fun text =>
  let digits := text.takeWhile fun c => (digit? rule.base c).isSome
  let value := (digits.filterMap (digit? rule.base)).foldl (fun n d => rule.base * n + d) 0
  if digits ≠ [] ∧ rule.maxDigits.all (digits.length ≤ ·) ∧ value ≤ rule.max ∧
      (rule.leadingZeros ∨ digits.length = 1 ∨ digits.head? ≠ some '0') then
    some (text.drop digits.length)
  else none

def octet : NumberRule := ⟨10, 255, some 3, false⟩
def group : NumberRule := ⟨16, 65535, some 4, true⟩
def port : NumberRule := ⟨10, 65535, none, true⟩
def scope : NumberRule := ⟨10, 4294967295, none, true⟩

def char (c : Char) : Part
  | d :: rest => if d = c then some rest else none
  | [] => none

def ipv4 : Part := fun text =>
  (number octet text).bind fun r => (char '.' r).bind (number octet ·) |>.bind fun r =>
    (char '.' r).bind (number octet ·) |>.bind fun r => (char '.' r).bind (number octet ·)

/-- Takes up to `limit` groups separated by colons, of which the last two may be an IPv4 address:
the number of groups, whether they end so, and the rest. -/
def groups (limit taken : Nat) (text : List Char) : Nat × Bool × List Char :=
  match limit with
  | 0 => (taken, false, text)
  | limit + 1 =>
    let item := if taken = 0 then some text else char ':' text
    let dotted := if limit = 0 then none else item.bind ipv4
    match dotted, item.bind (number group) with
    | some rest, _ => (taken + 2, true, rest)
    | none, some rest => groups limit (taken + 1) rest
    | none, none => (taken, false, text)

/-- Eight groups, or fewer with one gap that stands for at least one. -/
def ipv6 : Part := fun text =>
  let (head, dotted, rest) := groups 8 0 text
  if head = 8 then some rest
  else if dotted then none
  else
    (char ':' rest).bind (char ':') |>.map fun r => (groups (7 - head) 0 r).2.2

/-- The zone of an IPv6 address, where it has one. -/
def zone (text : List Char) : List Char :=
  ((char '%' text).bind (number scope)).getD text

def portEnds (text : List Char) : Bool := ((char ':' text).bind (number port)) == some []

/-- Whether a whole text is an address with a port. -/
def isValid (text : String) : Bool :=
  (ipv4 text.toList).any portEnds ||
    (((char '[' text.toList).bind ipv6).bind fun r => char ']' (zone r)).any portEnds

end WebSub.SocketAddress
