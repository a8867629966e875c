import WebSub.Text.Hex
import WebSub.Text.Shortest

/-!
# JSON values

Values, why a text is not the value that was asked for, and the compact written form.
-/

namespace WebSub

/-- A number: an integer of 64 bits, signed or unsigned, or else a floating point value. -/
inductive JsonNumber where
  | integer (n : Int)
  | real (x : Float)

inductive Json where
  | null
  | bool (b : Bool)
  | number (n : JsonNumber)
  | str (s : String)
  | array (items : List Json)
  /-- Keys are in the order in which they first came. -/
  | object (members : List (String × Json))

namespace Json

/-- Why a reading failed: the text is no JSON, or it is not of the shape that is wanted. -/
inductive Fault where
  | malformed
  | unsuitable
deriving DecidableEq, Repr

/-! ## Writing -/

def int (n : Int) : Json := .number (.integer n)

def optional {α : Type} (f : α → Json) : Option α → Json
  | some a => f a
  | none => .null

def escapeChar (c : Char) : List Char :=
  if c = '"' then ['\\', '"']
  else if c = '\\' then ['\\', '\\']
  else if c.toNat < 0x20 then
    ['\\', 'u', '0', '0', Hex.digit (c.toNat / 16), Hex.digit (c.toNat % 16)]
  else [c]

def quote (s : String) : String :=
  String.ofList ('"' :: s.toList.flatMap escapeChar ++ ['"'])

mutual

def write : Json → String
  | .null => "null"
  | .bool b => if b then "true" else "false"
  | .number (.integer n) => toString n
  | .number (.real x) => Shortest.pointedText x
  | .str s => quote s
  | .array items => "[" ++ ",".intercalate (writeItems items) ++ "]"
  | .object members => "\x7b" ++ ",".intercalate (writeMembers members) ++ "\x7d"

def writeItems : List Json → List String
  | [] => []
  | v :: rest => v.write :: writeItems rest

def writeMembers : List (String × Json) → List String
  | [] => []
  | (name, v) :: rest => (quote name ++ ":" ++ v.write) :: writeMembers rest

end

end Json

end WebSub
