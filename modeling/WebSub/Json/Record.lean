import WebSub.Json.Reader

/-!
# Reading records

Objects with known fields, read straight from text. Fields may also stand in order in an array.
The first fault met decides: what comes later in the text is not looked at.
-/

namespace WebSub.Json

/-- What a field may hold. The optional ones may be absent or null. -/
inductive Shape where
  | text
  | optionalText
  | optionalInt64
  | optionalWord64
deriving DecidableEq, Repr

/-- A field's value. -/
inductive Scalar where
  | absent
  | text (s : String)
  | int (n : Int)
deriving DecidableEq, Repr

namespace Scalar

def text? : Scalar → Option String
  | .text s => some s
  | _ => none

def int? : Scalar → Option Int
  | .int n => some n
  | _ => none

end Scalar

/-- A value of the wrong kind: it must still begin as a value does. -/
def refuse (text : List Char) : Fault :=
  match text with
  | [] => .malformed
  | c :: rest =>
    let after (r : Except Fault (List Char)) : Fault :=
      match r with
      | .ok _ => .unsuitable
      | .error e => e
    if c = 'n' then after (word "ull".toList rest)
    else if c = 't' then after (word "rue".toList rest)
    else if c = 'f' then after (word "alse".toList rest)
    else if c = '"' then after ((stringToken rest).map (·.2))
    else if startsNumber c then after ((numberToken text).map (·.2))
    else if c = '[' ∨ c = '\x7b' then .unsuitable
    else .malformed

def textValue (text : List Char) : Token Scalar :=
  match text with
  | '"' :: rest => (stringToken rest).map fun (s, r) => (.text s, r)
  | _ => .error (refuse text)

def intValue (low high : Int) (text : List Char) : Token Scalar :=
  match text with
  | c :: _ =>
    if startsNumber c then
      match numberToken text with
      | .ok (.integer n, r) => if low ≤ n ∧ n ≤ high then .ok (.int n, r) else .error .unsuitable
      | .ok (.real _, _) => .error .unsuitable
      | .error e => .error e
    else .error (refuse text)
  | [] => .error .malformed

def orNull (value : List Char → Token Scalar) (text : List Char) : Token Scalar :=
  match text with
  | 'n' :: rest => (word "ull".toList rest).map (.absent, ·)
  | _ => value text

def scalar (shape : Shape) (text : List Char) : Token Scalar :=
  let text := skipBlanks text
  match shape with
  | .text => textValue text
  | .optionalText => orNull textValue text
  | .optionalInt64 => orNull (intValue Decimal.int64Min Decimal.int64Max) text
  | .optionalWord64 => orNull (intValue 0 Decimal.word64Max) text

/-- The fields of a record with their shapes, in order. -/
abbrev Fields := List (String × Shape)

def Shape.default? : Shape → Option Scalar
  | .text => none
  | _ => some .absent

/-- Reads the values of the fields in order from an array; all of them must be there. -/
def sequence (first : Bool) (read : List Scalar) (text : List Char) :
    Fields → Except Fault (List Scalar × List Char)
  | [] =>
    match skipBlanks text with
    | ']' :: rest => .ok (read.reverse, rest)
    | _ => .error .malformed
  | (_, shape) :: others =>
    match skipBlanks text with
    | ']' :: _ => .error .unsuitable
    | c :: rest =>
      let item := if first then some (c :: rest) else if c = ',' then some rest else none
      match item.map skipBlanks with
      | none | some [] => .error .malformed
      | some (c :: rest) =>
        if c = ']' ∧ first = false then .error .malformed
        else
          match scalar shape (c :: rest) with
          | .error e => .error e
          | .ok (v, rest) => sequence false (v :: read) rest others
    | [] => .error .malformed

def place (fields : Fields) (name : String) (v : Scalar) (read : List (Option Scalar)) :
    List (Option Scalar) :=
  (fields.zip read).map fun (f, old) => if f.1 = name then some v else old

/-- Reads the members of an object after its opening brace; a name may come only once, and an
unknown one is passed over. -/
def members (fields : Fields) : Nat → Bool → List (Option Scalar) → List Char →
    Except Fault (List (Option Scalar) × List Char)
  | 0, _, _, _ => .error .malformed
  | fuel + 1, first, read, text =>
    match skipBlanks text with
    | [] => .error .malformed
    | '\x7d' :: rest => .ok (read, rest)
    | c :: rest =>
      let item := if first then some (c :: rest) else if c = ',' then some rest else none
      match item.map skipBlanks with
      | some ('"' :: rest) => do
        let (name, rest) ← stringToken rest
        let colon (rest : List Char) : Except Fault (List Char) :=
          match skipBlanks rest with
          | ':' :: rest => .ok rest
          | _ => .error .malformed
        match (fields.zip read).find? (·.1.1 == name) with
        | some (_, some _) => .error .unsuitable
        | some ((_, shape), none) =>
          let (v, rest) ← scalar shape (← colon rest)
          members fields fuel false (place fields name v read) rest
        | none =>
          let rest ← skipValue (← colon rest)
          members fields fuel false read rest
      | _ => .error .malformed

/-- Gives every field its value; one that has to be there must have been read. -/
def complete : Fields → List (Option Scalar) → Option (List Scalar)
  | [], _ => some []
  | (_, shape) :: fields, read =>
    match ((read.head?.join).or shape.default?), complete fields read.tail with
    | some v, some others => some (v :: others)
    | _, _ => none

/-- Reads a record that is the whole of a text. -/
def record (fields : Fields) (bytes : List UInt8) : Except Fault (List Scalar) := do
  let text := skipBlanks (octets bytes)
  let (values, rest) ← match text with
    | '[' :: rest => sequence true [] rest fields
    | '\x7b' :: rest => do
      let (read, rest) ← members fields (rest.length + 1) true (fields.map fun _ => none) rest
      match complete fields read with
      | some values => .ok (values, rest)
      | none => .error .unsuitable
    | _ => .error (refuse text)
  if skipBlanks rest = [] then return values else .error .malformed

end WebSub.Json
