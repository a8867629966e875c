import WebSub.Settings.Error
import WebSub.Text.Lowercase

/-!
# Reading settings off a tree

How a node is taken for an integer, a truth value or a text, and how the values of a section are
found. A value that is wrong is reported before one that is missing.
-/

namespace WebSub.Settings

/-! ## Single values -/

abbrev Conversion (α : Type) := Node → Except Mismatch α

namespace Node

def origin : Node → Option String
  | .scalar o _ => o
  | .array o _ => o
  | .table o _ => o

def mismatched {α : Type} (wanted : Wanted) (n : Node) : Except Mismatch α :=
  .error ⟨.ofNode n, wanted, n.origin⟩

def truth? (word : String) : Option Bool :=
  if word ∈ ["true", "on", "yes"] then some true
  else if word ∈ ["false", "off", "no"] then some false
  else none

def lowered (s : String) : String := String.ofList (Lowercase.ofText s.toList)

def bit (b : Bool) : Nat := if b then 1 else 0

def toInteger : Conversion Int := fun n =>
  match n with
  | .scalar _ (.integer i) =>
    if Decimal.int64Min ≤ i ∧ i ≤ Decimal.int64Max then .ok i else n.mismatched .int64
  | .scalar _ (.flag b) => .ok (bit b)
  | .scalar _ (.real x) => .ok (roundWithin Decimal.int64Min Decimal.int64Max x)
  | .scalar _ (.text s) =>
    match (truth? (lowered s)).map (fun b => (bit b : Int)) <|> Decimal.int64? s.toList with
    | some i => .ok i
    | none => n.mismatched .integer
  | _ => n.mismatched .integer

def toWord64 : Conversion Nat := fun n =>
  match n with
  | .scalar _ (.integer i) =>
    if 0 ≤ i ∧ i ≤ Decimal.word64Max then .ok i.toNat else n.mismatched .word64
  | .scalar _ (.flag b) => .ok (bit b)
  | .scalar _ (.real x) => .ok (roundWithin 0 Decimal.word64Max x).toNat
  | .scalar _ (.text s) =>
    match (truth? (lowered s)).map bit <|> Decimal.upTo? Decimal.word64Max s.toList with
    | some i => .ok i
    | none => n.mismatched .integer
  | _ => n.mismatched .integer

/-- An unsigned integer up to a bound; where a larger one came from is not told. -/
def toWordUpTo (max : Nat) (wanted : Wanted) : Conversion Nat := fun n => do
  let i ← n.toWord64
  if i ≤ max then .ok i else .error ⟨.unsigned i, wanted, none⟩

def toWord16 : Conversion Nat := toWordUpTo 65535 .word16

def toWord32 : Conversion Nat := toWordUpTo 4294967295 .word32

/-- A truth value; any number but zero is true. -/
def toFlag : Conversion Bool := fun n =>
  match n with
  | .scalar _ (.flag b) => .ok b
  | .scalar _ (.integer i) => .ok (i != 0)
  | .scalar _ (.real x) => .ok (x != 0)
  | .scalar origin (.text s) =>
    let word := lowered s
    if word = "1" then .ok true
    else if word = "0" then .ok false
    else
      match truth? word with
      | some b => .ok b
      | none => .error ⟨.text word, .flag, origin⟩
  | _ => n.mismatched .flag

/-- A text; truth values and numbers are written out. -/
def toText : Conversion String := fun n =>
  match n with
  | .scalar _ (.text s) => .ok s
  | .scalar _ (.flag b) => .ok (if b then "true" else "false")
  | .scalar _ (.integer i) => .ok (toString i)
  | .scalar _ (.real x) => .ok (Shortest.text x)
  | _ => n.mismatched .text

def toOptional {α : Type} (convert : Conversion α) : Conversion (Option α) := fun n =>
  match n with
  | .scalar _ .nil => .ok none
  | _ => (convert n).map some

end Node

/-! ## Several values -/

def Reading (α : Type) : Type := Except Error α

namespace Reading

/-- Of two errors the first is told, unless it is an absence and the second is not. -/
def both {α β : Type} (f : Reading (α → β)) (x : Reading α) : Reading β :=
  match f, x with
  | .ok f, .ok a => .ok (f a)
  | .ok _, .error e => .error e
  | .error e, .ok _ => .error e
  | .error e, .error later => .error (if e.isAbsence ∧ ¬ later.isAbsence then later else e)

instance : Applicative Reading where
  pure a := .ok a
  seq f x := both f (x ())

def ofConversion {α : Type} (convert : Conversion α) (key : String) (n : Node) : Reading α :=
  (convert n).mapError (.mismatch · key)

end Reading

/-! ## Sections -/

/-- The values of a section: by name, or in the order of its layout. -/
inductive Content where
  | named (entries : List (String × Node))
  | listed (items : List Node)

structure Section where
  layout : Layout
  key : String
  content : Content

namespace Section

def ofNode (layout : Layout) (key : String) (n : Node) : Reading Section :=
  match n with
  | .table _ es => .ok ⟨layout, key, .named es⟩
  | .array _ items => .ok ⟨layout, key, .listed items⟩
  | _ => .error (.unsuited (.single (.ofNode n) layout) key)

def value? (s : Section) (field : String) : Option (String × Node) :=
  match s.content with
  | .named es => (es.lookup field).map (s.key ++ "." ++ field, ·)
  | .listed items =>
    let place := s.layout.fields.idxOf field
    (items[place]?).map (s.key ++ "[" ++ toString place ++ "]", ·)

def absent (s : Section) (field : String) : Error :=
  match s.content with
  | .named _ => .missing (s.key ++ "." ++ field)
  | .listed items => .unsuited (.length items.length s.layout) s.key

def required {α : Type} (s : Section) (field : String) (convert : Conversion α) : Reading α :=
  match s.value? field with
  | some (key, n) => .ofConversion convert key n
  | none => .error (s.absent field)

/-- A value that may be nil, or may have no name at all; in a list its place must be there. -/
def optional {α : Type} (s : Section) (field : String) (convert : Conversion α) :
    Reading (Option α) :=
  match s.value? field, s.content with
  | some (key, n), _ => .ofConversion (Node.toOptional convert) key n
  | none, .named _ => .ok none
  | none, .listed _ => .error (s.absent field)

def defaulted {α : Type} (s : Section) (field : String) (preset : α)
    (read : String → Node → Reading α) : Reading α :=
  match s.value? field with
  | some (key, n) => read key n
  | none => .ok preset

end Section

end WebSub.Settings
