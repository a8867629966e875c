import WebSub.Settings.Node
import WebSub.Text.Quoted
import WebSub.Text.Shortest

/-!
# Configuration errors

Why settings could not be read, and the messages for it.
-/

namespace WebSub.Settings

/-- What stood where something else was wanted. -/
inductive Found where
  | unit
  | flag (b : Bool)
  | integer (n : Int)
  | unsigned (n : Nat)
  | real (x : Float)
  | text (s : String)
  | sequence
  | map

namespace Found

def ofNode : Node → Found
  | .scalar _ .nil => unit
  | .scalar _ (.flag b) => flag b
  | .scalar _ (.integer n) => integer n
  | .scalar _ (.real x) => real x
  | .scalar _ (.text s) => text s
  | .array .. => sequence
  | .table .. => map

/-- What an integer is called by its size. -/
def kind (n : Int) : String :=
  if Decimal.int64Min ≤ n ∧ n ≤ Decimal.int64Max then "64-bit integer"
  else if 0 ≤ n ∧ n ≤ Decimal.word64Max then "64-bit unsigned integer"
  else "128-bit integer"

/-- The words for it where a single value was wanted. -/
def describe : Found → String
  | unit => "unit value"
  | flag b => "boolean \x60" ++ (if b then "true" else "false") ++ "\x60"
  | integer n => kind n ++ " \x60" ++ toString n ++ "\x60"
  | unsigned n => "64-bit unsigned integer \x60" ++ toString n ++ "\x60"
  | real x => "floating point \x60" ++ Shortest.text x ++ "\x60"
  | text s => "string " ++ Quoted.quote s
  | sequence => "sequence"
  | map => "map"

/-- The words for it where a section was wanted. -/
def describeForSection : Found → String
  | integer n => "integer \x60" ++ toString n ++ "\x60"
  | unsigned n => "integer \x60" ++ toString n ++ "\x60"
  | real x => "floating point \x60" ++ Shortest.pointedText x ++ "\x60"
  | other => other.describe

end Found

/-- What kind of value was wanted. -/
inductive Wanted where
  | integer
  | int64
  | word64
  | word32
  | word16
  | flag
  | text
deriving DecidableEq, Repr

def Wanted.describe : Wanted → String
  | .integer => "an integer"
  | .int64 => "an signed 64 bit or less integer"
  | .word64 => "an unsigned 64 bit or less integer"
  | .word32 => "an unsigned 32 bit integer"
  | .word16 => "an unsigned 16 bit integer"
  | .flag => "a boolean"
  | .text => "a string"

/-- A value that cannot be taken for what was wanted. -/
structure Mismatch where
  found : Found
  wanted : Wanted
  origin : Option String

/-- The values of a section and their order. -/
structure Layout where
  title : String
  fields : List String

/-- What is wrong with a section as a whole, or with a choice between names. -/
inductive Unsuited where
  /-- The section is a single value. -/
  | single (found : Found) (layout : Layout)
  /-- The section is a list that ends too early. -/
  | length (n : Nat) (layout : Layout)
  /-- The name is none of those that may be chosen. -/
  | choice (title name : String)
  /-- Something other than a name was given for a choice. -/
  | shape (title : String)

def Unsuited.describe : Unsuited → String
  | .single found layout =>
    "invalid type: " ++ found.describeForSection ++ ", expected struct " ++ layout.title
  | .length n layout =>
    "invalid length " ++ toString n ++ ", expected struct " ++ layout.title ++ " with " ++
      toString layout.fields.length ++ " elements"
  | .choice title name => "enum " ++ title ++ " does not have variant constructor " ++ name
  | .shape title =>
    "value of enum " ++ title ++
      " should be represented by either string or table with exactly one key"

inductive Error where
  /-- A file does not parse, or its top is no table. -/
  | unreadable (uri : String)
  | mismatch (m : Mismatch) (key : String)
  | unsuited (u : Unsuited) (key : String)
  | missing (key : String)

namespace Error

/-- Whether something is not there at all, rather than wrong. -/
def isAbsence : Error → Bool
  | missing _ => true
  | unsuited (.length ..) _ => true
  | _ => false

def about (key text : String) : String := text ++ " for key \x60" ++ key ++ "\x60"

def message? : Error → Option String
  | unreadable _ | missing _ => none
  | mismatch m key =>
    some <|
      about key ("invalid type: " ++ m.found.describe ++ ", expected " ++ m.wanted.describe) ++
        (m.origin.map (" in " ++ ·)).getD ""
  | unsuited u key => some (about key u.describe)

end Error

end WebSub.Settings
