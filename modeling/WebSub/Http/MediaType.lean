/-!
# Media types

The `type/subtype` of a content, with an optional suffix after a plus sign and optional parameters.
-/

namespace WebSub

structure MediaType where
  type : String
  subtype : String
  /-- What follows the last plus sign of the subtype. -/
  suffix : Option String
  parameters : List (String × String)
deriving DecidableEq, Repr

namespace MediaType

/-- The characters of names and of values without quotes. -/
def isTokenChar (c : Char) : Bool := c.isAlphanum || "!#$%&'*+-.^_|~\x60".toList.contains c

/-- The characters of quoted values: visible ones, blanks and tabs. -/
def isQuotedChar (c : Char) : Bool := c == '\t' || decide (0x20 ≤ c.toNat) && c.toNat != 0x7F

/-- What follows a quoted value: the rest after its semicolon, if there is one. -/
def afterQuoted : List Char → Option (List Char)
  | [] => some []
  | ';' :: rest => some rest
  | ' ' :: rest => afterQuoted rest
  | _ => none

/-- A value in quotes, which are opened already: at least one character. -/
def quotedValue (text : List Char) : Option (List Char × List Char) :=
  let (value, rest) := text.span fun c => c != '"' && isQuotedChar c
  match value, rest with
  | _ :: _, '"' :: rest => (afterQuoted rest).map (value, ·)
  | _, _ => none

/-- A value, in quotes or not, and the rest after it and its semicolon. -/
def value : List Char → Option (List Char × List Char)
  | '"' :: rest => quotedValue rest
  | text =>
    match text.span isTokenChar with
    | (value, []) => some (value, [])
    | (c :: value, ';' :: rest) => some (c :: value, rest)
    | _ => none

/-- A name, and the rest after its equals sign. -/
def name (text : List Char) : Option (List Char × List Char) :=
  match text.span isTokenChar with
  | (c :: name, '=' :: rest) => some (c :: name, rest)
  | _ => none

def lower (text : List Char) : String := String.ofList (text.map Char.toLower)

/-- Reads a row of parameters; blanks may stand before a name. -/
def parametersFrom : Nat → List Char → Option (List (String × String))
  | 0, _ => none
  | _, [] => some []
  | fuel + 1, ' ' :: rest => parametersFrom fuel rest
  | fuel + 1, text => do
    let (name, rest) ← name text
    let (value, rest) ← value rest
    return (lower name, String.ofList value) :: (← parametersFrom fuel rest)

/-- The subtype and what follows its last plus sign, a leading one apart. -/
def splitSuffix (text : List Char) : List Char × Option (List Char) :=
  let tail := (text.drop 1).reverse
  match tail.span (· != '+') with
  | (suffix, _ :: before) => (text.take 1 ++ before.reverse, some suffix.reverse)
  | (_, []) => (text, none)

/-- Reads a media type; letters are taken in lower case. -/
def ofText? (text : List Char) : Option MediaType :=
  let (type, rest) := text.span isTokenChar
  match type, rest with
  | _ :: _, '/' :: rest =>
    let (sub, rest) := rest.span isTokenChar
    let (subtype, suffix) := splitSuffix sub
    let read (parameters : List (String × String)) : MediaType :=
      ⟨lower type, lower subtype, suffix.map lower, parameters⟩
    match sub, rest with
    | _, [] => some (read [])
    | _ :: _, ';' :: rest => (parametersFrom (rest.length + 1) rest).map read
    | _, _ => none
  | _, _ => none

/-- `application/json`, or an application type that is written in JSON. -/
def isJson (m : MediaType) : Bool :=
  m.type == "application" && (m.subtype == "json" || m.suffix == some "json")

end MediaType

end WebSub
