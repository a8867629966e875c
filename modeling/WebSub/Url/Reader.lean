import WebSub.Text.Decimal
import WebSub.Url.Basic

/-!
# Reading URLs

A text that people or pages write is taken apart and brought into the form that is sent: dots in
the path are followed, and characters that cannot be sent are escaped.
-/

namespace WebSub.Url

/-! ## Escapes -/

def isOneOf (set : String) (c : Char) : Bool := set.toList.contains c

/-- Controls and everything that is not ASCII; they are escaped everywhere. -/
def isUnsent (c : Char) : Bool := c.toNat < 0x20 || 0x7F ≤ c.toNat

def inFragment (c : Char) : Bool := isUnsent c || isOneOf " \"<>\x60" c

def inQuery (c : Char) : Bool := isUnsent c || isOneOf " \"#<>" c

def inSpecialQuery (c : Char) : Bool := inQuery c || c == '\''

def inPath (c : Char) : Bool := inFragment c || isOneOf "#?^\x7b\x7d" c

def inUser (c : Char) : Bool := inPath c || isOneOf "/:;=@[\\]|" c

def escape (set : Char → Bool) (text : List Char) : String :=
  String.ofList <| text.flatMap fun c =>
    if set c then (Utf8.encodeChar c).flatMap Percent.escape else [c]

/-! ## The path -/

def isHere (step : List Char) : Bool := String.ofList (step.map Char.toLower) ∈ [".", "%2e"]

def isBack (step : List Char) : Bool :=
  String.ofList (step.map Char.toLower) ∈ ["..", ".%2e", "%2e.", "%2e%2e"]

/-- Follows the steps of a path; `walked` holds what came so far, newest first. A path that ends
by staying or going back ends with a slash. -/
def walk (walked : List String) : List (List Char) → List String
  | [] => walked.reverse
  | step :: rest =>
    let ending := if rest = [] then [""] else []
    if isBack step then walk (ending ++ walked.drop 1) rest
    else if isHere step then walk (ending ++ walked) rest
    else walk (escape inPath step :: walked) rest

/-- Splits at every slash, and at every backslash where they count as slashes. -/
def splitSteps (special : Bool) (text : List Char) : List (List Char) :=
  (if special then text.map fun c => if c = '\\' then '/' else c else text).splitOn '/'

/-- The steps of a path; where there must be a path, an empty one is a slash. -/
def steps (special : Bool) (text : List Char) : List String :=
  match splitSteps special text with
  | [[]] => if special then [""] else []
  | [] :: rest => walk [] rest
  | rest => walk [] rest

/-! ## The authority -/

/-- The name and password, and what follows their mark: the last one counts. -/
def splitUser (text : List Char) : Option (List Char) × List Char :=
  match text.reverse.span (· != '@') with
  | (host, _ :: user) => (some user.reverse, host.reverse)
  | _ => (none, text)

/-- The name, and the password after the first colon if it is not empty. -/
def user (text : List Char) : String × Option String :=
  let (name, rest) := text.span (· != ':')
  let word := rest.drop 1
  (escape inUser name, if word = [] then none else some (escape inUser word))

/-- The host, and what follows from a colon on; colons inside brackets do not count. -/
def splitHost (inBrackets : Bool) : List Char → List Char × List Char
  | [] => ([], [])
  | c :: rest =>
    if c = ':' ∧ inBrackets = false then ([], c :: rest)
    else
      let inBrackets := c == '[' || (inBrackets && c != ']')
      let (host, after) := splitHost inBrackets rest
      (c :: host, after)

/-- A port after its colon; an empty one and the usual one are left out. -/
def port? (scheme : String) (text : List Char) : Option (Option Nat) :=
  match text with
  | ':' :: row =>
    if row = [] then some none
    else
      match Decimal.natural? row with
      | some n =>
        if 65535 < n then none else some (if usualPort? scheme = some n then none else some n)
      | none => none
  | _ => some none

/-- A URL that has everything up to its path, and takes the rest of the text. -/
def complete (special : Bool) (base : Url) (path : List Char → UrlPath) (text : List Char) : Url :=
  let (before, fragment) := text.span (· != '#')
  let (path', query) := before.span (· != '?')
  let present (set : Char → Bool) (part : List Char) : Option String :=
    match part with
    | _ :: body => some (escape set body)
    | [] => none
  { base with
    path := path path'
    query := present (if special then inSpecialQuery else inQuery) query
    fragment := present inFragment fragment }

def blank (scheme : String) : Url := ⟨scheme, "", none, none, none, .steps [], none, none⟩

def endsAuthority (special : Bool) (c : Char) : Bool :=
  c == '/' || c == '?' || c == '#' || (special && c == '\\')

def withAuthority (scheme : String) (text : List Char) : Option Url := do
  let special := isSpecial scheme
  let (authority, rest) := text.span (!endsAuthority special ·)
  let (userPart, place) := splitUser authority
  let (name, word) := (userPart.map user).getD ("", none)
  let (hostPart, portPart) := splitHost false place
  if hostPart = [] ∧ (special ∨ portPart ≠ [] ∨ userPart.isSome) then none
  else
    let host ← if special then Host.ofText? hostPart else Host.ofPlainText? hostPart
    let port ← port? scheme portPart
    let base : Url := ⟨scheme, name, word, some host, port, .steps [], none, none⟩
    return complete special base (.steps ∘ steps special) rest

/-! ## Files -/

/-- Whether a text names a drive, which is a step of the path and no host. -/
def isDrive (text : List Char) : Bool :=
  match text with
  | [letter, mark] => letter.isAlpha && (mark == ':' || mark == '|')
  | _ => false

/-- Reads the URL of a file; this host has no name. -/
def ofFile (text : List Char) : Option Url := do
  let isSlash (c : Char) : Bool := c == '/' || c == '\\'
  let here : Url := { blank "file" with host := some (.name "") }
  let path := UrlPath.steps ∘ steps true
  match text with
  | a :: b :: rest =>
    if isSlash a ∧ isSlash b then
      let (hostPart, after) := rest.span (!endsAuthority true ·)
      if hostPart = [] ∨ isDrive hostPart then return complete true here path rest
      else
        let host ← Host.ofText? hostPart
        let host := if host = .name "localhost" then .name "" else host
        return complete true { here with host := some host } path after
    else return complete true here path text
  | _ => return complete true here path text

/-! ## Everything -/

/-- The scheme in lower case, and the text after its colon. -/
def splitScheme (text : List Char) : Option (String × List Char) :=
  let inScheme (c : Char) : Bool := c.isAlphanum || c == '+' || c == '-' || c == '.'
  match text.span inScheme with
  | (c :: scheme, ':' :: rest) =>
    if c.isAlpha then some (String.ofList ((c :: scheme).map Char.toLower), rest) else none
  | _ => none

/-- The text without blanks and controls at its ends, and without line breaks and tabs. -/
def tidy (text : List Char) : List Char :=
  let isEdge (c : Char) : Bool := c.toNat ≤ 0x20
  let trimmed := ((text.dropWhile isEdge).reverse.dropWhile isEdge).reverse
  trimmed.filter fun c => c != '\t' && c != '\n' && c != '\r'

def ofText? (text : String) : Option Url := do
  let (scheme, rest) ← splitScheme (tidy text.toList)
  if scheme = "file" then ofFile rest
  else if isSpecial scheme then
    withAuthority scheme (rest.dropWhile fun c => c == '/' || c == '\\')
  else
    match rest with
    | '/' :: '/' :: rest => withAuthority scheme rest
    | '/' :: _ => return complete false (blank scheme) (.steps ∘ steps false) rest
    | _ => return complete false (blank scheme) (fun p => .plain (escape isUnsent p)) rest

end WebSub.Url
