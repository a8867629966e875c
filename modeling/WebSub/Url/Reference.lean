import WebSub.Text.Hex

/-!
# References between resources

The strict form in which one resource points to another, whole or in part, and what such a
reference means where it is found. Nothing is escaped or brought into another form here.
-/

namespace WebSub

/-- A reference in parts; a part that is not written is none. -/
structure Reference where
  scheme : Option String
  authority : Option String
  path : List Char
  query : Option String
deriving DecidableEq, Repr

namespace Reference

/-! ## Characters -/

def isOneOf (set : String) (c : Char) : Bool := set.toList.contains c

/-- Characters that stand for themselves in every part. -/
def isPlain (c : Char) : Bool := c.isAlphanum || isOneOf "-._~!$&'()*+,;=" c

/-- Whether a text holds such characters, those of a set, and whole escapes, and nothing else. -/
def isWritten (set : String) : List Char → Bool
  | [] => true
  | '%' :: h :: l :: rest =>
    (Hex.value? h).isSome && (Hex.value? l).isSome && isWritten set rest
  | c :: rest => (isPlain c || isOneOf set c) && isWritten set rest

/-! ## Reading -/

def isScheme (text : List Char) : Bool :=
  (text.head?.any Char.isAlpha) && text.all fun c => c.isAlphanum || isOneOf "+-." c

/-- The scheme, if the text has one before any other mark. -/
def splitScheme (text : List Char) : Option (List Char) × List Char :=
  match text.span fun c => !isOneOf ":/?#" c with
  | (scheme, ':' :: rest) => if isScheme scheme then (some scheme, rest) else (none, text)
  | _ => (none, text)

/-- Whether a text is a name or an address, with a user in front and a port behind if it likes. -/
def isAuthority (text : List Char) : Bool :=
  let (user, place) := match text.span (· != '@') with
    | (user, _ :: place) => (user, place)
    | _ => ([], text)
  let (host, port) := match place with
    | '[' :: rest =>
      let (address, after) := rest.span (· != ']')
      (if address.all fun c => c.isAlphanum || isOneOf ":." c then [] else ['['], after.drop 1)
    | _ => place.span (· != ':')
  isWritten ":" user && isWritten "" host &&
    match port with
    | [] => true
    | ':' :: digits => digits.all Char.isDigit
    | _ => false

/-- Reads a reference; its fragment is left out. -/
def ofText? (text : List Char) : Option Reference :=
  let (scheme, rest) := splitScheme text
  let (rest, fragment) := rest.span (· != '#')
  let (rest, query) := rest.span (· != '?')
  let (authority, path) : Option (List Char) × List Char := match rest with
    | '/' :: '/' :: rest =>
      let (authority, path) := rest.span (· != '/')
      (some authority, path)
    | _ => (none, rest)
  let query := query.head?.map fun _ => query.drop 1
  let firstStep := path.takeWhile (· != '/')
  if isWritten ":@/" path ∧ query.all (isWritten ":@/?") ∧ isWritten ":@/?" (fragment.drop 1) ∧
      authority.all isAuthority ∧
      ¬ (scheme = none ∧ authority = none ∧ firstStep.contains ':') then
    some ⟨scheme.map String.ofList, authority.map String.ofList, path, query.map String.ofList⟩
  else none

/-! ## Meaning -/

/-- Follows the dots of a path, step by step; `walked` holds the steps so far, newest first. -/
def walk (walked : List (List Char)) : List (List Char) → List (List Char)
  | [] => walked.reverse
  | step :: rest =>
    let ending := if rest = [] then [[]] else []
    if step = ['.', '.'] then walk (ending ++ walked.drop 1) rest
    else if step = ['.'] then walk (ending ++ walked) rest
    else walk (step :: walked) rest

/-- The path without steps that stay or go back. -/
def withoutDots (path : List Char) : List Char :=
  match path with
  | '/' :: rest => (walk [] (rest.splitOn '/')).flatMap ('/' :: ·)
  | _ => ['/'].intercalate (walk [] (path.splitOn '/'))

/-- A path in place of the last step of another one. -/
def merge (base path : List Char) : List Char :=
  let kept := (base.reverse.dropWhile (· != '/')).reverse
  if kept = [] then '/' :: path else kept ++ path

/-- What the reference means where `base` is found. -/
def resolve (r base : Reference) : Reference :=
  if r.scheme.isSome then { r with path := withoutDots r.path }
  else if r.authority.isSome then
    { r with
      scheme := base.scheme
      path := withoutDots r.path }
  else if r.path = [] then { base with query := r.query <|> base.query }
  else
    let path := if r.path.head? = some '/' then r.path else merge base.path r.path
    { base with
      path := withoutDots path
      query := r.query }

/-- Whether the reference is so short that it might be a host with a port: a scheme and a row of
characters without a slash, and at most one colon after a user. -/
def isHostLike (r : Reference) : Bool :=
  let place := ((r.scheme.getD "").toList ++ ':' :: r.path).reverse.takeWhile (· != '@')
  r.scheme.isSome && r.authority.isNone && r.query.isNone && !r.path.contains '/' &&
    !place.contains '%' && place != [] && decide ((place.filter (· == ':')).length ≤ 1)

def isAskable (r : Reference) : Bool := r.authority.any (· != "") || r.isHostLike

/-! ## Writing -/

def queryText (r : Reference) : String := (r.query.map ("?" ++ ·)).getD ""

/-- The path and the query as they are asked for; an empty path is a slash. -/
def target (r : Reference) : String :=
  (if r.path = [] then "/" else String.ofList r.path) ++ r.queryText

def toText (r : Reference) : String :=
  (r.scheme.map (· ++ ":")).getD "" ++
    match r.authority with
    | some a => "//" ++ a ++ r.target
    | none => String.ofList r.path ++ r.queryText

end Reference

end WebSub
