import WebSub.Url.Host

/-!
# URLs

A URL in parts, with everything in the form in which it is sent, and its text.
-/

namespace WebSub

/-- Where on a host, or what else, a URL points to. -/
inductive UrlPath where
  /-- Steps that each come after a slash. -/
  | steps (names : List String)
  /-- A text without structure. -/
  | plain (text : String)
deriving DecidableEq, Repr

structure Url where
  scheme : String
  username : String
  password : Option String
  host : Option Host
  /-- Left out where it is the usual one of the scheme. -/
  port : Option Nat
  path : UrlPath
  query : Option String
  fragment : Option String
deriving DecidableEq, Repr

def UrlPath.toText : UrlPath → String
  | .steps names => String.join (names.map ("/" ++ ·))
  | .plain text => text

namespace Url

def usualPort? (scheme : String) : Option Nat :=
  if scheme = "http" ∨ scheme = "ws" then some 80
  else if scheme = "https" ∨ scheme = "wss" then some 443
  else if scheme = "ftp" then some 21
  else none

/-- Schemes whose URLs always have a host and a path of steps. -/
def isSpecial (scheme : String) : Bool := (usualPort? scheme).isSome || scheme == "file"

def isWeb (u : Url) : Bool := u.scheme == "http" || u.scheme == "https"

def effectivePort (u : Url) : Option Nat := u.port <|> usualPort? u.scheme

/-- Who is asked for a URL. -/
structure Origin where
  scheme : String
  host : Option Host
  port : Option Nat
deriving DecidableEq, Repr

def origin (u : Url) : Origin := ⟨u.scheme, u.host, u.effectivePort⟩

/-- The name and password with their mark, if there are any. -/
def userText (u : Url) : String :=
  match u.username, u.password with
  | "", none => ""
  | name, none => name ++ "@"
  | name, some word => name ++ ":" ++ word ++ "@"

def portText (u : Url) : String := (u.port.map fun p => ":" ++ toString p).getD ""

def queryText (u : Url) : String := (u.query.map ("?" ++ ·)).getD ""

def fragmentText (u : Url) : String := (u.fragment.map ("#" ++ ·)).getD ""

def authorityText (u : Url) : String :=
  match u.host with
  | some h => "//" ++ u.userText ++ h.toText ++ u.portText
  | none =>
    match u.path with
    | .steps ("" :: _ :: _) => "/."
    | _ => ""

def absoluteText (u : Url) : String :=
  u.scheme ++ ":" ++ u.authorityText ++ u.path.toText ++ u.queryText

def toText (u : Url) : String := u.absoluteText ++ u.fragmentText

def withoutUser (u : Url) : Url := { u with username := "", password := none }

end Url

end WebSub
