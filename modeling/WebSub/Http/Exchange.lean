import WebSub.Http.Answer
import WebSub.Http.Message
import WebSub.Text.Base64
import WebSub.Url.Reader
import WebSub.Url.Reference

/-!
# Exchanges with servers

A form is posted to a URL, and redirects are followed up to a limit, to whatever hosts they lead.
The network is known by what comes of each request.
-/

namespace WebSub.Http

/-! ## The network -/

/-- What is around a client. -/
structure Network where
  /-- What comes of a request, by its number, which starts from zero, and whom it is for. Where it
  comes to nothing, no connection can be made. -/
  reply? : Nat → Url.Origin → Option Reply
  /-- The character sets that can be read besides those that always can. -/
  charsets : Charset.Library

/-- A server without encryption at one place, and its replies to the requests in their order; the
last one repeats. -/
structure Server where
  host : Host
  port : Nat
  replies : List Reply

namespace Server

def origin (s : Server) : Url.Origin := ⟨"http", some s.host, some s.port⟩

/-- The reply to a request, counted from zero; a server without replies drops everything. -/
def reply (s : Server) (n : Nat) : Reply :=
  (s.replies[n]? <|> s.replies.getLast?).getD .closed

/-- Nothing but the server can be reached, and no further character set is known. -/
def network (s : Server) : Network where
  reply? n origin := if origin = s.origin then some (s.reply n) else none
  charsets _ := none

instance : Coe Server Network := ⟨network⟩

end Server

/-! ## Failures -/

/-- Why there is no answer. -/
inductive Failure where
  /-- The text is no URL, or the URL cannot be asked. -/
  | unusable (url : Option Url)
  /-- Nothing is reached, or nothing comes back. -/
  | unanswered (url : Url)
  /-- There are too many redirects. -/
  | misled (url : Url)
deriving DecidableEq, Repr

namespace Failure

def about (text : String) (url : Url) : String := text ++ " for url (" ++ url.toText ++ ")"

def message : Failure → String
  | unusable none => "builder error"
  | unusable (some url) => about "builder error" url
  | unanswered url => about "error sending request" url
  | misled url => about "error following redirect" url

end Failure

/-! ## Requests -/

/-- One request on the way to an answer. -/
structure Hop where
  url : Url
  /-- The path and the query as the server sees them. -/
  target : String
  /-- The place that a location in the answer is relative to, if it is written strictly enough. -/
  place : Option Reference
  /-- The form that is posted; without one the page is only asked for. -/
  form : Option String
  /-- A name and password for the first host. -/
  user : Option String
  /-- Whether the host is still the one before. -/
  isSameHost : Bool
  /-- Where the request was sent on from. -/
  referer : Option Url

namespace Hop

def agent : String := "ytpush/0.1.0"

def formType : String := "application/x-www-form-urlencoded"

def headers (h : Hop) : List (String × String) :=
  [("accept", "*/*"), ("user-agent", agent)] ++
    (match h.form with
      | some form => [("content-type", formType), ("content-length", toString form.utf8ByteSize)]
      | none => []) ++
    (match h.user with
      | some user =>
        if h.isSameHost then
          [("authorization",
            "Basic " ++ String.ofList (Base64.encode (Utf8.encode user.toList)))]
        else []
      | none => []) ++
    (match h.referer with
      | some url => [("referer", url.toText)]
      | none => [])

def request (h : Hop) : Request where
  method := if h.form.isSome then "POST" else "GET"
  target := h.target
  headers := h.headers.map fun (name, v) => (name, Utf8.encode v.toList)
  body := Utf8.encode (h.form.getD "").toList

/-- Where a redirect leads to. An answer is a redirect if its status says so and its location can
be read and names something to ask for. -/
def redirect? (h : Hop) (a : Answer) : Option Reference :=
  if a.status ∈ [301, 302, 303, 307, 308] then do
    let location ← Reference.ofText? (← a.header? "location").toList
    let place := location.resolve (← h.place)
    if place.isAskable then some place else none
  else none

/-- The request that follows a redirect. The form is posted again only where the status asks for
it. -/
def onward (h : Hop) (a : Answer) (place : Reference) (url : Url) : Hop where
  url := url
  target := place.target
  place := some place
  form := if a.status = 307 ∨ a.status = 308 then h.form else none
  user := h.user
  isSameHost := url.host = h.url.host ∧ url.effectivePort = h.url.effectivePort
  referer := if url.scheme = "http" ∧ h.url.scheme = "https" then none else some h.url.withoutUser

end Hop

/-! ## Following redirects -/

def maxRedirects : Nat := 10

/-- The requests that reach a server, and the answer in the end. -/
structure Exchange where
  requests : List Request
  outcome : Except Failure Answer

/-- Sends a request and follows up to `budget` redirects; `sent` requests have been received
before. A connection that fails is told of with the URL that was asked for first. -/
def follow (net : Network) (asked : Url) : Nat → Nat → Hop → Exchange
  | budget, sent, hop =>
    let ended (outcome : Except Failure Answer) : Exchange := ⟨[hop.request], outcome⟩
    match net.reply? sent hop.url.origin with
    | none => ⟨[], .error (.unanswered asked)⟩
    | some .closed => ended (.error (.unanswered asked))
    | some (.answer a) =>
      match hop.redirect? a with
      | none => ended (.ok a)
      | some place =>
        match Url.ofText? place.toText with
        | none => ended (.error (.unusable (some asked)))
        | some url =>
          match budget with
          | 0 => ended (.error (.misled hop.url))
          | budget + 1 =>
            if url.isWeb = false then ended (.error (.unusable (some url)))
            else
              let rest := follow net asked budget (sent + 1) (hop.onward a place url)
              ⟨hop.request :: rest.requests, rest.outcome⟩
  termination_by budget => budget

def credentials? (u : Url) : Option String := do
  let plain (text : String) : Option (List Char) :=
    Utf8.decode? (Percent.decode (Utf8.encode text.toList))
  let name ← plain u.username
  let word := u.password.bind plain
  if name = [] ∧ word = none then none
  else some (String.ofList (name ++ ':' :: word.getD []))

def post (net : Network) (address form : String) : Exchange :=
  match Url.ofText? address with
  | none => ⟨[], .error (.unusable none)⟩
  | some url =>
    let user := credentials? url
    let asked := if user.isSome then url.withoutUser else url
    if asked.isWeb = false then ⟨[], .error (.unusable (some asked))⟩
    else
      let url := { asked with fragment := none }
      follow net asked maxRedirects 0
        { url := url
          target := url.path.toText ++ url.queryText
          place := Reference.ofText? url.toText.toList
          form := some form
          user := user
          isSameHost := true
          referer := none }

end WebSub.Http
