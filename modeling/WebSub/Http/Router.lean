import WebSub.Http.Endpoint

/-!
# Routing

Which endpoint answers at an address: paths are compared segment by segment, and a method that an
address does not know is told apart from an address that there is not.
-/

namespace WebSub.Http

inductive Route where
  | webhook
  | health
  | version
  | subscriptions
  | subscription (id : List Char)
  | renewal (id : List Char)
  | sweeps
deriving DecidableEq, Repr

namespace Route

/-- The route of a path; the segment of an identity is never empty. -/
def ofPath? (webhookPath : String) (path : List Char) : Option Route :=
  if path = webhookPath.toList then some webhook
  else
    match (path.splitOn '/').map String.ofList with
    | ["", "health"] => some health
    | ["", "v1", "version"] => some version
    | ["", "v1", "subscriptions"] => some subscriptions
    | ["", "v1", "subscriptions", id] => if id = "" then none else some (subscription id.toList)
    | ["", "v1", "subscriptions", id, "renew"] => if id = "" then none else some (renewal id.toList)
    | ["", "v1", "renewals"] => some sweeps
    | _ => none

def withId (segment : List Char) (endpoint : Uuid → Flow Response) : Flow Response :=
  match pathId? segment with
  | some id => endpoint id
  | none => return .complaint 400

/-- The endpoint of a route for a method, if it has one. -/
def endpoint? (app : App) (r : Request) (method : String) : Route → Option (Flow Response)
  | webhook =>
    if method = "GET" then some (verify r)
    else if method = "POST" then some (receive app r)
    else none
  | health => if method = "GET" then some (return .text 200 "OK") else none
  | version => if method = "GET" then some (return .text 200 Http.version) else none
  | subscriptions =>
    if method = "GET" then some (list r)
    else if method = "POST" then some (create app r)
    else none
  | subscription id =>
    if method = "GET" then some (withId id get)
    else if method = "DELETE" then some (withId id delete)
    else none
  | renewal id => if method = "POST" then some (withId id renew) else none
  | sweeps => if method = "POST" then some (triggerSweep app) else none

end Route

/-- Answers a request. A HEAD request gets what a GET request would get, without the body. -/
def respond (app : App) (r : Request) : Flow Response :=
  match Route.ofPath? app.webhookPath r.path with
  | none => return .empty 404
  | some route =>
    if r.method = "HEAD" then
      match route.endpoint? app r "GET" with
      | some answer => do return (← answer).headOnly
      | none => return .empty 405
    else (route.endpoint? app r r.method).getD (return .empty 405)

end WebSub.Http
