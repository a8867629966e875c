import WebSub.Http.Exchange
import WebSub.Hub.Protocol
import WebSub.Metrics
import WebSub.Text.Blank

/-!
# The hub client

A request to a hub is a form that is posted to it; the answer's status says whether the hub agrees,
and its body may name the lease that the hub settled on.
-/

namespace WebSub.Hub.Client

/-- The fields of the form. An empty secret is none. -/
def fields (mode : Mode) (r : Request) : List (String × String) :=
  [("hub.mode", mode.name), ("hub.topic", r.topicUrl), ("hub.callback", r.callbackUrl),
    ("hub.lease_seconds", toString r.leaseSeconds)] ++
    ((r.secret.filter (· ≠ "")).map fun s => ("hub.secret", s)).toList

def form (mode : Mode) (r : Request) : String := Form.write (fields mode r)

/-- The lease that a body names: the first such field decides. -/
def negotiatedLease (body : List Char) : Option Int :=
  ((Form.read (Utf8.encode (Blank.trim body))).lookup "hub.lease_seconds").bind fun v =>
    Decimal.int64? v.toList

def understand (charsets : Charset.Library) (a : Http.Answer) : Except Error Response :=
  if a.isSuccess then .ok ⟨true, a.status, negotiatedLease (a.text charsets)⟩
  else .error (.subscriptionFailed a.status (String.ofList (a.text charsets)))

/-! ## Metrics -/

def counter (mode : Mode) (result : String) : Metric :=
  ⟨"hub_requests_total", [("mode", mode.name), ("result", result)]⟩

def histogram (mode : Mode) : Metric :=
  ⟨"hub_request_duration_seconds", [("mode", mode.name)]⟩

/-- What is counted: how the request ended, and how long an answer took if there was one. -/
def counted (mode : Mode) : Except Http.Failure Http.Answer → List Metric
  | .error _ => [counter mode "transport_error"]
  | .ok a => [histogram mode, counter mode (if a.isSuccess then "accepted" else "rejected")]

/-! ## Sending -/

/-- What comes of a request. -/
structure Outcome where
  result : Except Error Response
  /-- What reached a server. -/
  requests : List Http.Request
  metrics : List Metric

/-- The longest lease that a client with this limit asks for. -/
def limit (max : Int) : Int := min max maxLeaseSeconds

/-- Sends a request to its hub, unless its lease is out of bounds. -/
def send (max : Int) (net : Http.Network) (mode : Mode) (r : Request) : Outcome :=
  match checkLease r.leaseSeconds (limit max) with
  | .error e => ⟨.error e, [], []⟩
  | .ok () =>
    let exchange := Http.post net r.hubUrl (form mode r)
    let result := match exchange.outcome with
      | .ok a => understand net.charsets a
      | .error failure => .error (.transport failure.message)
    ⟨result, exchange.requests, counted mode exchange.outcome⟩

end WebSub.Hub.Client
