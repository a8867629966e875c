import WebSub.Http.Message
import WebSub.Http.Status

/-!
# Endpoints

What the service answers at each of its addresses, as flows.
-/

namespace WebSub.Http

/-- What the endpoints need to know. -/
structure App where
  defaults : Defaults
  verifier : Verifier
  sweeps : Sweep.Settings
  /-- Where the hub delivers and verifies. -/
  webhookPath : String

def version : String := "0.1.0"

def maxBody : Nat := 2097152

/-! ## Written forms -/

def instantJson (t : Instant) : Json := .str t.toText

/-- A subscription as clients see it at `now`: without its secret. -/
def subscriptionJson (now : Instant) (s : Subscription) : Json :=
  .object [
    ("id", .str s.id.toText),
    ("channel_id", .str s.channelId),
    ("topic_url", .str s.topicUrl),
    ("callback_url", .str s.callbackUrl),
    ("hub_url", .str s.hubUrl),
    ("lease_seconds", .int s.leaseSeconds),
    ("expires_at", instantJson s.expiresAt),
    ("status", .str (s.effectiveStatus now).name),
    ("last_verified_at", Json.optional instantJson s.lastVerifiedAt),
    ("created_at", instantJson s.createdAt),
    ("updated_at", instantJson s.updatedAt)]

def unsubscribedJson (u : Service.Unsubscribed) : Json :=
  .object [
    ("id", .str u.id.toText),
    ("deleted", .bool u.deleted),
    ("unsubscribed", .bool u.unsubscribed),
    ("hub_status", Json.optional (fun n : Nat => .int n) u.hubStatus),
    ("hub_error", Json.optional Json.str u.hubError)]

def reportJson (r : Sweep.Report) : Json :=
  .object [("attempted", .int r.attempted), ("succeeded", .int r.succeeded),
    ("failed", .int r.failed), ("skipped", .int r.skipped), ("lapsed", .int r.lapsed)]

def outcomeJson : Delivery.Outcome → Json
  | .accepted id _ => .object [("status", .str "accepted"), ("event_id", .str id.toText)]
  | .malformed id e => .object [("status", .str "malformed"), ("event_id", .str id.toText),
      ("error", .str e.message), ("field", Json.optional (fun f => .str f.name) e.field?)]
  | .deferred id _ => .object [("status", .str "deferred"), ("event_id", .str id.toText)]

/-! ## Reading requests -/

def single (query : List (String × String)) (name : String) : Except Unit (Option String) :=
  match query.filter (·.1 == name) with
  | [] => .ok none
  | [(_, value)] => .ok (some value)
  | _ => .error ()

def numeral : Option String → Except Unit (Option Nat)
  | none => .ok none
  | some text =>
    match Decimal.upTo? Decimal.word64Max text.toList with
    | some n => .ok (some n)
    | none => .error ()

def listRequest (query : List (String × String)) : Except Unit ListRequest := do
  return ⟨← single query "status", ← numeral (← single query "limit"),
    ← numeral (← single query "offset")⟩

/-- What the hub says when it verifies. -/
structure Handshake where
  mode : Option String
  topic : Option String
  challenge : Option String
  leaseSeconds : Option String
  reason : Option String

namespace Handshake

def ofQuery (query : List (String × String)) : Except Unit Handshake := do
  return ⟨← single query "hub.mode", ← single query "hub.topic", ← single query "hub.challenge",
    ← single query "hub.lease_seconds", ← single query "hub.reason"⟩

/-- What is to be recorded: nothing without a topic and a known mode. A lease that is no numeral
counts as none. -/
def verification? (h : Handshake) : Option Service.Verification := do
  let topic ← h.topic
  match ← h.mode with
  | "subscribe" =>
    some (.subscribe topic (h.leaseSeconds.bind fun text => Decimal.int64? text.toList))
  | "unsubscribe" => some (.unsubscribe topic)
  | "denied" => some (.denied topic h.reason)
  | _ => none

/-- The challenge to send back; an empty one is none. -/
def challenge? (h : Handshake) : Option String := h.challenge.filter (· != "")

def isDenied (h : Handshake) : Bool :=
  match h.verification? with
  | some (.denied ..) => true
  | _ => false

end Handshake

/-- The identity in a segment of a path, in any notation. -/
def pathId? (segment : List Char) : Option Uuid :=
  (Utf8.decode? (Percent.decode (Utf8.encode segment))).bind Uuid.ofText?

/-! ## Answers -/

/-- Runs an operation and answers with its result or its failure. -/
def answering {α : Type} (operation : Service.Operation α) (answer : α → Flow Response) :
    Flow Response := do
  match ← operation.run with
  | .ok a => answer a
  | .error e => return .problem (Status.ofService e) e.message

/-- A subscription as it is seen when the answer is written. -/
def showing (status : Nat) (s : Subscription) : Flow Response := do
  return .json status (subscriptionJson (← Flow.now) s)

def create (app : App) (r : Request) : Flow Response :=
  if !r.isJson then return .complaint 415
  else if maxBody < r.body.length then return .complaint 413
  else match CreateRequest.ofJson r.body with
    | .error .malformed => return .complaint 400
    | .error .unsuitable => return .complaint 422
    | .ok create => answering (Service.subscribe app.defaults create) (showing 201)

/-- The page is shown as of the time before it was read. -/
def list (r : Request) : Flow Response :=
  match listRequest r.query with
  | .error () => return .complaint 400
  | .ok request => do
    let now ← Flow.now
    answering (Service.list request) fun page =>
      return .json 200 (.array (page.map (subscriptionJson now)))

def get (id : Uuid) : Flow Response := answering (Service.get id) (showing 200)

def delete (id : Uuid) : Flow Response :=
  answering (Service.unsubscribe id) fun u => return .json 200 (unsubscribedJson u)

def renew (id : Uuid) : Flow Response := answering (Service.renew id) (showing 200)

/-- The sweep stands on its own, so that its breakdown is answered like any failure. -/
def triggerSweep (app : App) : Flow Response := do
  match ← (Sweep.sweep app.sweeps).isolated with
  | some (.ok report) => return .json 200 (reportJson report)
  | some (.error e) => return .problem (Status.ofSweep e) e.message
  | none => return .problem Status.internal "task panicked"

/-- What is sent back to the hub. -/
def Handshake.echo (h : Handshake) : Response :=
  match h.challenge? with
  | some challenge => ⟨200, some "text/plain", .text challenge⟩
  | none => .empty 200

/-- Records what the hub says; its challenge is sent back whatever comes of that. -/
def Handshake.acknowledge (h : Handshake) : Flow Response :=
  if h.challenge?.isNone && !h.isDenied then return .text 400 "missing hub.challenge"
  else do
    if let some v := h.verification? then let _ ← (Service.confirm v).run
    return h.echo

/-- The hub's verification. -/
def verify (r : Request) : Flow Response :=
  match Handshake.ofQuery r.query with
  | .error () => return .complaint 400
  | .ok h => h.acknowledge

def signatureHeader : String := "X-Hub-Signature"

/-- A delivery is acknowledged unless it is not trusted or cannot be recorded. -/
def receive (app : App) (r : Request) : Flow Response :=
  if maxBody < r.body.length then return .complaint 413
  else do
    match ← (Delivery.process app.verifier r.body (r.header? signatureHeader)).run with
    | .ok outcome => return .json 200 (outcomeJson outcome)
    | .error (.duplicate _) => return .json 200 (.object [("status", .str "duplicate")])
    | .error e => return .problem (Status.ofDelivery e) e.message

end WebSub.Http
