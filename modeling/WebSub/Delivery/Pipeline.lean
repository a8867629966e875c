import WebSub.Feed.Decoder
import WebSub.Flow.Basic
import WebSub.Signature

/-!
# Deliveries

What is done with a delivered body: its signature is checked, its content is recorded unless it was
seen before, it is decoded and handed on, and the record is told what became of it. Bytes that fail
the check are neither stored nor read.
-/

namespace WebSub.Delivery

/-- What a delivery came to once its body was recorded. -/
inductive Outcome where
  | accepted (event : Uuid) (notification : Feed.Notification)
  | malformed (event : Uuid) (error : Feed.DecodeError)
  /-- Readable, but it could not be handed on. -/
  | deferred (event : Uuid) (error : String)

/-- Why a delivery was not processed to its end. -/
inductive Error where
  | signature (e : SignatureError)
  | duplicate (contentHash : String)
  | persistence (e : Store.Error)
deriving DecidableEq, Repr

def Error.message : Error → String
  | .signature e => "signature verification failed: " ++ e.message
  | .duplicate contentHash => "duplicate event: " ++ contentHash
  | .persistence e => "persistence error: " ++ e.message

def Outcome.label : Outcome → String
  | .accepted .. => "accepted"
  | .malformed .. => "malformed"
  | .deferred .. => "deferred"

def counter (outcome : String) : Metric :=
  ⟨"webhook_notifications_total", [("outcome", outcome)]⟩

def record (event : Uuid) (o : Event.Outcome) : ExceptT Error Flow Unit :=
  ExceptT.mk do return (← Flow.events (.recordOutcome event o)).mapError .persistence

/-- Hands a notification on and records how that went. -/
def handOff (event : Uuid) (n : Feed.Notification) : ExceptT Error Flow Outcome := do
  match ← Flow.request (.handle event n) with
  | .ok () =>
    record event (.succeeded n.videoId? n.channelId?)
    return .accepted event n
  | .error causes =>
    let error := ": ".intercalate causes
    record event (.failed error n.videoId? n.channelId?)
    return .deferred event error

/-- Decodes a recorded body and goes on with what it says. -/
def digest (event : Uuid) (body : List UInt8) : ExceptT Error Flow Outcome :=
  match Feed.decodeBytes body with
  | .ok n => handOff event n
  | .error e => do
    record event (.rejected e.message)
    return .malformed event e

/-- Stores a record of the body; its content must be new. -/
def insert (body : List UInt8) : ExceptT Error Flow Event := do
  let receivedAt ← Flow.now
  let id ← Flow.freshId
  let createdAt ← Flow.now
  let e := Event.received id body (fingerprint body) receivedAt createdAt
  match ← Flow.events (.insertNew e) with
  | .ok _ => return e
  | .error .duplicate =>
    Flow.count (counter "duplicate")
    throw (.duplicate e.contentHash)
  | .error e => throw (.persistence e)

def process (v : Verifier) (body : List UInt8) (header : Option (List UInt8)) :
    ExceptT Error Flow Outcome := do
  match v.verifyHeader body header with
  | .error e =>
    Flow.count (counter "rejected_signature")
    throw (.signature e)
  | .ok () =>
    let e ← insert body
    let outcome ← digest e.id body
    Flow.count (counter outcome.label)
    return outcome

end WebSub.Delivery
