import WebSub.Service.Basic

/-!
# Operations on subscriptions

Subscribing, renewing, unsubscribing, reading, and the hub's verification of what was asked.
-/

namespace WebSub.Service

/-! ## Subscribing -/

def validate (violations : Violations) : Operation Unit :=
  if violations.isEmpty then pure () else throw (.invalidRequest violations.message)

/-- The subscription to ask for: a stored one for the channel and callback with the lease and
secret of the request, or else a new one, which is stored before the hub is asked. -/
def prepare (d : Defaults) (channelId : String) (lease : Int) : Operation Subscription := do
  match ← call (.findByPair channelId d.callbackUrl) with
  | some s => return { s with leaseSeconds := lease, secret := d.secret }
  | none =>
    let id ← Flow.freshId
    let now ← Flow.now
    let s ← (Flow.ofOption
      (Subscription.new? id channelId d.callbackUrl d.hubUrl lease d.secret now) :
        Flow Subscription)
    call (.create s)

/-- Subscribes to a channel, anew if it was subscribed to before. -/
def subscribe (d : Defaults) (r : CreateRequest) : Operation Subscription := do
  validate r.violations
  let lease := r.leaseSeconds.getD d.leaseSeconds
  match Hub.checkLease lease d.maxLeaseSeconds with
  | .error e => throw (.invalidRequest e.message)
  | .ok () => handshake (← prepare d r.channelId lease)

def get (id : Uuid) : Operation Subscription := do
  match ← call (.find id) with
  | some s => return s
  | none => throw .notFound

def renew (id : Uuid) : Operation Subscription := do handshake (← get id)

/-! ## Unsubscribing -/

/-- What came of a deletion. -/
structure Unsubscribed where
  id : Uuid
  deleted : Bool
  /-- The hub agreed. -/
  unsubscribed : Bool
  /-- The status of the hub's answer, if it gave one. -/
  hubStatus : Option Nat
  hubError : Option String
deriving DecidableEq, Repr

/-- How the hub took the request to end a subscription. -/
def Unsubscribed.ofResult (id : Uuid) (deleted : Bool) : Hub.Result → Unsubscribed
  | .ok r => ⟨id, deleted, r.accepted, some r.statusCode, none⟩
  | .error e =>
    let status := match e with
      | .subscriptionFailed status _ => some status
      | _ => none
    ⟨id, deleted, false, status, some e.message⟩

/-- Asks the hub to end the subscription and deletes the row, whatever the hub answers: a
subscription that the hub keeps runs out with its lease. -/
def unsubscribe (id : Uuid) : Operation Unsubscribed := do
  let s ← get id
  let result ← Flow.hub .unsubscribe s.hubRequest
  let deleted ← call (.delete id)
  return .ofResult id deleted result

/-! ## Listing -/

/-- The status that a request names, if it names one. -/
def statusFilter : Option String → Operation (Option Status)
  | none => pure none
  | some text =>
    match Status.ofName? text with
    | some s => pure (some s)
    | none => throw (.invalidRequest (Status.unknownMessage text))

/-- A page from the store, as of the time of the call. -/
def page (status : Option Status) (limit offset : Nat) : Operation (List Subscription) := do
  let now ← Flow.now
  call (.list status limit offset now)

def list (r : ListRequest) : Operation (List Subscription) := do
  validate r.violations
  let status ← statusFilter r.status
  page status (r.limit.getD ListRequest.defaultLimit) (r.offset.getD ListRequest.defaultOffset)

/-! ## Verification -/

/-- What the hub calls back about. -/
inductive Verification where
  | subscribe (topicUrl : String) (lease : Option Int)
  | unsubscribe (topicUrl : String)
  | denied (topicUrl : String) (reason : Option String)
deriving DecidableEq, Repr

namespace Verification

def topicUrl : Verification → String
  | subscribe topicUrl _ | unsubscribe topicUrl | denied topicUrl _ => topicUrl

/-- How a subscription to the topic changes, if it does. -/
def change? (now : Instant) (s : Subscription) : Verification → Option Subscription.Change
  | subscribe _ lease => some (s.recordVerification now lease)
  | unsubscribe _ => none
  | denied .. => some (.ok (s.markFailed now))

end Verification

/-- Changes the subscriptions one after another; the first failure ends it. -/
def recordAll (v : Verification) (now : Instant) : List Subscription → Operation Unit
  | [] => pure ()
  | s :: rest => do
    match v.change? now s with
    | none => recordAll v now rest
    | some change =>
      let s ← (Flow.ofChange change : Flow Subscription)
      let _ ← call (.update s)
      recordAll v now rest

/-- Applies a callback to all subscriptions to its topic, and counts them. -/
def confirm (v : Verification) : Operation Nat := do
  let now ← Flow.now
  let subscriptions ← call (.findByTopic v.topicUrl)
  recordAll v now subscriptions
  return subscriptions.length

end WebSub.Service
