import WebSub.Hub.Protocol
import WebSub.Subscription.Status
import WebSub.Text.Uuid
import WebSub.Time.Instant
import WebSub.Topic

/-!
# Subscriptions

A channel's feed as it is subscribed to at a hub, and how hub answers and callbacks change it. A
change that would need an instant out of range stops where it stands.
-/

namespace WebSub

structure Subscription where
  id : Uuid
  channelId : String
  topicUrl : String
  callbackUrl : String
  hubUrl : String
  leaseSeconds : Int
  expiresAt : Instant
  status : Status
  /-- The hub signs what it sends with this. -/
  secret : Option String
  /-- When the hub last called back to verify. -/
  lastVerifiedAt : Option Instant
  createdAt : Instant
  updatedAt : Instant
deriving DecidableEq, Repr

namespace Subscription

/-- The result of a change; an error carries what was reached when an instant went out of range. -/
abbrev Change := Except Subscription Subscription

/-- A pending subscription whose lease starts now. -/
def new? (id : Uuid) (channelId callbackUrl hubUrl : String) (leaseSeconds : Int)
    (secret : Option String) (now : Instant) : Option Subscription :=
  (now.addSeconds? leaseSeconds).map fun expiresAt =>
    { id, channelId, topicUrl := WebSub.topicUrl channelId, callbackUrl, hubUrl, leaseSeconds,
      expiresAt, status := .pending, secret, lastVerifiedAt := none, createdAt := now,
      updatedAt := now }

/-- A lease that counts: positive, and cut to the longest one allowed. -/
def boundedLease (lease : Option Int) : Option Int :=
  (lease.filter (0 < ·)).map (min · maxLeaseSeconds)

/-- Moves to a status that may follow the present one. -/
def transition? (s : Subscription) (next : Status) (now : Instant) : Option Subscription :=
  if s.status.canBecome next then some { s with status := next, updatedAt := now } else none

/-- Starts the lease over at `now`. -/
def restartLease (s : Subscription) (now : Instant) : Change :=
  match now.addSeconds? s.leaseSeconds with
  | some t => .ok { s with expiresAt := t }
  | none => .error s

/-- The hub accepted: the lease it settled on, if any, runs from now. -/
def markActive (s : Subscription) (now : Instant) (lease : Option Int) : Change :=
  match s.transition? .active now with
  | none => .ok s
  | some s =>
    match boundedLease lease with
    | some l => { s with leaseSeconds := l }.restartLease now
    | none => s.restartLease now

def markFailed (s : Subscription) (now : Instant) : Subscription :=
  (s.transition? .failed now).getD s

/-- Active by its status, but the lease has run out. -/
def isLapsed (s : Subscription) (now : Instant) : Bool :=
  s.status == .active && decide (s.expiresAt < now)

/-- Turns a lapsed subscription into an expired one, and tells whether it did. -/
def markExpired (s : Subscription) (now : Instant) : Subscription × Bool :=
  if s.isLapsed now then
    match s.transition? .expired now with
    | some s => (s, true)
    | none => (s, false)
  else (s, false)

/-- The hub called back: a lease it names is adopted, and restarts an active subscription. -/
def recordVerification (s : Subscription) (now : Instant) (lease : Option Int) : Change :=
  let s := { s with lastVerifiedAt := some now }
  match boundedLease lease with
  | none => .ok { s with updatedAt := now }
  | some l =>
    let s := { s with leaseSeconds := l }
    if s.status = .active then
      (s.restartLease now).map fun s => { s with updatedAt := now }
    else .ok { s with updatedAt := now }

/-- The status that a reader should see: a lapsed subscription counts as expired. -/
def effectiveStatus (s : Subscription) (now : Instant) : Status :=
  if s.isLapsed now then .expired else s.status

/-- Whether an active or failed subscription runs out within the span; `none` if the end of the
span is out of range. -/
def needsRenewal? (s : Subscription) (now : Instant) (lookahead : Duration) : Option Bool :=
  if s.status = .active ∨ s.status = .failed then
    (now.add? lookahead).map fun t => decide (s.expiresAt ≤ t)
  else some false

/-- What the hub is asked on behalf of a subscription. -/
def hubRequest (s : Subscription) : Hub.Request :=
  { hubUrl := s.hubUrl, topicUrl := s.topicUrl, callbackUrl := s.callbackUrl,
    leaseSeconds := s.leaseSeconds, secret := s.secret }

end Subscription

end WebSub
