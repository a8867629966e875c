import WebSub.Store.Call
import WebSub.Text.Decimal

/-!
# The table of subscriptions

Subscriptions in a database: queries with a condition, an order and a limit, and statements that
write named columns. Rows are unique by identity and by channel and callback.

Two things are assumed of the database. It compares timestamps chronologically; where a column
keeps them as texts, this holds up to the year 9999. And rows that a query does not order among
themselves keep one order from query to query, here that of the table.
-/

namespace WebSub.Store

/-- What a query or a statement asks of a row. -/
inductive Condition where
  | always
  | idIs (id : Uuid)
  | channelIs (channelId : String)
  | callbackIs (callbackUrl : String)
  | topicIs (topicUrl : String)
  | statusIs (status : Status)
  /-- Expires at the instant or before it. -/
  | expiresBy (t : Instant)
  | expiresBefore (t : Instant)
  /-- Expires at the instant or after it. -/
  | expiresFrom (t : Instant)
  | both (a b : Condition)
  | either (a b : Condition)
deriving DecidableEq, Repr

namespace Condition

/-- Timestamps are taken to be compared chronologically. -/
def holds (s : Subscription) : Condition → Bool
  | always => true
  | idIs id => s.id == id
  | channelIs channelId => s.channelId == channelId
  | callbackIs callbackUrl => s.callbackUrl == callbackUrl
  | topicIs topicUrl => s.topicUrl == topicUrl
  | statusIs status => s.status == status
  | expiresBy t => decide (s.expiresAt ≤ t)
  | expiresBefore t => decide (s.expiresAt < t)
  | expiresFrom t => decide (t ≤ s.expiresAt)
  | both a b => a.holds s && b.holds s
  | either a b => a.holds s || b.holds s

def lapsed (now : Instant) : Condition := both (statusIs .active) (expiresBefore now)

/-- What a row has to be for readers to see a status at `now`. -/
def shows (now : Instant) : Status → Condition
  | .expired => either (statusIs .expired) (lapsed now)
  | .active => both (statusIs .active) (expiresFrom now)
  | status => statusIs status

end Condition

structure SubscriptionTable where
  rows : List Subscription := []
deriving DecidableEq, Repr

namespace SubscriptionTable

/-- Numbers in a statement are signed and of 64 bits; a larger one cannot be sent at all. -/
def fits (n : Nat) : Bool := decide ((n : Int) ≤ Decimal.int64Max)

def select (t : SubscriptionTable) (c : Condition) : List Subscription :=
  t.rows.filter fun s => c.holds s

/-- The rows of a query by ascending instants, cut to a page. Rows with equal keys are taken to keep
one order in all queries. -/
def selectBy (t : SubscriptionTable) (c : Condition) (key : Subscription → Instant)
    (limit offset : Nat) : List Subscription :=
  (((t.select c).mergeSort fun a b => decide (key a ≤ key b)).drop offset).take limit

/-- Rewrites the rows that meet a condition, and counts them. -/
def update (t : SubscriptionTable) (c : Condition) (write : Subscription → Subscription) :
    Nat × SubscriptionTable :=
  ((t.select c).length, ⟨t.rows.map fun s => if c.holds s then write s else s⟩)

def delete (t : SubscriptionTable) (c : Condition) : Nat × SubscriptionTable :=
  ((t.select c).length, ⟨t.rows.filter fun s => !c.holds s⟩)

/-- The row that stands against a new one by the primary key or the unique index. -/
def conflict (s : Subscription) : Condition :=
  .either (.idIs s.id) (.both (.channelIs s.channelId) (.callbackIs s.callbackUrl))

/-- The columns that an update writes; the others stay as they are stored. -/
def writeColumns (new old : Subscription) : Subscription :=
  { old with
    leaseSeconds := new.leaseSeconds, expiresAt := new.expiresAt, status := new.status,
    secret := new.secret, lastVerifiedAt := new.lastVerifiedAt, updatedAt := new.updatedAt }

def writeExpired (now : Instant) (s : Subscription) : Subscription :=
  { s with status := .expired, updatedAt := now }

def dueActive (before : Instant) : Condition := .both (.statusIs .active) (.expiresBy before)

def dueRetry (before : Instant) : Condition :=
  .both (.either (.statusIs .failed) (.statusIs .expired)) (.expiresBy before)

/-- The batch to renew: one query for active rows, and a second one if there is room left. -/
def expiring (t : SubscriptionTable) (before : Instant) (limit : Nat) : List Subscription :=
  let due := t.selectBy (dueActive before) (·.expiresAt) limit 0
  let room := limit - due.length
  if 0 < room then due ++ t.selectBy (dueRetry before) (·.updatedAt) room 0 else due

def answer (t : SubscriptionTable) : (c : SubscriptionCall) → c.Answer × SubscriptionTable
  | .create s =>
    if (t.select (conflict s)).isEmpty then (some (.ok s), ⟨t.rows ++ [s]⟩)
    else (some (.error .duplicate), t)
  | .find id => (some (.ok (t.select (.idIs id)).head?), t)
  | .findByPair channelId callbackUrl =>
    (some (.ok (t.select (.both (.channelIs channelId) (.callbackIs callbackUrl))).head?), t)
  | .findByTopic topicUrl => (some (.ok (t.select (.topicIs topicUrl))), t)
  | .update s =>
    match (t.select (.idIs s.id)).head? with
    | none => (some (.error .notFound), t)
    | some old => (some (.ok (writeColumns s old)), (t.update (.idIs s.id) (writeColumns s)).2)
  | .list status limit offset now =>
    if fits limit && fits offset then
      let c := (status.map (Condition.shows now)).getD .always
      (some (.ok (t.selectBy c (·.createdAt) limit offset)), t)
    else (none, t)
  | .findExpiring before limit =>
    if fits limit then (some (.ok (t.expiring before limit)), t) else (none, t)
  | .markLapsed now =>
    let (n, t) := t.update (.lapsed now) (writeExpired now)
    (some (.ok n), t)
  | .delete id =>
    let (n, t) := t.delete (.idIs id)
    (some (.ok (decide (0 < n))), t)

end SubscriptionTable

end WebSub.Store
