import WebSub.Store.Call

/-!
# Stores in memory

Rows in a list, in the order in which they came. The rules are those of the database: no two
subscriptions share an identity or a channel and callback, no two events an identity or a hash.
-/

namespace WebSub.Store

/-! ## Subscriptions -/

structure MemorySubscriptions where
  rows : List Subscription := []
deriving DecidableEq, Repr

namespace MemorySubscriptions

def clash (a b : Subscription) : Bool :=
  a.id == b.id || (a.channelId == b.channelId && a.callbackUrl == b.callbackUrl)

def get? (m : MemorySubscriptions) (id : Uuid) : Option Subscription := m.rows.find? (·.id == id)

/-- Puts a row in the place of the one with its identity. -/
def replace (m : MemorySubscriptions) (s : Subscription) : MemorySubscriptions :=
  ⟨m.rows.map fun r => if r.id = s.id then s else r⟩

/-- Stores a row without asking whether another one stands against it. -/
def put (m : MemorySubscriptions) (s : Subscription) : MemorySubscriptions :=
  if (m.get? s.id).isSome then m.replace s else ⟨m.rows ++ [s]⟩

def page (limit offset : Nat) (rows : List Subscription) : List Subscription :=
  (rows.drop offset).take limit

/-- Oldest first, restricted to those whose status at `now` is the given one. -/
def listed (m : MemorySubscriptions) (status : Option Status) (now : Instant) :
    List Subscription :=
  (m.rows.mergeSort fun a b => decide (a.createdAt ≤ b.createdAt)).filter fun s =>
    match status with
    | some status => s.effectiveStatus now == status
    | none => true

def dueActive (m : MemorySubscriptions) (before : Instant) : List Subscription :=
  (m.rows.filter fun s => s.status == .active && decide (s.expiresAt ≤ before)).mergeSort
    fun a b => decide (a.expiresAt ≤ b.expiresAt)

/-- Failed and expired rows, the one that was changed longest ago first. -/
def dueRetries (m : MemorySubscriptions) (before : Instant) : List Subscription :=
  (m.rows.filter fun s =>
    (s.status == .failed || s.status == .expired) && decide (s.expiresAt ≤ before)).mergeSort
      fun a b => decide (a.updatedAt ≤ b.updatedAt)

/-- The batch to renew: active rows come first, and retries fill what is left. -/
def expiring (m : MemorySubscriptions) (before : Instant) (limit : Nat) : List Subscription :=
  let due := (m.dueActive before).take limit
  due ++ (m.dueRetries before).take (limit - due.length)

def answer (m : MemorySubscriptions) :
    (c : SubscriptionCall) → Except Error c.Value × MemorySubscriptions
  | .create s =>
    if m.rows.any (clash · s) then (.error .duplicate, m) else (.ok s, ⟨m.rows ++ [s]⟩)
  | .find id => (.ok (m.get? id), m)
  | .findByPair channelId callbackUrl =>
    (.ok (m.rows.find? fun s => s.channelId == channelId && s.callbackUrl == callbackUrl), m)
  | .findByTopic topicUrl => (.ok (m.rows.filter (·.topicUrl == topicUrl)), m)
  | .update s => if (m.get? s.id).isSome then (.ok s, m.replace s) else (.error .notFound, m)
  | .list status limit offset now => (.ok (page limit offset (m.listed status now)), m)
  | .findExpiring before limit => (.ok (m.expiring before limit), m)
  | .markLapsed now =>
    (.ok (m.rows.countP (·.isLapsed now)), ⟨m.rows.map fun s => (s.markExpired now).1⟩)
  | .delete id => (.ok (m.get? id).isSome, ⟨m.rows.filter (·.id != id)⟩)

end MemorySubscriptions

/-! ## Events -/

structure MemoryEvents where
  rows : List Event := []
deriving DecidableEq, Repr

namespace MemoryEvents

def answer (m : MemoryEvents) : (c : EventCall) → Except Error c.Value × MemoryEvents
  | .insertNew e =>
    if m.rows.any fun r => r.contentHash == e.contentHash || r.id == e.id then
      (.error .duplicate, m)
    else (.ok e, ⟨m.rows ++ [e]⟩)
  | .find id => (.ok (m.rows.find? (·.id == id)), m)
  | .findByHash contentHash => (.ok (m.rows.find? (·.contentHash == contentHash)), m)
  | .recordOutcome id outcome =>
    if m.rows.any (·.id == id) then
      (.ok (), ⟨m.rows.map fun r => if r.id = id then r.withOutcome outcome else r⟩)
    else (.error .notFound, m)

end MemoryEvents

end WebSub.Store
