import WebSub.Simulation.Script
import WebSub.Store.Backend

/-!
# The simulated world

All that a subscriber's operations can ask for, as one value: a clock that only moves when told to,
stores, a scripted hub, and a log of what was done.
-/

namespace WebSub.Simulation

structure World where
  clock : Instant
  subscriptions : Store.Subscriptions
  events : Store.Events
  script : HubScript := {}
  faults : Faults := []
  /-- Why notifications cannot be handed on, outermost cause first; empty if they can. -/
  handlerCauses : List String := []
  stopped : Bool := false
  /-- Some sweep holds the lock. -/
  sweeping : Bool := false
  /-- How many identities were drawn. -/
  draws : Nat := 0
  /-- The identities of stored rows, in the order in which they were first stored. -/
  subscriptionIds : List Uuid := []
  eventIds : List Uuid := []
  /-- What was done since the log was last cleared. -/
  hubCalls : List (Hub.Mode × Hub.Request) := []
  handled : List (Uuid × Feed.Notification) := []
  counts : List (Metric × Nat) := []

namespace World

def clearLog (w : World) : World := { w with hubCalls := [], handled := [], counts := [] }

def drawId (w : World) : Uuid × World := (.drawn w.draws, { w with draws := w.draws + 1 })

def advance (w : World) (ms : Int) : World := { w with clock := w.clock.addMillis ms }

/-! ## Rows by label order -/

def subscriptionRows (w : World) : List Subscription :=
  w.subscriptionIds.filterMap w.subscriptions.get?

def eventRows (w : World) : List Event :=
  w.eventIds.filterMap fun id => w.events.rows.find? (·.id == id)

def noteSubscription (w : World) (id : Uuid) : World :=
  { w with subscriptionIds := w.subscriptionIds ++ [id] }

/-! ## Store calls -/

def callSubscriptions (w : World) (c : Store.SubscriptionCall) : c.Answer × World :=
  let (a, subscriptions) := w.subscriptions.answer c
  let w := { w with subscriptions }
  match c, a with
  | .create s, some (.ok r) => (some (.ok r), w.noteSubscription s.id)
  | _, a => (a, w)

def askSubscriptions (w : World) (c : Store.SubscriptionCall) : c.Answer × World :=
  match w.faults.find? c.name with
  | some e => (some (.error e), w)
  | none => w.callSubscriptions c

def askEvents (w : World) (c : Store.EventCall) : c.Answer × World :=
  match c.name?.bind w.faults.find? with
  | some e => (.error e, w)
  | none =>
    let (a, events) := w.events.answer c
    let w := { w with events }
    match c, a with
    | .insertNew e, .ok r => (.ok r, { w with eventIds := w.eventIds ++ [e.id] })
    | _, a => (a, w)

/-- Puts a row into a store in memory without any check; a database has no such door. -/
def plant (w : World) (s : Subscription) : Option World :=
  match w.subscriptions with
  | .memory m => some ({ w with subscriptions := .memory (m.put s) }.noteSubscription s.id)
  | .table _ => none

/-! ## The hub -/

/-- Logs a call and looks up how the hub takes it. -/
def beginCall (w : World) (mode : Hub.Mode) (r : Hub.Request) : Reply × World :=
  let (reply, script) := w.script.next r.topicUrl
  (reply, { w with script, hubCalls := w.hubCalls ++ [(mode, r)] })

/-- Lets a call that does not wait take its course: the answer, if there is one, takes a
millisecond. -/
def deliver (w : World) (reply : Reply) : Option Hub.Result × World :=
  let w := { w with stopped := w.stopped || reply.stops }
  if reply.hangs then (none, w) else (some reply.result, w.advance 1)

/-! ## The rest -/

def handle (w : World) (event : Uuid) (n : Feed.Notification) : Except (List String) Unit × World :=
  (if w.handlerCauses.isEmpty then .ok () else .error w.handlerCauses,
    { w with handled := w.handled ++ [(event, n)] })

def lockSweeps (w : World) : Bool × World := (!w.sweeping, { w with sweeping := true })

def count (w : World) (m : Metric) (amount : Nat) : World :=
  { w with counts :=
      if w.counts.any (·.1 == m) then
        w.counts.map fun (n, k) => if n = m then (n, k + amount) else (n, k)
      else w.counts ++ [(m, amount)] }

end World

end WebSub.Simulation
