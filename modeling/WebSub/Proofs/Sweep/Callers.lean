import WebSub.Http.Router
import WebSub.Proofs.Interleaving.Conduct

/-!
# Who sweeps

The background loop, requests to the service and direct calls try to sweep. What is left of a sweep
that holds the lock gives it back at last, and no other operation touches the lock or renews.
-/

namespace WebSub

open Interleaving

variable {α β ε : Type}

/-! ## What a flow may still ask for -/

/-- An answer of a store that keeps identities apart: no row is listed twice. -/
def Interleaving.Sane : (q : Request) → q.Answer → Prop
  | .subscriptions (.findExpiring ..), some (.ok rows) => (rows.map (·.id)).Nodup
  | _, _ => True

/-- Whatever it is answered, a flow only asks for requests of a kind. -/
def Flow.Only (p : Request → Prop) : Flow α → Prop
  | .done _ | .crash => True
  | .ask q next => p q ∧ ∀ a, Sane q a → (next a).Only p

/-- A flow with nothing left to do. -/
def Flow.IsOver : Flow α → Prop
  | .done _ | .crash => True
  | .ask .. => False

namespace Flow

variable {p : Request → Prop}

theorem only_bind {f : Flow α} {g : α → Flow β} (first : f.Only p) (rest : ∀ a, (g a).Only p) :
    (f.bind g).Only p := by
  induction f with
  | done a => exact rest a
  | crash => trivial
  | ask q next ih => exact ⟨first.1, fun a sane => ih a (first.2 a sane)⟩

theorem only_run_bind {x : ExceptT ε Flow α} {g : α → ExceptT ε Flow β} (first : Only p x.run)
    (rest : ∀ a, Only p (g a).run) : Only p (x >>= g).run := by
  refine only_bind first fun a => ?_
  cases a with
  | ok a => exact rest a
  | error e => trivial

theorem only_ofOption (a : Option α) : (Flow.ofOption a).Only p := by
  cases a <;> trivial

theorem only_ofChange (c : Subscription.Change) : (Flow.ofChange c).Only p := by
  cases c <;> trivial

end Flow

/-! ## Operations that do not sweep -/

/-- Requests that have nothing to do with sweeps. -/
def IsPlain : Request → Prop
  | .lockSweeps | .unlockSweeps | .renewAll .. | .hubUnlessStopped _ | .stopped => False
  | _ => True

namespace Service

open WebSub.Flow

theorem plain_call (c : Store.SubscriptionCall) : Only IsPlain (call c).run := by
  refine ⟨trivial, fun a _ => ?_⟩
  exact only_bind (only_ofOption a) fun _ => trivial

theorem plain_validate (violations : Violations) : Only IsPlain (validate violations).run := by
  unfold validate
  split <;> trivial

theorem only_applyHubResult {p : Request → Prop} (write : ∀ y, p (.subscriptions (.update y)))
    (s : Subscription) (result : Hub.Result) (now : Instant) :
    (applyHubResult s result now).Only p := by
  cases result with
  | ok response =>
    refine only_bind (only_ofChange _) fun s => ?_
    refine ⟨write s, fun a _ => ?_⟩
    exact only_bind (only_ofOption a) fun b => by cases b <;> trivial
  | error e =>
    refine ⟨write _, fun a _ => ?_⟩
    exact only_bind (only_ofOption a) fun _ => trivial

theorem plain_handshake (s : Subscription) : Only IsPlain (handshake s).run := by
  refine ⟨trivial, fun result _ => ⟨trivial, fun now _ => ?_⟩⟩
  exact only_bind (f := done now) trivial fun now =>
    only_bind (only_applyHubResult (fun _ => trivial) s result now) fun _ => trivial

theorem plain_prepare (d : Defaults) (channelId : String) (lease : Int) :
    Only IsPlain (prepare d channelId lease).run := by
  refine only_run_bind (plain_call _) fun found => ?_
  cases found with
  | some s => trivial
  | none =>
    refine ⟨trivial, fun id _ => ?_⟩
    refine ⟨trivial, fun now _ => ?_⟩
    exact only_run_bind (only_bind (only_ofOption _) fun _ => trivial) fun s => plain_call _

theorem plain_subscribe (d : Defaults) (r : CreateRequest) : Only IsPlain (subscribe d r).run := by
  refine only_run_bind (plain_validate _) fun _ => ?_
  dsimp only
  split
  · trivial
  · exact only_run_bind (plain_prepare _ _ _) fun s => plain_handshake s

theorem plain_get (id : Uuid) : Only IsPlain (get id).run := by
  refine only_run_bind (plain_call _) fun found => ?_
  cases found <;> trivial

theorem plain_renew (id : Uuid) : Only IsPlain (renew id).run :=
  only_run_bind (plain_get id) plain_handshake

theorem plain_unsubscribe (id : Uuid) : Only IsPlain (unsubscribe id).run := by
  refine only_run_bind (plain_get id) fun s => ?_
  refine ⟨trivial, fun result _ => ?_⟩
  exact only_run_bind (plain_call _) fun _ => trivial

theorem plain_list (r : ListRequest) : Only IsPlain (list r).run := by
  refine only_run_bind (plain_validate _) fun _ => ?_
  refine only_run_bind ?_ fun status => ?_
  · unfold statusFilter
    split
    · trivial
    · split <;> trivial
  · exact ⟨trivial, fun now _ => plain_call _⟩

theorem plain_recordAll (v : Verification) (now : Instant) (rows : List Subscription) :
    Only IsPlain (recordAll v now rows).run := by
  induction rows with
  | nil => trivial
  | cons s rest ih =>
    unfold recordAll
    split
    · exact ih
    · refine only_run_bind (only_bind (only_ofChange _) fun _ => trivial) fun s => ?_
      exact only_run_bind (plain_call _) fun _ => ih

theorem plain_confirm (v : Verification) : Only IsPlain (confirm v).run := by
  refine ⟨trivial, fun now _ => ?_⟩
  refine only_run_bind (plain_call _) fun rows => ?_
  exact only_run_bind (plain_recordAll v now rows) fun _ => trivial

end Service

namespace Delivery

open WebSub.Flow

theorem plain_record (event : Uuid) (o : Event.Outcome) : Only IsPlain (record event o).run :=
  ⟨trivial, fun _ _ => trivial⟩

theorem plain_digest (event : Uuid) (body : List UInt8) : Only IsPlain (digest event body).run := by
  unfold digest
  split
  · refine ⟨trivial, fun said _ => ?_⟩
    cases said with
    | ok => exact only_run_bind (plain_record _ _) fun _ => trivial
    | error causes => exact only_run_bind (plain_record _ _) fun _ => trivial
  · exact only_run_bind (plain_record _ _) fun _ => trivial

theorem plain_insert (body : List UInt8) : Only IsPlain (insert body).run := by
  refine ⟨trivial, fun received _ => ⟨trivial, fun id _ => ⟨trivial, fun created _ => ?_⟩⟩⟩
  refine ⟨trivial, fun stored _ => ?_⟩
  match stored with
  | .ok _ => trivial
  | .error .duplicate => exact ⟨trivial, fun _ _ => trivial⟩
  | .error .notFound => trivial
  | .error (.database _) => trivial

theorem plain_process (v : Verifier) (body : List UInt8) (header : Option (List UInt8)) :
    Only IsPlain (process v body header).run := by
  unfold process
  split
  · exact ⟨trivial, fun _ _ => trivial⟩
  · refine only_run_bind (plain_insert body) fun e => ?_
    refine only_run_bind (plain_digest e.id body) fun outcome => ?_
    exact ⟨trivial, fun _ _ => trivial⟩

end Delivery

namespace Http

open WebSub.Flow

variable {app : App} {r : Request}

theorem plain_answering {operation : Service.Operation α} {answer : α → Flow Response}
    (first : Only IsPlain operation.run) (rest : ∀ a, (answer a).Only IsPlain) :
    (answering operation answer).Only IsPlain := by
  refine only_bind first fun a => ?_
  cases a with
  | ok a => exact rest a
  | error e => trivial

theorem plain_showing (status : Nat) (s : Subscription) : (showing status s).Only IsPlain :=
  ⟨trivial, fun _ _ => trivial⟩

theorem plain_create : (create app r).Only IsPlain := by
  unfold create
  split
  · trivial
  · split
    · trivial
    · split
      · trivial
      · trivial
      · exact plain_answering (Service.plain_subscribe _ _) (plain_showing _)

theorem plain_list : (list r).Only IsPlain := by
  unfold list
  split
  · trivial
  · refine ⟨trivial, fun now _ => ?_⟩
    exact plain_answering (Service.plain_list _) fun _ => trivial

theorem plain_acknowledge (h : Handshake) : h.acknowledge.Only IsPlain := by
  unfold Handshake.acknowledge
  split
  · trivial
  · -- The callback is applied before the challenge is sent back.
    split
    · exact only_bind (Service.plain_confirm _) fun _ => trivial
    · trivial

theorem plain_verify : (verify r).Only IsPlain := by
  unfold verify
  split
  · trivial
  · exact plain_acknowledge _

theorem plain_receive : (receive app r).Only IsPlain := by
  unfold receive
  split
  · trivial
  · refine only_bind (Delivery.plain_process _ _ _) fun outcome => ?_
    split <;> trivial

theorem plain_withId {segment : List Char} {endpoint : Uuid → Flow Response}
    (each : ∀ id, (endpoint id).Only IsPlain) : (Route.withId segment endpoint).Only IsPlain := by
  unfold Route.withId
  split
  · exact each _
  · trivial

/-- Whether a request starts a sweep. -/
def App.triggers (app : App) (r : Request) : Bool :=
  Route.ofPath? app.webhookPath r.path == some .sweeps && r.method == "POST"

theorem plain_endpoint {route : Route} {method : String} {answer : Flow Response}
    (found : route.endpoint? app r method = some answer)
    (other : route = .sweeps → method ≠ "POST") : answer.Only IsPlain := by
  cases route with
  | webhook =>
    simp only [Route.endpoint?] at found
    split at found
    · rw [← Option.some.inj found]
      exact plain_verify
    · split at found <;> cases found
      exact plain_receive
  | health | version =>
    simp only [Route.endpoint?] at found
    split at found <;> cases found
    trivial
  | subscriptions =>
    simp only [Route.endpoint?] at found
    split at found
    · rw [← Option.some.inj found]
      exact plain_list
    · split at found <;> cases found
      exact plain_create
  | subscription id =>
    simp only [Route.endpoint?] at found
    split at found
    · cases found
      exact plain_withId fun id => plain_answering (Service.plain_get id) (plain_showing _)
    · split at found <;> cases found
      exact plain_withId fun id => plain_answering (Service.plain_unsubscribe id) fun _ => trivial
  | renewal id =>
    simp only [Route.endpoint?] at found
    split at found <;> cases found
    exact plain_withId fun id => plain_answering (Service.plain_renew id) (plain_showing _)
  | sweeps =>
    simp only [Route.endpoint?] at found
    split at found
    · exact absurd ‹_› (other rfl)
    · cases found

theorem plain_respond (other : app.triggers r = false) : (respond app r).Only IsPlain := by
  unfold respond
  split
  case h_1 => trivial
  case h_2 route at_route =>
    split
    case isTrue =>
      split
      · rename_i answer found
        refine only_bind (plain_endpoint found fun _ => by decide) fun _ => trivial
      · trivial
    case isFalse =>
      cases found : route.endpoint? app r r.method with
      | none => trivial
      | some answer =>
        refine plain_endpoint found ?_
        rintro rfl post
        simp [App.triggers, at_route, post] at other

end Http

/-! ## Sweeps -/

namespace Sweep

open WebSub.Flow

/-- What a sweep asks for while it holds the lock. -/
def IsLocked (settings : Settings) : Request → Prop
  | .now | .stopped | .subscriptions _ | .count .. => True
  | .renewAll limit rows => limit = settings.width ∧ (rows.map (·.id)).Nodup
  | _ => False

/-- What the renewal of a row asks for. -/
def IsRenewing (s : Subscription) : Request → Prop
  | .now | .stopped | .subscriptions _ => True
  | .hubUnlessStopped q => q = s.hubRequest
  | _ => False

theorem only_renewOne (s : Subscription) : (renewOne s).Only (IsRenewing s) := by
  refine ⟨trivial, fun stopped _ => ?_⟩
  cases stopped with
  | true => trivial
  | false =>
    refine ⟨rfl, fun heard _ => ?_⟩
    match heard with
    | none => trivial
    | some result =>
      refine ⟨trivial, fun now _ => ?_⟩
      refine only_bind (f := done now) trivial fun now => ?_
      refine only_bind (Service.only_applyHubResult (fun _ => trivial) s result now) fun x => ?_
      obtain ⟨_, outcome⟩ := x
      cases outcome <;> trivial

theorem only_markLapsed (settings : Settings) : markLapsed.Only (IsLocked settings) := by
  refine ⟨trivial, fun stopped _ => ?_⟩
  cases stopped with
  | true => trivial
  | false =>
    refine ⟨trivial, fun now _ => ⟨trivial, fun a _ => ?_⟩⟩
    exact only_bind (only_ofOption a) fun _ => trivial

theorem only_countReport (settings : Settings) (r : Report) :
    (countReport r).Only (IsLocked settings) :=
  ⟨trivial, fun _ _ => ⟨trivial, fun _ _ => ⟨trivial, fun _ _ => ⟨trivial, fun _ _ =>
    ⟨trivial, fun _ _ => trivial⟩⟩⟩⟩⟩

theorem only_sweepLocked (settings : Settings) :
    (sweepLocked settings).Only (IsLocked settings) := by
  refine ⟨trivial, fun now _ => ?_⟩
  show Flow.Only _ ((Flow.bind (Flow.ofOption (settings.lookahead?.bind now.add?)) _).bind _)
  cases settings.lookahead?.bind now.add? with
  | none => trivial
  | some before =>
    refine ⟨trivial, fun listed sane => ?_⟩
    match listed, sane with
    | none, _ => trivial
    | some (.error e), _ => exact ⟨trivial, fun _ _ => trivial⟩
    | some (.ok rows), nodup =>
      refine ⟨⟨rfl, nodup⟩, fun renewals _ => ?_⟩
      refine only_bind (only_ofOption renewals) fun renewals => ?_
      refine only_bind (only_markLapsed settings) fun lapsed => ?_
      exact only_bind (only_countReport settings _) fun _ => trivial

end Sweep

/-- What is left of a sweep that holds the lock: it gives the lock back and is over then. -/
def Flow.Returns (settings : Sweep.Settings) : Flow α → Prop
  | .done _ | .crash => False
  | .ask q next => (q = .unlockSweeps ∧ ∀ a, (next a).IsOver) ∨
    Sweep.IsLocked settings q ∧ ∀ a, Sane q a → (next a).Returns settings

namespace Flow

variable {settings : Sweep.Settings}

theorem returns_ensuring {f : Flow α} {g : α → Flow β} (locked : f.Only (Sweep.IsLocked settings))
    (last : ∀ a, (g a).IsOver) :
    ((f.ensuring (request .unlockSweeps)).bind g).Returns settings := by
  induction f with
  | done a => exact Or.inl ⟨rfl, fun _ => last a⟩
  | crash => exact Or.inl ⟨rfl, fun _ => trivial⟩
  | ask q next ih => exact Or.inr ⟨locked.1, fun a sane => ih a (locked.2 a sane)⟩

theorem returns_isolated {f : Flow α} {g : Option α → Flow β}
    (locked : f.Only (Sweep.IsLocked settings)) (last : ∀ a, (g a).IsOver) :
    ((f.ensuring (request .unlockSweeps)).isolated.bind g).Returns settings := by
  induction f with
  | done a => exact Or.inl ⟨rfl, fun _ => last (some a)⟩
  | crash => exact Or.inl ⟨rfl, fun _ => last none⟩
  | ask q next ih => exact Or.inr ⟨locked.1, fun a sane => ih a (locked.2 a sane)⟩

end Flow

/-! ## Callers -/

/-- Who may want a sweep, or something else from the service. -/
inductive Caller where
  /-- The background loop. -/
  | tick
  /-- A direct call. -/
  | call
  | request (r : Http.Request)

namespace Caller

inductive Reply where
  | swept (r : Except Sweep.Error Sweep.Report)
  | responded (r : Http.Response)

def flow (app : Http.App) : Caller → Flow Reply
  | tick | call => (Sweep.sweep app.sweeps).bind (.done <| .swept ·)
  | request r => (Http.respond app r).bind (.done <| .responded ·)

def tries (app : Http.App) : Caller → Bool
  | tick | call => true
  | request r => app.triggers r

/-- What is replied to somebody who tries while another sweep runs. -/
def refusal : Caller → Reply
  | tick | call => .swept (.error .alreadyRunning)
  | request _ => .responded (.problem 409 "a renewal sweep is already running")

variable {app : Http.App}

/-- To try is to ask for the lock first: without it there is nothing more to do, and with it the
lock is given back at last. -/
theorem flow_of_tries {o : Caller} (tries : o.tries app = true) :
    ∃ next : Bool → Flow Reply, o.flow app = .ask .lockSweeps next ∧
      next false = .done o.refusal ∧ (next true).Returns app.sweeps := by
  cases o with
  | tick | call =>
    exact ⟨_, rfl, rfl, Flow.returns_ensuring (Sweep.only_sweepLocked _) fun _ => trivial⟩
  | request r =>
    simp only [Caller.tries, Http.App.triggers, Bool.and_eq_true, beq_iff_eq] at tries
    have start : Http.respond app r = Http.triggerSweep app := by
      unfold Http.respond
      rw [tries.1]
      simp [tries.2, Http.Route.endpoint?]
    refine ⟨_, by rw [flow, start]; rfl, rfl, ?_⟩
    show ((Flow.bind ((Sweep.sweepLocked app.sweeps).ensuring
      (Flow.request .unlockSweeps)).isolated _).bind _).Returns app.sweeps
    rw [bind_assoc]
    refine Flow.returns_isolated (Sweep.only_sweepLocked _) fun ended => ?_
    match ended with
    | none => trivial
    | some (.ok report) => trivial
    | some (.error e) => trivial

theorem plain_of_not_tries {o : Caller} (other : o.tries app = false) :
    (o.flow app).Only IsPlain := by
  cases o with
  | tick | call => cases other
  | request r => exact Flow.only_bind (Http.plain_respond other) fun _ => trivial

end Caller

end WebSub
