import WebSub.Proofs.Hub.Client
import WebSub.Proofs.Interleaving.Upheld
import WebSub.Proofs.Subscription.Errand

/-!
# What can be renewed

The hub may settle on another lease than the one that was asked for. It is cut to ten days and not
to the limit of the settings, which the client applies to all that it sends: a row whose lease the
hub has put beyond that limit is never posted again. Every other row can be renewed and ended, and
fails only after the hub was asked.
-/

namespace WebSub

open Interleaving
open Service (Verification)
open Hub (Client.Admits Client.Posted)

/-- An answer of the hub to a request. -/
inductive Interleaving.Exchange.Tells : Exchange → Hub.Mode → Hub.Request → Hub.Result → Prop
  | asked {mode : Hub.Mode} {q : Hub.Request} {result : Hub.Result} :
      Tells ⟨.hub mode q, result⟩ mode q result
  | unlessStopped {q : Hub.Request} {result : Hub.Result} :
      Tells ⟨.hubUnlessStopped q, some result⟩ .subscribe q result

theorem Interleaving.Exchange.Tells.heard {x : Exchange} {q : Hub.Request} {result : Hub.Result}
    (h : x.Tells .subscribe q result) : x.heard? = some result := by
  cases h <;> rfl

/-- The request for a subscription that goes to the hub. -/
inductive IsHandshake : Request → Hub.Request → Prop
  | asked {q : Hub.Request} : IsHandshake (.hub .subscribe q) q
  | unlessStopped {q : Hub.Request} : IsHandshake (.hubUnlessStopped q) q

theorem Store.Subscriptions.id_of_find {s : Store.Subscriptions} {id : Uuid} {r : Subscription}
    (found : (s.answer (.find id)).1 = some (.ok (some r))) : r.id = id := by
  cases s with
  | memory m =>
    have found : m.rows.find? (·.id == id) = some r := by
      simpa [Store.Subscriptions.answer, Store.MemorySubscriptions.answer,
        Store.MemorySubscriptions.get?] using found
    simpa using List.find?_some found
  | table t =>
    have found : (t.select (.idIs id)).head? = some r := by
      simpa [Store.Subscriptions.answer, Store.SubscriptionTable.answer] using found
    simpa [Store.SubscriptionTable.select, Store.Condition.holds] using
      (List.mem_filter.mp (List.mem_of_head? found)).2

namespace Errand

variable {access : Settings.HubAccess} {max : Int} {w : Shared} {ms : List (Move Errand)}
  {s : System Errand Result} {m : Move Errand}

/-- Subscriptions are asked for with the defaults of the settings, and the hub is heard through a
client with their limit. -/
structure Under (access : Settings.HubAccess) (ms : List (Move Errand)) : Prop where
  subscribes : ∀ m ∈ ms, ∀ d r, m.operation = .subscribe d r → d = access.defaults
  heard : ∀ m ∈ ms, ∀ x mode q result, m.deed = .answered x → x.Tells mode q result →
    ∃ net, result = (Hub.Client.send access.maxLeaseSeconds net mode q).result

/-- The hub has named a lease which, cut to ten days, is still beyond the limit of the client, and
the row was written with it. -/
inductive Overlong (max : Int) (ms : List (Move Errand)) (id : Uuid) (lease : Int) : Prop
  | answer {a : Actor} {before after : List Exchange} {x : Exchange} {response : Hub.Response}
      {l : Int} {t : Instant} {y b : Subscription} (heard : x.heard? = some (.ok response))
      (named : response.leaseSeconds = some l) (cut : lease = min l maxLeaseSeconds)
      (beyond : Hub.Client.limit max < lease)
      (h : past a ms =
        before ++ [x, ⟨.now, t⟩, ⟨.subscriptions (.update y), some (.ok b)⟩] ++ after)
      (row : y.id = id)
  | callback {m : Move Errand} {topicUrl : String} {l : Int} {y b : Subscription} (hm : m ∈ ms)
      (operation : m.operation = .confirm (.subscribe topicUrl (some l)))
      (cut : lease = min l maxLeaseSeconds) (beyond : Hub.Client.limit max < lease)
      (written : ⟨.subscriptions (.update y), some (.ok b)⟩ ∈ past m.actor ms) (row : y.id = id)

/-- The lease may be asked for, unless the hub has made it too long. -/
def Fits (max : Int) (ms : List (Move Errand)) (id : Uuid) (lease : Int) : Prop :=
  Client.Admits max lease ∨ Overlong max ms id lease

/-- The hub has denied a subscription, or refused it after it was posted; or its lease was too long
to be posted. -/
inductive Refused (max : Int) (ms : List (Move Errand)) (id : Uuid) : Prop
  | denied {m : Move Errand} {topicUrl : String} {reason : Option String} {y b : Subscription}
      (hm : m ∈ ms) (operation : m.operation = .confirm (.denied topicUrl reason))
      (written : ⟨.subscriptions (.update y), some (.ok b)⟩ ∈ past m.actor ms) (row : y.id = id)
  | answered {a : Actor} {before after : List Exchange} {x : Exchange} {q : Hub.Request}
      {e : Hub.Error} {t : Instant} {y b : Subscription} (told : x.Tells .subscribe q (.error e))
      (posted : Client.Posted max .subscribe q)
      (h : past a ms =
        before ++ [x, ⟨.now, t⟩, ⟨.subscriptions (.update y), some (.ok b)⟩] ++ after)
      (row : y.id = id)
  | unasked {lease : Int} (overlong : Overlong max ms id lease)

/-- What holds of every row. -/
structure Renewable (max : Int) (ms : List (Move Errand)) (r : Subscription) : Prop where
  lease : Fits max ms r.id r.leaseSeconds
  refused : r.status = .failed → Refused max ms r.id

/-! ## Later traces -/

variable {id : Uuid} {lease : Int}

theorem Overlong.append (h : Overlong max ms id lease) (ms' : List (Move Errand)) :
    Overlong max (ms ++ ms') id lease := by
  cases h with
  | answer heard named cut beyond h row =>
    exact .answer heard named cut beyond (path_append h ms') row
  | callback hm operation cut beyond written row =>
    exact .callback (List.mem_append_left _ hm) operation cut beyond (mem_past_append written ms')
      row

theorem Fits.append (h : Fits max ms id lease) (ms' : List (Move Errand)) :
    Fits max (ms ++ ms') id lease :=
  h.imp_right (·.append ms')

theorem Refused.append (h : Refused max ms id) (ms' : List (Move Errand)) :
    Refused max (ms ++ ms') id := by
  cases h with
  | denied hm operation written row =>
    exact .denied (List.mem_append_left _ hm) operation (mem_past_append written ms') row
  | answered told posted h row => exact .answered told posted (path_append h ms') row
  | unasked overlong => exact .unasked (overlong.append ms')

theorem Renewable.append {r : Subscription} (h : Renewable max ms r) (ms' : List (Move Errand)) :
    Renewable max (ms ++ ms') r :=
  ⟨h.lease.append ms', fun failed => (h.refused failed).append ms'⟩

theorem Renewable.congr {r r' : Subscription} (h : Renewable max ms r) (id : r'.id = r.id)
    (lease : r'.leaseSeconds = r.leaseSeconds) (status : r'.status = .failed → r.status = .failed) :
    Renewable max ms r' := by
  refine ⟨?_, ?_⟩
  · rw [id, lease]
    exact h.lease
  · intro failed
    rw [id]
    exact h.refused (status failed)

/-! ## Writes -/

theorem fits_of_bounded {named : Option Int}
    (bounded : Subscription.boundedLease named = some lease)
    (overlong : ∀ l, named = some l → lease = min l maxLeaseSeconds →
      Hub.Client.limit max < lease → Overlong max ms id lease) : Fits max ms id lease := by
  obtain ⟨⟨pos, -⟩, -⟩ := Subscription.boundedLease_eq_some bounded
  obtain ⟨l, rfl, cut⟩ := Subscription.boundedLease_cut bounded
  by_cases beyond : Hub.Client.limit max < lease
  · exact Or.inr (overlong l rfl cut beyond)
  · exact Or.inl (Hub.Client.admits_iff.mpr ⟨by omega, by omega⟩)

theorem renewable_of_settled {r y b : Subscription} {result : Hub.Result} {now : Instant}
    {before : List Exchange} {x : Exchange} (fits : Fits max ms r.id r.leaseSeconds)
    (told : x.Tells .subscribe r.hubRequest result)
    (path : past m.actor ms = before ++ [x, ⟨.now, now⟩]) (change : r.settled result now = .ok y)
    (deed : m.deed = .answered ⟨.subscriptions (.update y), some (.ok b)⟩) :
    Renewable max (ms ++ [m]) y := by
  have path' : past m.actor (ms ++ [m]) =
      before ++ [x, ⟨.now, now⟩, ⟨.subscriptions (.update y), some (.ok b)⟩] ++ [] := by
    rw [past_append, path, past_of_answered deed, List.append_assoc, List.append_nil]
    rfl
  obtain ⟨same, -, status⟩ := Subscription.settled_ok change
  cases result with
  | ok response =>
    refine ⟨?_, ?_⟩
    · rcases Subscription.markActive_lease change with kept | bounded
      · rw [same, kept]
        exact fits.append [m]
      · refine fits_of_bounded bounded fun l named cut beyond => ?_
        exact .answer told.heard named cut beyond path' rfl
    · intro failed
      rw [status] at failed
      cases failed
  | error e =>
    cases change
    rw [Subscription.markFailed_eq] at path' ⊢
    refine ⟨fits.append [m], ?_⟩
    intro _
    rcases fits with admits | overlong
    · exact .answered told admits.posted path' rfl
    · exact .unasked (overlong.append [m])

theorem renewable_of_callback {v : Verification} {r y b : Subscription} {now : Instant}
    (h : Renewable max ms r) (operation : m.operation = .confirm v)
    (change : v.change? now r = some (.ok y))
    (deed : m.deed = .answered ⟨.subscriptions (.update y), some (.ok b)⟩) :
    Renewable max (ms ++ [m]) y := by
  have written : ⟨.subscriptions (.update y), some (.ok b)⟩ ∈ past m.actor (ms ++ [m]) := by
    rw [past_append, past_of_answered deed]
    exact List.mem_concat_self
  cases v with
  | unsubscribe topicUrl => cases change
  | denied topicUrl reason =>
    cases change
    rw [Subscription.markFailed_eq] at written ⊢
    exact ⟨h.lease.append [m], fun _ => .denied List.mem_concat_self operation written rfl⟩
  | subscribe topicUrl named =>
    obtain ⟨same, -, status, lease⟩ := Subscription.recordVerification_ok (Option.some.inj change)
    refine ⟨?_, ?_⟩
    · rcases lease with ⟨kept, -⟩ | ⟨bounded, -⟩
      · rw [same, kept]
        exact h.lease.append [m]
      · refine fits_of_bounded bounded ?_
        rintro l rfl cut beyond
        exact .callback List.mem_concat_self operation cut beyond written rfl
    · intro failed
      rw [status] at failed
      rw [same]
      exact (h.refused failed).append [m]

/-! ## The invariant -/

theorem admits_of_admits {d : Defaults} {r : CreateRequest} (h : Admits d r)
    (configured : d = access.defaults) :
    Client.Admits access.maxLeaseSeconds (Errand.lease d r) := by
  subst configured
  exact h

theorem fits_of_takes {e : Errand} {a : Actor} {now : Shared} {own rest : List Exchange}
    {r : Subscription} (upheld : Upheld (Renewable access.maxLeaseSeconds ms) ms now)
    (subscribes : ∀ d r, e = .subscribe d r → d = access.defaults) (h : e.Takes own r)
    (path : past a ms = own ++ rest) : Fits access.maxLeaseSeconds ms r.id r.leaseSeconds := by
  have given : ∀ c v, ⟨.subscriptions c, some (.ok v)⟩ ∈ own → ∀ r ∈ c.given v,
      Renewable access.maxLeaseSeconds ms r := by
    intro c v hx
    exact upheld.given a c v (by rw [path]; exact List.mem_append_left _ hx)
  cases h with
  | again admitted => exact Or.inl (admits_of_admits admitted (subscribes _ _ rfl))
  | anew draft =>
    exact (given _ _ List.mem_concat_self r (by simp [Store.SubscriptionCall.given])).lease
  | stored =>
    exact (given _ _ (List.mem_singleton.mpr rfl) r
      (by simp [Store.SubscriptionCall.given])).lease

theorem renewable_of_writes {now : Shared} {y b : Subscription}
    (upheld : Upheld (Renewable access.maxLeaseSeconds ms) ms now)
    (subscribes : ∀ d r, m.operation = .subscribe d r → d = access.defaults)
    (conforms : Conforms conduct Sweep.conduct ms m)
    (deed : m.deed = .answered ⟨.subscriptions (.update y), some (.ok b)⟩) :
    Renewable access.maxLeaseSeconds (ms ++ [m]) y := by
  rcases calls conforms (by rw [deed]; rfl) with
    ⟨-, writes⟩ | ⟨r, renews, result, t, path, change⟩
  · have writes : m.operation.Writes (past m.actor ms) y := writes
    generalize operation : m.operation = e at writes subscribes
    generalize path : past m.actor ms = own at writes
    cases writes with
    | @handshake e own r y result t heard change =>
      obtain ⟨before, takes, rfl⟩ := heard
      have fits := fits_of_takes upheld subscribes takes path
      exact renewable_of_settled fits .asked path change deed
    | @verification v own t done todo r y confirms change =>
      obtain ⟨writes, rfl, -⟩ := confirms
      have stored : Renewable access.maxLeaseSeconds ms r := by
        refine upheld.given m.actor (.findByTopic v.topicUrl) (done ++ r :: todo) ?_ r ?_
        · rw [path]
          simp
        · simp [Store.SubscriptionCall.given]
      exact renewable_of_callback stored operation change deed
  · obtain ⟨before, n, rows, row, found⟩ := renews.found
    have stored := upheld.given _ _ _ found r row
    have path : past m.actor ms = [⟨.stopped, false⟩] ++
        [⟨.hubUnlessStopped r.hubRequest, some result⟩, ⟨.now, t⟩] := path
    exact renewable_of_settled stored.lease .unlessStopped path change deed

theorem renewable_of_create {y : Subscription} {x : Exchange}
    (subscribes : ∀ d r, m.operation = .subscribe d r → d = access.defaults)
    (conforms : Conforms conduct Sweep.conduct ms m) (deed : m.deed = .answered x)
    (create : x.request = .subscriptions (.create y)) :
    Renewable access.maxLeaseSeconds ms y := by
  rcases calls conforms (by rw [deed]; exact create) with ⟨-, drafts⟩ | ⟨r, -, asked⟩
  · have drafts : m.operation.Drafts (past m.actor ms) y := drafts
    generalize operation : m.operation = e at drafts subscribes
    generalize past m.actor ms = own at drafts
    cases drafts with
    | draft admitted new =>
      obtain ⟨u, far, rfl⟩ := Option.map_eq_some_iff.mp new
      exact ⟨Or.inl (admits_of_admits admitted (subscribes _ _ rfl)), nofun⟩
  · exact asked.elim

theorem upholds (upheld : Upheld (Renewable access.maxLeaseSeconds ms) ms m.before)
    (subscribes : ∀ d r, m.operation = .subscribe d r → d = access.defaults)
    (conforms : Conforms conduct Sweep.conduct ms m) :
    Upholds (Renewable access.maxLeaseSeconds ms) (Renewable access.maxLeaseSeconds (ms ++ [m]))
      m := by
  refine ⟨fun r renewable => renewable.append [m], ?_, ?_, ?_⟩
  · intro y b deed
    exact (renewable_of_create subscribes conforms deed rfl).append [m]
  · intro y b deed r hr same
    obtain ⟨lease, -, status, -⟩ := m.before.subscriptions.written_columns (y := y) (r := r)
    refine (renewable_of_writes upheld subscribes conforms deed).congr
      (m.before.subscriptions.written_id same) lease ?_
    intro failed
    rw [← status]
    exact failed
  · intro r now renewable
    refine (renewable.append [m]).congr (Store.Subscriptions.markExpired_id r now) ?_ ?_
    · rw [Subscription.markExpired_eq]
      split <;> rfl
    · intro failed
      rw [Subscription.markExpired_eq] at failed
      split at failed
      · cases failed
      · exact failed

theorem renewable_upheld (blank : w.subscriptions.rows = []) (run : Run flow (.start w) ms s)
    (under : Under access ms) :
    Upheld (Renewable access.maxLeaseSeconds ms) ms s.shared := by
  refine run.upheld (P := Renewable access.maxLeaseSeconds) ?_ ?_
  · show ∀ r ∈ w.subscriptions.rows, _
    rw [blank]
    exact List.forall_mem_nil _
  · rintro pre m post s₁ s₂ rfl first step upheld
    have conforms := ((orderly first).move step).moves pre m [] rfl
    exact upholds upheld (under.subscribes m (by simp)) conforms

/-! ## Requests to the hub -/

theorem fits_of_handshake {now : Shared} {q : Hub.Request}
    (upheld : Upheld (Renewable access.maxLeaseSeconds ms) ms now)
    (subscribes : ∀ d r, m.operation = .subscribe d r → d = access.defaults)
    (conforms : Conforms conduct Sweep.conduct ms m) (handshake : IsHandshake m.deed.request q) :
    ∃ copy : Subscription, q = copy.hubRequest ∧
      Fits access.maxLeaseSeconds ms copy.id copy.leaseSeconds := by
  unfold Conforms at conforms
  generalize m.deed.request = request at conforms handshake
  split at conforms
  case h_1 alone =>
    cases handshake with
    | asked =>
      obtain ⟨copy, takes, rfl⟩ := conforms
      exact ⟨copy, rfl, fits_of_takes upheld subscribes takes (List.append_nil _).symm⟩
    | unlessStopped => exact conforms.elim
  case h_2 k place =>
    obtain ⟨limit, rows, r, own, ⟨-, -, before, n, found⟩, row, -, -, asked⟩ := conforms
    cases handshake with
    | asked => exact asked.elim
    | unlessStopped =>
      obtain rfl := asked
      exact ⟨r, rfl, (upheld.given _ _ _ found r (List.mem_of_getElem? row)).lease⟩

/-- A request to renew, or to end a subscription, is about the row as it was found, and the result
tells what the hub answered. -/
def Echoes (own : List Exchange) : Errand → Result → Prop
  | renew id, .subscribed (.error (.hub e)) => ∃ r rest,
    own = [⟨.subscriptions (.find id), some (.ok (some r))⟩,
      ⟨.hub .subscribe r.hubRequest, .error e⟩] ++ rest
  | unsubscribe id, .unsubscribed (.ok u) => ∃ r result deleted rest,
    own = [⟨.subscriptions (.find id), some (.ok (some r))⟩,
      ⟨.hub .unsubscribe r.hubRequest, result⟩] ++ rest ∧
    u = Service.Unsubscribed.ofResult id deleted result
  | _, _ => True

/-- Who ends a subscription has found the row. -/
def Parts (id : Uuid) (own : List Exchange) : Request → Prop
  | .hub .unsubscribe q => ∃ r : Subscription,
    own = [⟨.subscriptions (.find id), some (.ok (some r))⟩] ∧ q = r.hubRequest
  | _ => True

/-- Of the other operations nothing is said here. -/
def frank : Errand → Conduct Result
  | renew id => ⟨fun _ _ => True, fun own result => Echoes own (renew id) result, fun _ => True⟩
  | unsubscribe id =>
    ⟨Parts id, fun own result => Echoes own (unsubscribe id) result, fun _ => True⟩
  | _ => .free

theorem frank_renew (id : Uuid) : (renew id).flow.Keeps (renew id).frank [] := by
  refine keeps_ask trivial fun found => ?_
  match found with
  | none => trivial
  | some (.error _) => trivial
  | some (.ok none) => trivial
  | some (.ok (some r)) =>
    refine keeps_ask trivial fun result => ?_
    refine keeps_ask trivial fun now => ?_
    show Flow.Keeps _ (((Service.applyHubResult r result now).bind _).bind _) _
    cases result with
    | error e =>
      refine keeps_ask trivial fun written => ?_
      cases written with
      | none => trivial
      | some _ => exact ⟨r, _, rfl⟩
    | ok response =>
      cases change : r.markActive now response.leaseSeconds with
      | error y =>
        simp only [Service.applyHubResult, change]
        trivial
      | ok y =>
        simp only [Service.applyHubResult, change]
        refine keeps_ask trivial fun written => ?_
        obtain _ | _ | _ := written <;> trivial

theorem frank_unsubscribe (id : Uuid) :
    (unsubscribe id).flow.Keeps (unsubscribe id).frank [] := by
  refine keeps_ask trivial fun found => ?_
  match found with
  | none => trivial
  | some (.error _) => trivial
  | some (.ok none) => trivial
  | some (.ok (some r)) =>
    refine keeps_ask ⟨r, rfl, rfl⟩ fun result => ?_
    refine keeps_ask trivial fun deleted => ?_
    match deleted with
    | none => trivial
    | some (.error _) => trivial
    | some (.ok deleted) => exact ⟨r, result, deleted, _, rfl, rfl⟩

theorem frank_keeps (e : Errand) : e.flow.Keeps e.frank [] := by
  cases e with
  | renew id => exact frank_renew id
  | unsubscribe id => exact frank_unsubscribe id
  | subscribe d r => exact keeps_free _ _
  | confirm v => exact keeps_free _ _
  | sweep settings => exact keeps_free _ _

theorem frank_orderly (run : Run flow (.start w) ms s) :
    Orderly frank Sweep.conduct ms s :=
  run.orderly frank_keeps Sweep.keeps_renewOne

/-! ## The whole -/

/-- What the hub has put beyond the client's limit is all that cannot be posted. -/
structure LeasesRenewable (max : Int) (ms : List (Move Errand)) (s : System Errand Result) :
    Prop where
  lease : ∀ r ∈ s.shared.subscriptions.rows, Fits max ms r.id r.leaseSeconds
  handshakes : ∀ pre m post q, ms = pre ++ m :: post → IsHandshake m.deed.request q →
    Client.Posted max .subscribe q ∨
      ∃ copy : Subscription, q = copy.hubRequest ∧ Overlong max pre copy.id copy.leaseSeconds
  partings : ∀ pre m post id q, ms = pre ++ m :: post → m.operation = .unsubscribe id →
    m.deed.request = .hub .unsubscribe q →
      Client.Posted max .unsubscribe q ∨ Overlong max pre id q.leaseSeconds
  renewed : ∀ (i : Nat) t id l n, s.threads[i]? = some ⟨.renew id, t⟩ →
    t.result? = some (.subscribed (.error (.hub (.invalidLease l n)))) →
      ∃ lease, Overlong max ms id lease
  ended : ∀ (i : Nat) t id u, s.threads[i]? = some ⟨.unsubscribe id, t⟩ →
    t.result? = some (.unsubscribed (.ok u)) →
      ∃ result deleted, u = Service.Unsubscribed.ofResult id deleted result ∧
        ((∀ l n, result ≠ .error (.invalidLease l n)) ∨ ∃ lease, Overlong max ms id lease)
  failed : ∀ r ∈ s.shared.subscriptions.rows, r.status = .failed → Refused max ms r.id

theorem not_overlong (full : maxLeaseSeconds ≤ max) : ¬ Overlong max ms id lease := by
  intro overlong
  have beyond : Hub.Client.limit max < lease ∧ ∃ l, lease = min l maxLeaseSeconds := by
    cases overlong with
    | answer heard named cut beyond h row => exact ⟨beyond, _, cut⟩
    | callback hm operation cut beyond written row => exact ⟨beyond, _, cut⟩
  obtain ⟨beyond, l, rfl⟩ := beyond
  unfold Hub.Client.limit at beyond
  omega

theorem Under.left {pre post : List (Move Errand)} (under : Under access (pre ++ post)) :
    Under access pre :=
  ⟨fun m hm => under.subscribes m (List.mem_append_left _ hm),
    fun m hm => under.heard m (List.mem_append_left _ hm)⟩

theorem fits_of_found {now : Shared} {a : Actor} {r : Subscription}
    (upheld : Upheld (Renewable max ms) ms now) (run : Run flow (.start w) ms s)
    (found : ⟨.subscriptions (.find id), some (.ok (some r))⟩ ∈ past a ms) :
    Fits max ms id r.leaseSeconds := by
  obtain ⟨m, hm, -, deed⟩ := mem_past.mp found
  obtain ⟨answer, -⟩ := (run.allowed m hm).answer deed (by simp)
  rw [← Store.Subscriptions.id_of_find answer.symm]
  exact (upheld.given _ _ _ found r (by simp [Store.SubscriptionCall.given])).lease

theorem overlong_of_invalidLease {a : Actor} {x : Exchange} {mode : Hub.Mode} {q : Hub.Request}
    {l n : Int} (under : Under access ms) (answered : x ∈ past a ms)
    (told : x.Tells mode q (.error (.invalidLease l n)))
    (fits : Fits access.maxLeaseSeconds ms id q.leaseSeconds) :
    Overlong access.maxLeaseSeconds ms id q.leaseSeconds := by
  rcases fits with admits | overlong
  · obtain ⟨m, hm, -, deed⟩ := mem_past.mp answered
    obtain ⟨net, result⟩ := under.heard m hm x mode q _ deed told
    exact absurd result.symm (admits.posted.accepted net l n)
  · exact overlong

/-- From an empty store, with all operations under the same settings, whatever leases the hub
names: a row can be renewed and ended unless the hub has put its lease beyond the client's limit,
and none fails without that the hub was asked. -/
theorem leases_renewable (blank : w.subscriptions.rows = []) (run : Run flow (.start w) ms s)
    (under : Under access ms) : LeasesRenewable access.maxLeaseSeconds ms s where
  lease := fun r hr => ((renewable_upheld blank run under).rows r hr).lease
  failed := fun r hr => ((renewable_upheld blank run under).rows r hr).refused
  handshakes := by
    rintro pre m post q rfl handshake
    obtain ⟨s₁, s₂, first, step, -⟩ := run.split rfl
    have upheld := renewable_upheld blank first under.left
    obtain ⟨copy, rfl, fits⟩ := fits_of_handshake upheld (under.subscribes m (by simp))
      ((orderly run).moves pre m post rfl) handshake
    rcases fits with admits | overlong
    · exact Or.inl admits.posted
    · exact Or.inr ⟨copy, rfl, overlong⟩
  partings := by
    rintro pre m post id q rfl operation request
    obtain ⟨s₁, s₂, first, step, -⟩ := run.split rfl
    have upheld := renewable_upheld blank first under.left
    have conforms := (frank_orderly run).moves pre m post rfl
    unfold Conforms at conforms
    rw [request, operation] at conforms
    split at conforms
    case h_1 alone =>
      obtain ⟨r, path, rfl⟩ := conforms
      rcases fits_of_found upheld first (by rw [path]; exact List.mem_singleton.mpr rfl) with
        admits | overlong
      · exact Or.inl admits.posted
      · exact Or.inr overlong
    case h_2 k place =>
      obtain ⟨limit, rows, r, own, -, -, -, -, asked⟩ := conforms
      exact asked.elim
  renewed := by
    intro i t id l n at_i gave
    have upheld := renewable_upheld blank run under
    obtain ⟨r, rest, path⟩ := (frank_orderly run).ended at_i gave
    have found : ⟨.subscriptions (.find id), some (.ok (some r))⟩ ∈ past ⟨i, none⟩ ms := by
      rw [path]
      simp
    have answered : ⟨.hub .subscribe r.hubRequest, .error (.invalidLease l n)⟩ ∈
        past ⟨i, none⟩ ms := by
      rw [path]
      simp
    exact ⟨_, overlong_of_invalidLease under answered .asked (fits_of_found upheld run found)⟩
  ended := by
    intro i t id u at_i gave
    have upheld := renewable_upheld blank run under
    obtain ⟨r, result, deleted, rest, path, rfl⟩ := (frank_orderly run).ended at_i gave
    refine ⟨result, deleted, rfl, ?_⟩
    have found : ⟨.subscriptions (.find id), some (.ok (some r))⟩ ∈ past ⟨i, none⟩ ms := by
      rw [path]
      simp
    have answered : ⟨.hub .unsubscribe r.hubRequest, result⟩ ∈ past ⟨i, none⟩ ms := by
      rw [path]
      simp
    by_cases refused : ∃ l n, result = .error (.invalidLease l n)
    · obtain ⟨l, n, rfl⟩ := refused
      exact Or.inr ⟨_, overlong_of_invalidLease under answered .asked
        (fits_of_found upheld run found)⟩
    · exact Or.inl fun l n same => refused ⟨l, n, same⟩

/-! ## A lease beyond the limit -/

def brief : Settings.HubAccess := ⟨"https://h", "c", "", 60, 60, 10⟩

/-- Whatever is asked for, the answer settles on two hours. -/
def generous : Http.Network where
  reply? _ _ := some (.answer ⟨202, [], Utf8.encode "hub.lease_seconds=7200".toList, none⟩)
  charsets _ := none

def briefRow (lease : Int) (status : Status) : Subscription :=
  { plainRow status none with
    hubUrl := "https://h", leaseSeconds := lease, expiresAt := ⟨lease * 1000000000⟩ }

theorem generous_result :
    (Hub.Client.send 60 generous .subscribe (briefRow 60 .pending).hubRequest).result =
      .ok ⟨true, 202, some 7200⟩ := by
  decide +kernel

theorem granted_beyond :
    ∃ ms s, Run flow (.start .empty) ms s ∧ Under brief ms ∧
      s.shared.subscriptions.rows = [briefRow 7200 .active] := by
  have r : Run flow (.start .empty) [] (.start .empty) := .start
  have r := r.quiet (.begin _ (.subscribe brief.defaults ⟨"a", none⟩))
  have r := r.move (Step.answer (i := 0) rfl (some (Except.ok none)) (by exact Or.inl ⟨rfl, rfl⟩)
    id False.elim)
  have r := r.move (Step.draw (i := 0) rfl (.drawn 0) List.not_mem_nil)
  have r := r.move (Step.read (i := 0) rfl)
  have r : Run flow (.start .empty) _
      ⟨⟨.table ⟨[briefRow 60 .pending]⟩, .table {}, [.drawn 0], [], false, false⟩, _⟩ :=
    r.move (Step.answer (i := 0) rfl _ (by exact Or.inl ⟨rfl, rfl⟩) id False.elim)
  have r := r.move (Step.call (i := 0) rfl (by exact trivial))
  have r := r.move (Step.answer (i := 0) rfl (Except.ok (Hub.Response.mk true 202 (some 7200)))
    (by exact rfl) id fun _ => rfl)
  have r := r.move (Step.read (i := 0) rfl)
  have r : Run flow (.start .empty) _
      ⟨⟨.table ⟨[briefRow 7200 .active]⟩, .table {}, [.drawn 0], [], false, false⟩, _⟩ :=
    r.move (Step.answer (i := 0) rfl _ (by exact Or.inl ⟨rfl, rfl⟩) id False.elim)
  refine ⟨_, _, r, ⟨?_, ?_⟩, rfl⟩
  · intro m hm d q operation
    simp only [List.nil_append, List.cons_append, List.mem_cons, List.not_mem_nil, or_false] at hm
    rcases hm with rfl | rfl | rfl | rfl | rfl | rfl | rfl | rfl <;> cases operation <;> rfl
  · intro m hm x mode q result deed told
    simp only [List.nil_append, List.cons_append, List.mem_cons, List.not_mem_nil, or_false] at hm
    rcases hm with rfl | rfl | rfl | rfl | rfl | rfl | rfl | rfl <;> cases deed <;> cases told
    exact ⟨generous, generous_result.symm⟩

theorem leases_renewable_granted :
    ∃ ms s, Run flow (.start .empty) ms s ∧ Under brief ms ∧
      s.shared.subscriptions.rows = [briefRow 7200 .active] ∧
        LeasesRenewable brief.maxLeaseSeconds ms s := by
  obtain ⟨ms, s, run, under, rows⟩ := granted_beyond
  exact ⟨ms, s, run, under, rows, leases_renewable rfl run under⟩

/-- Every stored lease could be asked for again. -/
def LeasesFit : Prop :=
  ∀ access w ms s, w.subscriptions.rows = [] → Run flow (.start w) ms s → Under access ms →
    ∀ r ∈ s.shared.subscriptions.rows, Client.Admits access.maxLeaseSeconds r.leaseSeconds

theorem leases_beyond : ¬ LeasesFit := by
  intro fit
  obtain ⟨ms, s, run, under, rows⟩ := granted_beyond
  have admits := fit brief .empty ms s rfl run under (briefRow 7200 .active)
    (by rw [rows]; exact List.mem_singleton.mpr rfl)
  exact absurd (Hub.Client.admits_iff.mp admits).2 (by decide)

end Errand

end WebSub
