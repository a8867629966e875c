import WebSub.Proofs.Interleaving.Upheld
import WebSub.Proofs.Subscription.Errand

/-!
# Leases and expiries

However operations on subscriptions interleave and whatever the hub says: every stored lease is
between a second and ten days, an active row expires a lease after an instant at which the hub
granted it, and no row expires later than ten days from now.
-/

namespace WebSub.Errand

open Interleaving
open Service (Verification)

variable {w : Shared} {ms : List (Move Errand)} {s s' : System Errand Result} {m : Move Errand}

/-- What the clock has shown, in order. -/
def readings (ms : List (Move Errand)) : List Instant :=
  ms.filterMap fun m => match m.deed with
    | .answered ⟨.now, t⟩ => some t
    | _ => none

/-- The hub granted a lease from an instant on: a handshake about the row was accepted, the clock
was read and the row was written; or so it was for a callback with a positive lease. -/
inductive Granted (ms : List (Move Errand)) (id : Uuid) (t : Instant) : Prop
  | handshake {a : Actor} {before after : List Exchange} {x : Exchange} {response : Hub.Response}
      {y b : Subscription} (heard : x.heard? = some (.ok response))
      (h : past a ms =
        before ++ [x, ⟨.now, t⟩, ⟨.subscriptions (.update y), some (.ok b)⟩] ++ after)
      (row : y.id = id)
  | callback {m : Move Errand} {topicUrl : String} {l : Int} {rest : List Exchange}
      {y b : Subscription} (hm : m ∈ ms) (alone : m.actor.renewal = none)
      (operation : m.operation = .confirm (.subscribe topicUrl (some l))) (pos : 0 < l)
      (h : past m.actor ms = ⟨.now, t⟩ :: rest)
      (written : ⟨.subscriptions (.update y), some (.ok b)⟩ ∈ rest) (row : y.id = id)

/-- A lease that may be asked for or granted, and an expiry not too far from a reading. -/
structure Bounded (ms : List (Move Errand)) (s : Subscription) : Prop where
  lease : IsLease s.leaseSeconds
  expiry : ∃ t ∈ readings ms,
    s.expiresAt.nanos ≤ t.nanos + maxLeaseSeconds * Instant.nanosPerSecond

/-- Besides, an active row expires a lease after an instant at which it was granted. -/
structure Leased (ms : List (Move Errand)) (s : Subscription) : Prop extends Bounded ms s where
  granted : s.status = .active →
    ∃ t, Granted ms s.id t ∧ t.addSeconds? s.leaseSeconds = some s.expiresAt

/-! ## Later traces -/

theorem mem_readings_append {t : Instant} {ms' : List (Move Errand)} (h : t ∈ readings ms) :
    t ∈ readings (ms ++ ms') := by
  unfold readings at *
  rw [List.filterMap_append]
  exact List.mem_append_left _ h

theorem mem_readings {t : Instant} (hm : m ∈ ms) (deed : m.deed = .answered ⟨.now, t⟩) :
    t ∈ readings ms := by
  refine List.mem_filterMap.mpr ⟨m, hm, ?_⟩
  rw [deed]

theorem mem_readings_of_past {a : Actor} {t : Instant} (h : ⟨.now, t⟩ ∈ past a ms) :
    t ∈ readings ms := by
  obtain ⟨m, hm, -, deed⟩ := mem_past.mp h
  exact mem_readings hm deed

theorem Granted.append {id : Uuid} {t : Instant} (h : Granted ms id t) (ms' : List (Move Errand)) :
    Granted (ms ++ ms') id t := by
  cases h with
  | @handshake a before after x response y b heard h row =>
    have path : past a (ms ++ ms') =
        before ++ [x, ⟨.now, t⟩, ⟨.subscriptions (.update y), some (.ok b)⟩] ++
          (after ++ past a ms') := by
      rw [past_append, h, List.append_assoc, List.append_assoc]
    exact .handshake heard path row
  | @callback m topicUrl l rest y b hm alone operation pos h written row =>
    have path : past m.actor (ms ++ ms') = ⟨.now, t⟩ :: (rest ++ past m.actor ms') := by
      rw [past_append, h, List.cons_append]
    exact .callback (List.mem_append_left _ hm) alone operation pos path
      (List.mem_append_left _ written) row

theorem Bounded.append {r : Subscription} (h : Bounded ms r) (ms' : List (Move Errand)) :
    Bounded (ms ++ ms') r := by
  obtain ⟨t, ht, le⟩ := h.expiry
  exact ⟨h.lease, t, mem_readings_append ht, le⟩

theorem Leased.append {r : Subscription} (h : Leased ms r) (ms' : List (Move Errand)) :
    Leased (ms ++ ms') r := by
  refine ⟨h.toBounded.append ms', ?_⟩
  intro active
  obtain ⟨t, granted, far⟩ := h.granted active
  exact ⟨t, granted.append ms', far⟩

/-! ## Changes keep the bounds -/

theorem bounded_of_addSeconds? {r : Subscription} {t : Instant} (ht : t ∈ readings ms)
    (lease : IsLease r.leaseSeconds) (h : t.addSeconds? r.leaseSeconds = some r.expiresAt) :
    Bounded ms r := by
  refine ⟨lease, t, ht, ?_⟩
  rw [Instant.addSeconds?_nanos h]
  obtain ⟨-, short⟩ := lease
  unfold Instant.nanosPerSecond
  omega

theorem Bounded.settled {r y : Subscription} {result : Hub.Result} {now : Instant}
    (h : Bounded ms r) (ht : now ∈ readings ms) (change : r.settled result now = .ok y) :
    Bounded ms y := by
  cases result with
  | ok response =>
    obtain ⟨-, -, -, lease, far⟩ := Subscription.markActive_ok change
    have lease' : IsLease y.leaseSeconds := by
      rcases lease with same | lease
      · rw [same]
        exact h.lease
      · exact lease
    exact bounded_of_addSeconds? ht lease' far
  | error e =>
    cases change
    rw [Subscription.markFailed_eq]
    exact ⟨h.lease, h.expiry⟩

theorem Leased.of_idle {r : Subscription} (h : Bounded ms r) (idle : r.status ≠ .active) :
    Leased ms r :=
  ⟨h, fun active => absurd active idle⟩

theorem Leased.congr {r r' : Subscription} (h : Leased ms r) (id : r'.id = r.id)
    (lease : r'.leaseSeconds = r.leaseSeconds) (expiry : r'.expiresAt = r.expiresAt)
    (status : r'.status = r.status) : Leased ms r' := by
  refine ⟨⟨by rw [lease]; exact h.lease, by rw [expiry]; exact h.expiry⟩, ?_⟩
  rw [id, lease, expiry, status]
  exact h.granted

theorem Leased.written {r y : Subscription} (h : Leased ms y) (id : r.id = y.id)
    (store : Store.Subscriptions) : Leased ms (store.written y r) := by
  obtain ⟨lease, expiry, status, -⟩ := store.written_columns (y := y) (r := r)
  exact h.congr (store.written_id id) lease expiry status

theorem Leased.markExpired {r : Subscription} (h : Leased ms r) (now : Instant) :
    Leased ms (r.markExpired now).1 := by
  rw [Subscription.markExpired_eq]
  split
  · exact .of_idle ⟨h.lease, h.expiry⟩ (by simp)
  · exact h

/-! ## Writes -/

theorem leased_of_settled {r y b : Subscription} {result : Hub.Result} {now : Instant}
    {before : List Exchange} {x : Exchange} (h : Bounded ms r) (heard : x.heard? = some result)
    (path : past m.actor ms = before ++ [x, ⟨.now, now⟩])
    (change : r.settled result now = .ok y)
    (deed : m.deed = .answered ⟨.subscriptions (.update y), some (.ok b)⟩) :
    Leased (ms ++ [m]) y := by
  have reading : now ∈ readings ms := mem_readings_of_past (a := m.actor) (by rw [path]; simp)
  refine ⟨(h.settled reading change).append [m], ?_⟩
  intro active
  cases result with
  | error e =>
    obtain ⟨-, -, status⟩ := Subscription.settled_ok change
    rw [status] at active
    cases active
  | ok response =>
    obtain ⟨-, -, -, -, far⟩ := Subscription.markActive_ok change
    have path' : past m.actor (ms ++ [m]) =
        before ++ [x, ⟨.now, now⟩, ⟨.subscriptions (.update y), some (.ok b)⟩] ++ [] := by
      rw [past_append, path, past_of_answered deed, List.append_assoc, List.append_nil]
      rfl
    exact ⟨now, .handshake heard path' rfl, far⟩

theorem leased_of_callback {v : Verification} {r y b : Subscription} {now : Instant}
    {rest : List Exchange} (h : Leased ms r) (alone : m.actor.renewal = none)
    (operation : m.operation = .confirm v) (path : past m.actor ms = ⟨.now, now⟩ :: rest)
    (change : v.change? now r = some (.ok y))
    (deed : m.deed = .answered ⟨.subscriptions (.update y), some (.ok b)⟩) :
    Leased (ms ++ [m]) y := by
  have reading : now ∈ readings ms := mem_readings_of_past (a := m.actor) (by rw [path]; simp)
  cases v with
  | unsubscribe topicUrl => cases change
  | denied topicUrl reason =>
    cases change
    rw [Subscription.markFailed_eq]
    exact .of_idle ⟨h.lease, (h.append [m]).expiry⟩ (by simp)
  | subscribe topicUrl lease =>
    have change' : r.recordVerification now lease = .ok y := Option.some.inj change
    obtain ⟨id, -, status, same | ⟨bounded, started⟩⟩ := Subscription.recordVerification_ok change'
    · exact (h.append [m]).congr id same.1 same.2 status
    · obtain ⟨range, l, rfl, pos⟩ := Subscription.boundedLease_eq_some bounded
      split at started
      case isFalse idle =>
        refine .of_idle ⟨range, ?_⟩ (by rw [status]; exact idle)
        rw [started]
        exact (h.append [m]).expiry
      case isTrue active =>
        refine ⟨(bounded_of_addSeconds? reading range started).append [m], ?_⟩
        intro _
        have path' : past m.actor (ms ++ [m]) =
            ⟨.now, now⟩ :: (rest ++ [⟨.subscriptions (.update y), some (.ok b)⟩]) := by
          rw [past_append, path, past_of_answered deed, List.cons_append]
        refine ⟨now, ?_, started⟩
        exact .callback List.mem_concat_self alone operation pos
          path' List.mem_concat_self rfl

/-! ## The invariant -/

theorem isLease_of_admits {d : Defaults} {r : CreateRequest} (h : Admits d r)
    (configured : IsConfigured (.subscribe d r)) : IsLease (lease d r) := by
  obtain ⟨access, rfl⟩ := configured d r rfl
  unfold Admits Hub.checkLease at h
  split at h
  · cases h
  · simp only [Settings.HubAccess.defaults] at *
    unfold IsLease
    omega

/-- Every row that is stored and every row that was ever handed out is in order. -/
structure Kept (ms : List (Move Errand)) (now : Shared) : Prop where
  rows : ∀ r ∈ now.subscriptions.rows, Leased ms r
  given : ∀ a c v, ⟨.subscriptions c, some (.ok v)⟩ ∈ past a ms → ∀ r ∈ c.given v, Leased ms r

theorem leased_of_drafts {e : Errand} {a : Actor} {y : Subscription}
    (configured : e.IsConfigured) (h : e.Drafts (past a ms) y) : Leased ms y := by
  generalize path : past a ms = own at h
  cases h with
  | @draft d r id t y admitted new =>
    have reading : t ∈ readings ms := mem_readings_of_past (a := a) (by rw [path]; simp)
    obtain ⟨u, far, rfl⟩ := Option.map_eq_some_iff.mp new
    refine .of_idle (bounded_of_addSeconds? reading ?_ far) (by simp)
    exact isLease_of_admits admitted configured

theorem Kept.bounded_of_takes {now : Shared} (kept : Kept ms now) {e : Errand} {a : Actor}
    (configured : e.IsConfigured) {own rest : List Exchange} {r : Subscription}
    (h : e.Takes own r) (path : past a ms = own ++ rest) : Bounded ms r := by
  have given : ∀ c v, ⟨.subscriptions c, some (.ok v)⟩ ∈ own → ∀ r ∈ c.given v, Leased ms r := by
    intro c v hx
    exact kept.given a c v (by rw [path]; exact List.mem_append_left _ hx)
  cases h with
  | @again d r s admitted =>
    have stored := given _ _ (List.mem_singleton.mpr rfl) s (by simp [Store.SubscriptionCall.given])
    exact ⟨isLease_of_admits admitted configured, stored.expiry⟩
  | @anew e own y s draft =>
    exact (given _ _ List.mem_concat_self r
      (by simp [Store.SubscriptionCall.given])).toBounded
  | stored =>
    exact (given _ _ (List.mem_singleton.mpr rfl) r
      (by simp [Store.SubscriptionCall.given])).toBounded

theorem Kept.leased_of_writes {now : Shared} (kept : Kept ms now) {y b : Subscription}
    (configured : m.operation.IsConfigured)
    (conforms : Conforms conduct Sweep.conduct ms m)
    (deed : m.deed = .answered ⟨.subscriptions (.update y), some (.ok b)⟩) :
    Leased (ms ++ [m]) y := by
  rcases calls conforms (by rw [deed]; rfl) with
    ⟨alone, writes⟩ | ⟨r, renews, result, t, path, change⟩
  · have writes : m.operation.Writes (past m.actor ms) y := writes
    generalize operation : m.operation = e at writes configured
    generalize path : past m.actor ms = own at writes
    cases writes with
    | @handshake e own r y result t heard change =>
      obtain ⟨before, takes, rfl⟩ := heard
      exact leased_of_settled (kept.bounded_of_takes configured takes path) rfl path change deed
    | @verification v own t done todo r y confirms change =>
      obtain ⟨writes, rfl, -⟩ := confirms
      have stored : Leased ms r := by
        refine kept.given m.actor (.findByTopic v.topicUrl) (done ++ r :: todo) ?_ r ?_
        · rw [path]
          simp
        · simp [Store.SubscriptionCall.given]
      exact leased_of_callback stored alone operation path change deed
  · obtain ⟨before, n, rows, row, found⟩ := renews.found
    have stored : Leased ms r := kept.given _ _ _ found r row
    have path : past m.actor ms = [⟨.stopped, false⟩] ++
        [⟨.hubUnlessStopped r.hubRequest, some result⟩, ⟨.now, t⟩] := path
    exact leased_of_settled stored.toBounded rfl path change deed

theorem kept_start (blank : w.subscriptions.rows = []) : Kept [] w := by
  refine ⟨?_, ?_⟩
  · rw [blank]
    intro r hr
    cases hr
  · intro a c v h
    cases h

theorem leased_of_create {y : Subscription} {x : Exchange} (configured : m.operation.IsConfigured)
    (conforms : Conforms conduct Sweep.conduct ms m) (deed : m.deed = .answered x)
    (create : x.request = .subscriptions (.create y)) : Leased ms y := by
  rcases calls conforms (by rw [deed]; exact create) with ⟨-, drafts⟩ | ⟨r, -, asked⟩
  · exact leased_of_drafts configured drafts
  · exact asked.elim

theorem Kept.move (kept : Kept ms m.before) (configured : m.operation.IsConfigured)
    (conforms : Conforms conduct Sweep.conduct ms m) (allowed : m.Allowed) :
    Kept (ms ++ [m]) m.after := by
  have upholds : Upholds (Leased ms) (Leased (ms ++ [m])) m := by
    refine ⟨fun r leased => leased.append [m], ?_, ?_, ?_⟩
    · intro y b deed
      exact (leased_of_create configured conforms deed rfl).append [m]
    · intro y b deed r hr id
      exact (kept.leased_of_writes configured conforms deed).written id _
    · intro r now leased
      exact (leased.append [m]).markExpired now
  have upheld := Upheld.move ⟨kept.rows, kept.given⟩ allowed upholds
  exact ⟨upheld.rows, upheld.given⟩

theorem kept (blank : w.subscriptions.rows = []) (run : Run flow (.start w) ms s)
    (configured : ∀ m ∈ ms, m.operation.IsConfigured) : Kept ms s.shared := by
  induction run with
  | start => exact kept_start blank
  | @quiet ms s s' run h ih =>
    obtain ⟨b, same⟩ := h.shared_of_quiet
    rw [same]
    exact ⟨(ih configured).rows, (ih configured).given⟩
  | @move ms m s s' run h ih =>
    obtain ⟨before, after, allowed⟩ := h.allowed
    have conforms := ((orderly run).move h).moves ms m [] rfl
    have ih := ih fun m' hm' => configured m' (List.mem_append_left _ hm')
    rw [← before] at ih
    rw [← after]
    exact ih.move (configured m List.mem_concat_self) conforms
      allowed

/-! ## Nothing overflows -/

theorem isReading_of_mem (run : Run flow (.start w) ms s) {t : Instant} (h : t ∈ readings ms) :
    IsReading t := by
  obtain ⟨m, hm, reading⟩ := List.mem_filterMap.mp h
  have allowed := run.allowed m hm
  split at reading
  case h_1 u deed =>
    cases reading
    unfold Move.Allowed at allowed
    rw [deed] at allowed
    exact allowed.1
  case h_2 => cases reading

theorem addSeconds?_ne_none (run : Run flow (.start w) ms s)
    (room : ∀ t ∈ readings ms, t.HasRoom) {t : Instant} (ht : t ∈ readings ms) {l : Int}
    (lease : IsLease l) : t.addSeconds? l ≠ none := by
  obtain ⟨pos, short⟩ := lease
  exact Instant.addSeconds?_ne_none (isReading_of_mem run ht).1 (room t ht) (by omega) short

theorem settled_ne_error (run : Run flow (.start w) ms s) (room : ∀ t ∈ readings ms, t.HasRoom)
    {r y : Subscription} {result : Hub.Result} {now : Instant} (h : Bounded ms r)
    (ht : now ∈ readings ms) : r.settled result now ≠ .error y := by
  intro change
  obtain ⟨l, lease, far⟩ := Subscription.settled_error change
  refine addSeconds?_ne_none run room ht ?_ far
  rcases lease with rfl | lease
  · exact h.lease
  · exact lease

theorem call_of_none (run : Run flow (.start w) ms s) {a : Actor} {c : Store.SubscriptionCall}
    (h : ⟨.subscriptions c, none⟩ ∈ past a ms) :
    (∃ status limit offset now, c = .list status limit offset now) ∨
      ∃ before limit, c = .findExpiring before limit := by
  obtain ⟨m, hm, -, deed⟩ := mem_past.mp h
  have answer := ((run.allowed m hm).answer deed (by simp)).1
  exact Store.Subscriptions.isRead_of_answer_none _ _ answer.symm

section

variable (blank : w.subscriptions.rows = []) (run : Run flow (.start w) ms s)
  (configured : ∀ m ∈ ms, m.operation.IsConfigured) (room : ∀ t ∈ readings ms, t.HasRoom)

include blank run configured room

theorem renewals_unbroken {i k : Nat} {t : Thread Errand Result} (at_i : s.threads[i]? = some t)
    {b : Batch} {next : Option (List Sweep.Renewal) → Flow Result}
    (task : t.task = .renewing b next)
    {calling : Bool} (under : b.begun[k]? = some (some ⟨.crash, calling⟩)) : False := by
  have keeps := (orderly run).tasks i t at_i
  rw [task] at keeps
  obtain ⟨⟨⟨-, -, before, n, found⟩, -⟩, -, children⟩ := keeps
  obtain ⟨r, own, row, ⟨older, path⟩, -, breaks⟩ := children k _ under
  have within : ∀ x ∈ own, x ∈ past ⟨i, some k⟩ ms := by
    intro x hx
    rw [← path]
    exact List.mem_append_right _ hx
  rcases breaks with ⟨c, broken⟩ | ⟨result, now, y, heard, change⟩
  · obtain ⟨m, hm, actor, deed⟩ := mem_past.mp (within _ broken)
    obtain ⟨pre, post, split⟩ := List.append_of_mem hm
    have conforms := (orderly run).moves pre m post split
    rcases calls conforms (by rw [deed]; rfl) with ⟨alone, -⟩ | ⟨r', -, asked⟩
    · rw [actor] at alone
      cases alone
    · rcases call_of_none run (within _ broken) with ⟨_, _, _, _, rfl⟩ | ⟨_, _, rfl⟩
      · exact asked.elim
      · exact asked.elim
  · have stored := (kept blank run configured).given _ _ _ found r (List.mem_of_getElem? row)
    have reading : now ∈ readings ms := by
      apply mem_readings_of_past (a := ⟨i, some k⟩)
      apply within
      rw [heard]
      simp
    exact settled_ne_error run room stored.toBounded reading change

theorem renewals_joined {a : Actor} {limit : Nat} {rows : List Subscription}
    (h : ⟨.renewAll limit rows, none⟩ ∈ past a ms) : False := by
  obtain ⟨m, hm, -, deed⟩ := mem_past.mp h
  obtain ⟨pre, post, split⟩ := List.append_of_mem hm
  obtain ⟨s₁, s₂, first, step, -⟩ := run.split split
  have configured₁ : ∀ m ∈ pre, m.operation.IsConfigured := by
    intro m' hm'
    exact configured m' (by rw [split]; exact List.mem_append_left _ hm')
  have room₁ : ∀ t ∈ readings pre, t.HasRoom := by
    intro t ht
    exact room t (by rw [split]; exact mem_readings_append ht)
  cases step with
  | move at_i step =>
    simp only at deed
    subst deed
    cases step with
    | line step =>
      cases step with
      | answer answers single awaited => exact single trivial
    | renewal under step =>
      cases step with
      | answer answers single awaited => exact single trivial
    | broken under => exact renewals_unbroken blank first configured₁ room₁ at_i rfl under

theorem broken_sweep {i : Nat} {t : Thread Errand Result} (at_i : s.threads[i]? = some t)
    (broken : t.task.rest = .crash) :
    ∃ settings, t.operation = .sweep settings ∧
      ((∃ u ∈ readings ms, settings.lookahead?.bind u.add? = none) ∨
        ∃ before, ⟨.subscriptions (.findExpiring before settings.batchSize), none⟩ ∈
          past ⟨i, none⟩ ms) := by
  have orderly := orderly run
  have kept := kept blank run configured
  have configured' : ∀ x ∈ past ⟨i, none⟩ ms, t.operation.IsConfigured := by
    intro x hx
    obtain ⟨m, hm, -, operation, -⟩ := orderly.move_of_past at_i hx
    rw [← operation]
    exact configured m hm
  rcases orderly.broken at_i broken with ⟨c, h⟩ | ⟨limit, rows, h⟩ | overflows
  · obtain ⟨before, after, path⟩ := List.append_of_mem h
    have asked := orderly.asked at_i path
    rcases call_of_none run h with ⟨_, _, _, _, rfl⟩ | ⟨u, n, rfl⟩
    · exact asked.elim
    · obtain ⟨settings, operation, rfl⟩ := asked
      exact ⟨settings, operation, Or.inr ⟨u, h⟩⟩
  · exact (renewals_joined blank run configured room h).elim
  · generalize operation : t.operation = e at overflows configured'
    generalize path : past ⟨i, none⟩ ms = own at overflows configured'
    have reading : ∀ u, ⟨.now, u⟩ ∈ own → u ∈ readings ms := by
      intro u hu
      exact mem_readings_of_past (by rw [path]; exact hu)
    cases overflows with
    | @lease d r own u admitted hu far =>
      have lease := isLease_of_admits admitted (configured' _ hu)
      exact absurd far (addSeconds?_ne_none run room (reading u hu) lease)
    | @handshake e own r y result now heard change =>
      obtain ⟨before, takes, rfl⟩ := heard
      have bounded := kept.bounded_of_takes (configured' ⟨.now, now⟩ (by simp)) takes path
      exact absurd change (settled_ne_error run room bounded (reading now (by simp)))
    | @verification v own now done todo r y confirms change =>
      obtain ⟨writes, rfl, -⟩ := confirms
      cases v with
      | unsubscribe topicUrl => cases change
      | denied topicUrl reason => cases change
      | subscribe topicUrl lease =>
        obtain ⟨-, l, named, far⟩ := Subscription.recordVerification_error (Option.some.inj change)
        have range := (Subscription.boundedLease_eq_some named).1
        exact absurd far (addSeconds?_ne_none run room (reading now (by simp)) range)
    | @lookahead settings own u hu far => exact ⟨settings, rfl, Or.inl ⟨u, reading u hu, far⟩⟩

end

/-! ## The whole -/

/-- What holds of leases and expiries in every state. -/
structure LeasesInOrder (ms : List (Move Errand)) (s : System Errand Result) : Prop where
  lease : ∀ r ∈ s.shared.subscriptions.rows, 1 ≤ r.leaseSeconds ∧ r.leaseSeconds ≤ 864000
  /-- An active row expires its lease after an instant at which it was granted. -/
  active : ∀ r ∈ s.shared.subscriptions.rows, r.status = .active →
    ∃ t ∈ readings ms, Granted ms r.id t ∧ t.addSeconds? r.leaseSeconds = some r.expiresAt
  expiry : ∀ r ∈ s.shared.subscriptions.rows, ∃ latest, (readings ms).getLast? = some latest ∧
    r.expiresAt.nanos ≤ latest.nanos + 864000 * Instant.nanosPerSecond
  /-- As long as the clock leaves room for the longest lease, no instant that a row needs is out of
  range: nothing breaks down but a sweep by its own settings. -/
  unbroken : (∀ t ∈ readings ms, t.HasRoom) → ∀ i t, s.threads[i]? = some t →
    (t.task.rest = .crash → ∃ settings, t.operation = .sweep settings ∧
      ((∃ u ∈ readings ms, settings.lookahead?.bind u.add? = none) ∨
        ∃ before, ⟨.subscriptions (.findExpiring before settings.batchSize), none⟩ ∈
          past ⟨i, none⟩ ms)) ∧
    ∀ b next (k : Nat) calling, t.task = .renewing b next →
      b.begun[k]? ≠ some (some (Line.mk .crash calling))

theorem Granted.mem_readings {id : Uuid} {t : Instant} (h : Granted ms id t) :
    t ∈ readings ms := by
  cases h with
  | @handshake a before after x response y b heard h row =>
    exact mem_readings_of_past (a := a) (by rw [h]; simp)
  | @callback m topicUrl l rest y b hm alone operation pos h written row =>
    exact mem_readings_of_past (a := m.actor) (by rw [h]; simp)

theorem exists_latest (clock : (readings ms).Pairwise (· ≤ ·)) {t : Instant}
    (h : t ∈ readings ms) : ∃ latest, (readings ms).getLast? = some latest ∧ t ≤ latest := by
  rcases List.eq_nil_or_concat (readings ms) with none | ⟨before, latest, same⟩
  · rw [none] at h
    cases h
  · rw [List.concat_eq_append] at same
    rw [same] at h clock ⊢
    refine ⟨latest, List.getLast?_concat .., ?_⟩
    rcases List.mem_append.mp h with h | h
    · exact (List.pairwise_append.mp clock).2.2 t h latest (List.mem_singleton.mpr rfl)
    · rw [List.mem_singleton.mp h]
      exact Int.le_refl _

/-- From an empty store, with subscriptions under any settings and a clock that never goes back,
every lease and expiry is in order. -/
theorem leases_inOrder (blank : w.subscriptions.rows = []) (run : Run flow (.start w) ms s)
    (configured : ∀ m ∈ ms, m.operation.IsConfigured)
    (clock : (readings ms).Pairwise (· ≤ ·)) : LeasesInOrder ms s where
  lease := fun r hr => ((kept blank run configured).rows r hr).lease
  active := by
    intro r hr active
    obtain ⟨t, granted, far⟩ := ((kept blank run configured).rows r hr).granted active
    exact ⟨t, granted.mem_readings, granted, far⟩
  expiry := by
    intro r hr
    obtain ⟨t, ht, le⟩ := ((kept blank run configured).rows r hr).expiry
    obtain ⟨latest, last, later⟩ := exists_latest clock ht
    have later' : t.nanos ≤ latest.nanos := later
    unfold maxLeaseSeconds at le
    exact ⟨latest, last, by omega⟩
  unbroken := by
    intro room i t at_i
    refine ⟨broken_sweep blank run configured room at_i, ?_⟩
    intro b next k calling task under
    exact renewals_unbroken blank run configured room at_i task under

theorem run_plain_whole : ∃ ms s, Run flow (.start .empty) ms s ∧
    ms.map (·.operation) = List.replicate 8 plain ∧ readings ms = [⟨0⟩, ⟨0⟩] ∧ s.shared =
      ⟨.table ⟨[plainRow .active none]⟩, .table {}, [.drawn 0], [], false, false⟩ := by
  have r : Run flow (.start .empty) [] (.start .empty) := .start
  have r := r.quiet (.begin _ plain)
  have r := r.move (Step.answer (i := 0) rfl (some (Except.ok none)) (by exact Or.inl ⟨rfl, rfl⟩)
    id False.elim)
  have r := r.move (Step.draw (i := 0) rfl (.drawn 0) List.not_mem_nil)
  have r := r.move (Step.read (i := 0) rfl)
  have r : Run flow (.start .empty) _
      ⟨⟨.table ⟨[plainRow .pending none]⟩, .table {}, [.drawn 0], [], false, false⟩, _⟩ :=
    r.move (Step.answer (i := 0) rfl _ (by exact Or.inl ⟨rfl, rfl⟩) id False.elim)
  have r := r.move (Step.call (i := 0) rfl (by exact trivial))
  have r := r.move (Step.answer (i := 0) rfl (Except.ok (Hub.Response.mk true 202 none))
    (by exact rfl) id fun _ => rfl)
  have r := r.move (Step.read (i := 0) rfl)
  have r : Run flow (.start .empty) _
      ⟨⟨.table ⟨[plainRow .active none]⟩, .table {}, [.drawn 0], [], false, false⟩, _⟩ :=
    r.move (Step.answer (i := 0) rfl _ (by exact Or.inl ⟨rfl, rfl⟩) id False.elim)
  exact ⟨_, _, r, rfl, rfl, rfl⟩

theorem run_plain : ∃ ms s, Run flow (.start .empty) ms s ∧
    ms.map (·.operation) = List.replicate 8 plain ∧ readings ms = [⟨0⟩, ⟨0⟩] ∧
      s.shared.subscriptions.rows = [plainRow .active none] := by
  obtain ⟨ms, s, r, operations, clock, shared⟩ := run_plain_whole
  exact ⟨ms, s, r, operations, clock, by rw [shared]; rfl⟩

theorem isConfigured_of_operations {n : Nat} {e : Errand} (configured : e.IsConfigured)
    (operations : ms.map (·.operation) = List.replicate n e) :
    ∀ m ∈ ms, m.operation.IsConfigured := by
  intro m hm
  have mem := List.mem_map_of_mem (f := (·.operation)) hm
  rw [operations] at mem
  rw [List.eq_of_mem_replicate mem]
  exact configured

/-- The first subscription of all, accepted at once. -/
theorem leases_inOrder_plain :
    ∃ ms s, Run flow (.start .empty) ms s ∧ Shared.empty.subscriptions.rows = [] ∧
      (∀ m ∈ ms, m.operation.IsConfigured) ∧ (readings ms).Pairwise (· ≤ ·) ∧
      s.shared.subscriptions.rows = [plainRow .active none] ∧ LeasesInOrder ms s := by
  obtain ⟨ms, s, r, operations, clock, rows⟩ := run_plain
  have configured := isConfigured_of_operations plain_isConfigured operations
  have ascending : (readings ms).Pairwise (· ≤ ·) := by
    rw [clock]
    decide
  exact ⟨ms, s, r, rfl, configured, ascending, rows, leases_inOrder rfl r configured ascending⟩

end WebSub.Errand
