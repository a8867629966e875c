import WebSub.Proofs.Interleaving.Position
import WebSub.Proofs.Subscription.Errand

/-!
# Handshakes and callbacks about one row

Each of them takes a copy of the row, changes it and writes it back, once. Who has finished has
done all of that.
-/

namespace WebSub.Errand

open Interleaving
open Service (Verification)

variable {w : Shared} {ms : List (Move Errand)} {s : System Errand Result} {m m' : Move Errand}
  {id : Uuid} {y : Subscription} {k q : Nat}

/-! ## Who writes which row -/

theorem change?_id {v : Verification} {now : Instant} {r : Subscription}
    (h : v.change? now r = some (.ok y)) : y.id = r.id := by
  cases v with
  | subscribe topicUrl lease => exact (Subscription.recordVerification_ok (Option.some.inj h)).1
  | unsubscribe topicUrl => cases h
  | denied topicUrl reason =>
    cases h
    rw [Subscription.markFailed_eq]

theorem Takes.not_confirm {e : Errand} {own : List Exchange} {r : Subscription}
    (h : e.Takes own r) (v : Verification) : e ≠ confirm v := by
  rcases h.operation with ⟨d, q, rfl⟩ | ⟨id, rfl⟩
  · exact nofun
  · exact nofun

theorem Writes.operation {e : Errand} {own : List Exchange} (h : e.Writes own y) :
    (∀ settings, e ≠ sweep settings) ∧ ∀ id, e ≠ unsubscribe id := by
  cases h with
  | verification confirms change => exact ⟨nofun, nofun⟩
  | handshake heard change =>
    obtain ⟨before, takes, -⟩ := heard
    rcases takes.operation with ⟨d, r, rfl⟩ | ⟨id, rfl⟩
    · exact ⟨nofun, nofun⟩
    · exact ⟨nofun, nofun⟩

theorem update_of_touches {pre pre' : List (Move Errand)} {c : Store.SubscriptionCall}
    (writes : Conforms conduct Sweep.conduct pre m)
    (written : m.deed.request = .subscriptions (.update y))
    (conforms : Conforms conduct Sweep.conduct pre' m')
    (request : m'.deed.request = .subscriptions c) (actor : m'.actor = m.actor)
    (operation : m'.operation = m.operation) (touches : Store.Subscriptions.Touches id c) :
    ∃ y', c = .update y' ∧ y'.id = id := by
  have possible : (∃ y', c = .update y' ∧ y'.id = id) ∨
      (m.actor.renewal = none ∧
        ((∃ settings, m.operation = sweep settings) ∨ ∃ id, m.operation = unsubscribe id)) := by
    rcases calls conforms request with ⟨alone, asked⟩ | ⟨r, -, asked⟩
    · rw [actor] at alone
      rw [operation] at asked
      cases c with
      | update y' => exact Or.inl ⟨y', rfl, touches⟩
      | markLapsed now => exact Or.inr ⟨alone, Or.inl asked⟩
      | delete i => exact Or.inr ⟨alone, Or.inr ⟨i, asked⟩⟩
      | _ => exact touches.elim
    · cases c with
      | update y' => exact Or.inl ⟨y', rfl, touches⟩
      | markLapsed now => exact asked.elim
      | delete i => exact asked.elim
      | _ => exact touches.elim
  rcases possible with update | ⟨alone, other⟩
  · exact update
  · rcases calls writes written with ⟨-, writes⟩ | ⟨r, renews, -⟩
    · obtain ⟨swept, unsubscribed⟩ := Writes.operation writes
      rcases other with ⟨settings, same⟩ | ⟨i, same⟩
      · exact absurd same (swept settings)
      · exact absurd same (unsubscribed i)
    · exact absurd alone renews.within

/-! ## What was written before -/

/-- No row with an identity was written. -/
def Unwritten (id : Uuid) (own : List Exchange) : Prop :=
  ∀ y a, y.id = id → ⟨.subscriptions (.update y), a⟩ ∉ own

theorem Takes.unwritten {e : Errand} {own : List Exchange} {r : Subscription}
    (h : e.Takes own r) : Unwritten id own := by
  intro y a _ hx
  cases h with
  | again admitted => simp at hx
  | stored => simp at hx
  | anew draft =>
    cases draft with
    | draft admitted new => simp at hx

theorem Hears.unwritten {e : Errand} {own : List Exchange} {r : Subscription}
    {result : Hub.Result} {now : Instant} (h : e.Hears own r result now) : Unwritten id own := by
  obtain ⟨before, takes, rfl⟩ := h
  intro y a same hx
  rcases List.mem_append.mp hx with hx | hx
  · exact takes.unwritten y a same hx
  · simp at hx

theorem Confirms.unwritten {v : Verification} {own : List Exchange} {now : Instant}
    {done todo : List Subscription} {r : Subscription}
    (h : Confirms v own now (done ++ r :: todo) done)
    (ids : ((done ++ r :: todo).map (·.id)).Nodup) : Unwritten r.id own := by
  obtain ⟨writes, rfl, why, -⟩ := h
  intro y a same hx
  rcases List.mem_append.mp hx with hx | hx
  · simp at hx
  · obtain ⟨r', hr', y', b, change, written⟩ := why _ hx
    cases written
    rw [List.map_append, List.map_cons] at ids
    have twice : r'.id = r.id := by rw [← change?_id change, same]
    refine (List.nodup_append.mp ids).2.2 r'.id ?_ r.id List.mem_cons_self twice
    exact List.mem_map_of_mem hr'

theorem Writes.unwritten {e : Errand} {own : List Exchange} (h : e.Writes own y)
    (nodup : ∀ topicUrl rows,
      ⟨.subscriptions (.findByTopic topicUrl), some (.ok rows)⟩ ∈ own → (rows.map (·.id)).Nodup) :
    Unwritten y.id own := by
  cases h with
  | handshake heard change => exact heard.unwritten
  | @verification v own now done todo r y confirms change =>
    rw [change?_id change]
    refine confirms.unwritten (nodup v.topicUrl _ ?_)
    obtain ⟨writes, rfl, -⟩ := confirms
    simp

theorem unwritten_of_renewal {own : List Exchange} {r : Subscription} {result : Hub.Result}
    {now : Instant} (h : Sweep.Hears own r result now) : Unwritten id own := by
  rw [h]
  intro y a _ hx
  simp at hx

section

variable (ids : w.subscriptions.UniqueIds) (run : Run flow (.start w) ms s)

include ids run

theorem unwritten_before (at_q : ms[q]? = some m)
    (deed : m.deed.request = .subscriptions (.update y)) :
    Unwritten y.id (past m.actor (ms.take q)) := by
  rcases calls ((orderly run).conforms_at at_q) deed with
    ⟨-, writes⟩ | ⟨r, -, result, now, heard, -⟩
  · refine Writes.unwritten writes ?_
    intro topicUrl rows found
    obtain ⟨store, unique, answer⟩ := answered_of_past ids run found
    exact unique.findByTopic answer
  · exact unwritten_of_renewal heard

/-- No operation and no renewal writes a row twice. -/
theorem writes_once {y' : Subscription} {b : (Store.SubscriptionCall.update y).Answer}
    {b' : (Store.SubscriptionCall.update y').Answer} (at_k : ms[k]? = some m')
    (at_q : ms[q]? = some m) (actor : m'.actor = m.actor)
    (deed' : m'.deed = .answered ⟨.subscriptions (.update y'), b'⟩)
    (deed : m.deed = .answered ⟨.subscriptions (.update y), b⟩) (same : y'.id = y.id) : k = q := by
  rcases Nat.lt_trichotomy k q with before | here | after
  · have hx := mem_past_take at_k before deed'
    rw [actor] at hx
    exact absurd hx (unwritten_before ids run at_q (by rw [deed]; rfl) y' b' same)
  · exact here
  · have hx := mem_past_take at_q after deed
    rw [← actor] at hx
    exact absurd hx (unwritten_before ids run at_k (by rw [deed']; rfl) y b same.symm)

theorem stays_of_writer {b : (Store.SubscriptionCall.update y).Answer} {r : Subscription}
    (at_q : ms[q]? = some m) (deed : m.deed = .answered ⟨.subscriptions (.update y), b⟩)
    (at_k : ms[k]? = some m') (actor : m'.actor = m.actor) (other : k ≠ q)
    (h : m'.before.subscriptions.get? y.id = some r) :
    m'.after.subscriptions.get? y.id = some r := by
  have hm := List.mem_of_getElem? at_q
  have hm' := List.mem_of_getElem? at_k
  rcases (run.allowed m' hm').subscriptions with same | ⟨c, called, after⟩
  · rw [same]
    exact h
  · rw [after]
    refine Store.Subscriptions.get?_answer h ?_
    intro touches
    have orderly := orderly run
    obtain ⟨y', rfl, row⟩ := update_of_touches (orderly.conforms_at at_q) (by rw [deed]; rfl)
      (orderly.conforms_at at_k) (by rw [called]; rfl) actor
      (orderly.same_operation hm' hm (by rw [actor])) touches
    exact other (writes_once ids run at_k at_q actor called deed row)

end

/-! ## What is written comes from a copy -/

/-- By the move at a position, an actor was handed a row. -/
def Took (ms : List (Move Errand)) (a : Actor) (p : Nat) (r : Subscription) : Prop :=
  ∃ m c v, ms[p]? = some m ∧ m.actor = a ∧
    m.deed = .answered ⟨.subscriptions c, some (.ok v)⟩ ∧ r ∈ c.given v

def Wrote (ms : List (Move Errand)) (a : Actor) (q : Nat) (y : Subscription) : Prop :=
  ∃ m b, ms[q]? = some m ∧ m.actor = a ∧ m.deed = .answered ⟨.subscriptions (.update y), b⟩

/-- A handshake about a row: a copy of it is taken at one position, for a renewal by its sweep, and
written at another one, after the hub has answered and with the status that follows from it. -/
structure Handshake (ms : List (Move Errand)) (a : Actor) (p q : Nat) (copy : Subscription)
    (result : Hub.Result) : Prop where
  taken : Took ms ⟨a.thread, none⟩ p copy
  heard : ∃ x ∈ past a (ms.take q), x.heard? = some result
  written : ∃ y, Wrote ms a q y ∧ y.id = copy.id ∧ y.status = Subscription.decided result ∧
    y.lastVerifiedAt = copy.lastVerifiedAt
  order : p < q

/-- A callback about a row: the clock is read first, then a copy is taken, and it is written with
the instant of the verification. -/
structure Callback (ms : List (Move Errand)) (a : Actor) (p q : Nat) (seen : Subscription)
    (t : Instant) : Prop where
  reading : ∃ rest, past a (ms.take q) = ⟨.now, t⟩ :: rest
  taken : Took ms a p seen
  written : ∃ y, Wrote ms a q y ∧ y.id = seen.id ∧ y.status = seen.status ∧
    y.lastVerifiedAt = some t
  order : p < q

theorem took_of_mem_past {a : Actor} {c : Store.SubscriptionCall} {v : c.Value} {r : Subscription}
    (h : ⟨.subscriptions c, some (.ok v)⟩ ∈ past a (ms.take q)) (hr : r ∈ c.given v) :
    ∃ p < q, Took ms a p r := by
  obtain ⟨p, m, order, at_p, actor, deed⟩ := position_of_mem_past h
  exact ⟨p, order, m, c, v, at_p, actor, deed, hr⟩

theorem handshake_of_wrote {a : Actor} (run : Run flow (.start w) ms s) (wrote : Wrote ms a q y)
    (other : a.renewal = none → ∀ m ∈ ms, m.actor = a → ∀ v, m.operation ≠ .confirm v) :
    ∃ p copy result, Handshake ms a p q copy result ∧ copy.id = y.id := by
  obtain ⟨m, b, at_q, rfl, deed⟩ := id wrote
  rcases calls ((orderly run).conforms_at at_q) (by rw [deed]; rfl) with
    ⟨alone, writes⟩ | ⟨r, renews, result, now, heard, change⟩
  · have self : (⟨m.actor.thread, none⟩ : Actor) = m.actor := by
      rw [← alone]
    have other := other alone m (List.mem_of_getElem? at_q) rfl
    have writes : m.operation.Writes (past m.actor (ms.take q)) y := writes
    generalize m.operation = e at writes other
    generalize path : past m.actor (ms.take q) = own at writes
    cases writes with
    | verification confirms change => exact absurd rfl (other _)
    | @handshake e own r y result now heard change =>
      obtain ⟨before, takes, rfl⟩ := heard
      obtain ⟨c, v, copy, given, found, lease, secret, edited⟩ := takes.copied
      obtain ⟨p, order, taken⟩ := took_of_mem_past (a := m.actor) (q := q)
        (by rw [path]; exact List.mem_append_left _ found) given
      obtain ⟨id, kept, status⟩ := Subscription.settled_ok change
      refine ⟨p, copy, result, ⟨?_, ?_, ⟨y, wrote, ?_, status, ?_⟩, order⟩, ?_⟩
      · rw [self]
        exact taken
      · refine ⟨⟨.hub .subscribe r.hubRequest, result⟩, ?_, rfl⟩
        rw [path]
        simp
      · rw [id, edited]
      · rw [kept, edited]
      · rw [id, edited]
  · obtain ⟨before, n, rows, row, found⟩ := renews.found
    obtain ⟨p, order, taken⟩ := took_of_mem_past found row
    obtain ⟨id, kept, status⟩ := Subscription.settled_ok change
    refine ⟨p, r, result, ⟨taken, ?_, ⟨y, wrote, id, status, kept⟩, order⟩, id.symm⟩
    refine ⟨⟨.hubUnlessStopped r.hubRequest, some result⟩, ?_, rfl⟩
    rw [heard]
    simp

theorem callback_of_wrote {j : Nat} {topicUrl : String} {lease : Option Int}
    (run : Run flow (.start w) ms s) (wrote : Wrote ms ⟨j, none⟩ q y)
    (verification : ∀ m ∈ ms, m.actor = ⟨j, none⟩ →
      m.operation = .confirm (.subscribe topicUrl lease)) :
    ∃ p seen t, Callback ms ⟨j, none⟩ p q seen t ∧ seen.id = y.id := by
  obtain ⟨m, b, at_q, actor, deed⟩ := id wrote
  have writes : (confirm (.subscribe topicUrl lease)).Writes (past ⟨j, none⟩ (ms.take q)) y := by
    rcases calls ((orderly run).conforms_at at_q) (by rw [deed]; rfl) with
      ⟨-, writes⟩ | ⟨r, renews, -⟩
    · rw [actor, verification m (List.mem_of_getElem? at_q) actor] at writes
      exact writes
    · exact absurd (by rw [actor]) renews.within
  generalize path : past ⟨j, none⟩ (ms.take q) = own at writes
  cases writes with
  | handshake heard change =>
    obtain ⟨before, takes, -⟩ := heard
    exact absurd rfl (takes.not_confirm _)
  | @verification v own now done todo r y confirms change =>
    obtain ⟨writes, rfl, -⟩ := confirms
    have found : ⟨.subscriptions (.findByTopic topicUrl), some (.ok (done ++ r :: todo))⟩ ∈
        past ⟨j, none⟩ (ms.take q) := by
      rw [path]
      simp [Verification.topicUrl]
    obtain ⟨p, order, taken⟩ := took_of_mem_past found
      (List.mem_append_right _ List.mem_cons_self : r ∈ _)
    obtain ⟨id, verified, status, -⟩ := Subscription.recordVerification_ok (Option.some.inj change)
    exact ⟨p, r, now, ⟨⟨_, path⟩, taken, ⟨y, wrote, id, status, verified⟩, order⟩, id.symm⟩

/-! ## What has finished -/

/-- A handshake about a row has finished, after the hub answered. -/
inductive Shaken (ms : List (Move Errand)) (s : System Errand Result) (id : Uuid) : Actor → Prop
  | operation {i p : Nat} {t : Thread Errand Result} {r : Except Service.Error Subscription}
      {copy : Subscription} (at_i : s.threads[i]? = some t)
      (ended : t.task.result? = some (.subscribed r)) (answered : Heard (past ⟨i, none⟩ ms))
      (taken : Took ms ⟨i, none⟩ p copy) (row : copy.id = id) : Shaken ms s id ⟨i, none⟩
  | renewal {i k : Nat} {r : Subscription} {outcome : Sweep.Renewal}
      (ended : (Sweep.renewOne r).Follows (past ⟨i, some k⟩ ms) (.done outcome))
      (tried : outcome ≠ .skipped) (row : r.id = id) : Shaken ms s id ⟨i, some k⟩

/-- A callback that a subscription is verified has finished, and had found a row. -/
inductive Verified (ms : List (Move Errand)) (s : System Errand Result) (id : Uuid) : Actor → Prop
  | operation {i p n : Nat} {t : Thread Errand Result} {topicUrl : String} {lease : Option Int}
      {seen : Subscription} (at_i : s.threads[i]? = some t)
      (callback : t.operation = .confirm (.subscribe topicUrl lease))
      (ended : t.task.result? = some (.confirmed (.ok n))) (taken : Took ms ⟨i, none⟩ p seen)
      (row : seen.id = id) : Verified ms s id ⟨i, none⟩

theorem wrote_of_mem_past {a : Actor} {b : (Store.SubscriptionCall.update y).Answer}
    (h : ⟨.subscriptions (.update y), b⟩ ∈ past a ms) : ∃ q, Wrote ms a q y := by
  obtain ⟨m, hm, actor, deed⟩ := mem_past.mp h
  obtain ⟨q, at_q⟩ := List.mem_iff_getElem?.mp hm
  exact ⟨q, m, b, at_q, actor, deed⟩

theorem Took.mem_past {a : Actor} {p : Nat} {r : Subscription} (h : Took ms a p r) :
    ∃ c v, ⟨.subscriptions c, some (.ok v)⟩ ∈ past a ms ∧ r ∈ c.given v := by
  obtain ⟨m, c, v, at_p, actor, deed, given⟩ := h
  exact ⟨c, v, Interleaving.mem_past.mpr ⟨m, List.mem_of_getElem? at_p, actor, deed⟩, given⟩

theorem Takes.only {e : Errand} {own : List Exchange} {r copy : Subscription} (h : e.Takes own r)
    {c : Store.SubscriptionCall} {v : c.Value} (hx : ⟨.subscriptions c, some (.ok v)⟩ ∈ own)
    (given : copy ∈ c.given v) : copy.id = r.id := by
  cases h with
  | again admitted =>
    cases List.mem_singleton.mp hx
    rw [List.mem_singleton.mp given]
  | stored =>
    cases List.mem_singleton.mp hx
    rw [List.mem_singleton.mp given]
  | anew draft =>
    rcases List.mem_append.mp hx with hx | hx
    · cases draft with
      | draft admitted new =>
        rcases List.mem_cons.mp hx with first | hx
        · cases first
          cases given
        · simp at hx
    · cases List.mem_singleton.mp hx
      rw [List.mem_singleton.mp given]

theorem Shaken.handshake {a : Actor} (run : Run flow (.start w) ms s) (h : Shaken ms s id a) :
    ∃ p q copy result, Handshake ms a p q copy result ∧ copy.id = id := by
  cases h with
  | @operation i p t r copy at_i ended answered taken row =>
    have orderly := orderly run
    obtain ⟨before, r₀, y, b, result, now, path, heard, change⟩ :
        ∃ before r₀ y b result now,
          past ⟨i, none⟩ ms = before ++ [⟨.subscriptions (.update y), some b⟩] ∧
            t.operation.Hears before r₀ result now ∧ r₀.settled result now = .ok y :=
      orderly.ended at_i ended answered
    obtain ⟨older, takes, rfl⟩ := heard
    obtain ⟨q, wrote⟩ := wrote_of_mem_past
      (by rw [path]; simp : ⟨.subscriptions (.update y), some b⟩ ∈ past ⟨i, none⟩ ms)
    have other : ∀ m ∈ ms, m.actor = ⟨i, none⟩ → ∀ v, m.operation ≠ .confirm v := by
      intro m hm actor v
      rw [orderly.operation_of_thread at_i hm (by rw [actor])]
      exact takes.not_confirm v
    obtain ⟨p, copy', result, handshake, same⟩ := handshake_of_wrote run wrote fun _ => other
    refine ⟨p, q, copy', result, handshake, ?_⟩
    obtain ⟨c, v, given, hr⟩ := taken.mem_past
    rw [path] at given
    rw [same, (Subscription.settled_ok change).1, ← row]
    rcases List.mem_append.mp given with given | given
    · rcases List.mem_append.mp given with given | given
      · exact (takes.only given hr).symm
      · simp at given
    · cases List.mem_singleton.mp given
      cases hr
  | @renewal i k r outcome ended tried row =>
    obtain ⟨before, y, b, result, now, path, -, change⟩ :=
      keeps_of_follows ended run.possible (Sweep.keeps_renewOne r) tried
    obtain ⟨q, wrote⟩ := wrote_of_mem_past
      (by rw [← List.nil_append (past _ ms), path]; simp :
        ⟨.subscriptions (.update y), some b⟩ ∈ past ⟨i, some k⟩ ms)
    obtain ⟨p, copy, result, handshake, same⟩ := handshake_of_wrote run wrote nofun
    exact ⟨p, q, copy, result, handshake, by rw [same, (Subscription.settled_ok change).1, row]⟩

theorem Verified.callback {a : Actor} (run : Run flow (.start w) ms s) (h : Verified ms s id a) :
    ∃ p q seen t, Callback ms a p q seen t ∧ seen.id = id := by
  cases h with
  | @operation i p n t topicUrl lease seen at_i callback ended taken row =>
    have orderly := orderly run
    have verification : ∀ m ∈ ms, m.actor = ⟨i, none⟩ →
        m.operation = .confirm (.subscribe topicUrl lease) := by
      intro m hm actor
      rw [orderly.operation_of_thread at_i hm (by rw [actor]), callback]
    obtain ⟨v, now, rows, same, writes, path, why, all⟩ := orderly.ended at_i ended
    rw [callback] at same
    cases same
    obtain ⟨c, v, given, hr⟩ := taken.mem_past
    have found : seen ∈ rows := by
      rw [path] at given
      rcases List.mem_append.mp given with given | given
      · rcases List.mem_cons.mp given with given | given
        · cases given
        · cases List.mem_singleton.mp given
          exact hr
      · obtain ⟨_, -, y, b, -, given⟩ := why _ given
        cases given
        cases hr
    obtain ⟨y, b, change, written⟩ := all seen found _ rfl
    obtain ⟨q, wrote⟩ := wrote_of_mem_past
      (by rw [path]; exact List.mem_append_right _ written :
        ⟨.subscriptions (.update y), some (.ok b)⟩ ∈ past ⟨i, none⟩ ms)
    obtain ⟨p, seen', t, called, same⟩ := callback_of_wrote run wrote verification
    exact ⟨p, q, seen', t, called, by rw [same, (Subscription.recordVerification_ok change).1, row]⟩

theorem Shaken.ne_verified {a a' : Actor} (h : Shaken ms s id a) (h' : Verified ms s id a') :
    a ≠ a' := by
  cases h with
  | operation at_i ended answered taken row =>
    cases h' with
    | operation at_j callback ended' taken' row' =>
      rintro ⟨⟩
      rw [at_i, Option.some.injEq] at at_j
      rw [at_j, ended'] at ended
      cases ended
  | renewal ended tried row =>
    cases h' with
    | operation at_j callback ended' taken' row' => exact nofun

end WebSub.Errand
