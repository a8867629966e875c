import WebSub.Proofs.Store.SubscriptionRows
import WebSub.Proofs.Subscription.Changes
import WebSub.Service.Subscriptions

/-!
# What is fixed about a row

A row keeps what it was created with but for its lease, status, secret and instants of change. A
call to the store adds the origin of a row, takes one away or leaves them all.
-/

namespace WebSub

/-- What a row was created with and never gives up. -/
structure Subscription.Origin where
  id : Uuid
  channelId : String
  topicUrl : String
  callbackUrl : String
  hubUrl : String
  createdAt : Instant
deriving DecidableEq, Repr

namespace Subscription

def origin (s : Subscription) : Origin :=
  ⟨s.id, s.channelId, s.topicUrl, s.callbackUrl, s.hubUrl, s.createdAt⟩

variable {s y : Subscription} {now : Instant}

theorem id_of_origin (h : y.origin = s.origin) : y.id = s.id := congrArg Origin.id h

theorem settled_origin {result : Hub.Result} (h : s.settled result now = .ok y) :
    y.origin = s.origin := by
  rw [settled_eq h]
  rfl

theorem change?_origin {v : Service.Verification} (h : v.change? now s = some (.ok y)) :
    y.origin = s.origin := by
  cases v with
  | subscribe topicUrl lease =>
    rw [recordVerification_eq (Option.some.inj h)]
    rfl
  | unsubscribe topicUrl => cases h
  | denied topicUrl reason =>
    cases h
    rw [markFailed_eq]
    rfl

theorem markExpired_origin (s : Subscription) (now : Instant) :
    (s.markExpired now).1.origin = s.origin := by
  rw [markExpired_eq]
  split <;> rfl

end Subscription

namespace Store.Subscriptions

open Subscription (Origin)

def origins (s : Subscriptions) : List Origin := s.rows.map (·.origin)

/-- No two rows share a channel and a callback. -/
def UniquePairs (s : Subscriptions) : Prop :=
  (s.rows.map fun r => (r.channelId, r.callbackUrl)).Nodup

theorem uniquePairs_iff {s : Subscriptions} :
    s.UniquePairs ↔ (s.origins.map fun o => (o.channelId, o.callbackUrl)).Nodup := by
  unfold UniquePairs origins
  rw [List.map_map]
  rfl

theorem written_origin (s : Subscriptions) {y r : Subscription} (h : r.origin = y.origin) :
    (s.written y r).origin = y.origin := by
  cases s with
  | memory m => rfl
  | table t => exact h

theorem written_of_origin (s : Subscriptions) {r y : Subscription}
    (same : r.origin = y.origin) : s.written y r = y := by
  cases s with
  | memory m => rfl
  | table t =>
    cases r
    cases y
    cases same
    rfl

theorem pair_of_create {s : Subscriptions} {y v : Subscription}
    (h : (s.answer (.create y)).1 = some (.ok v)) :
    ∀ r ∈ s.rows, (r.channelId, r.callbackUrl) ≠ (y.channelId, y.callbackUrl) := by
  intro r hr same
  obtain ⟨channel, callback⟩ := Prod.mk.inj same
  cases s with
  | memory m =>
    have clash : m.rows.any (MemorySubscriptions.clash · y) :=
      List.any_eq_true.mpr ⟨r, hr, by simp [MemorySubscriptions.clash, channel, callback]⟩
    simp [answer, MemorySubscriptions.answer, clash] at h
  | table t =>
    have conflict : ¬ (t.select (SubscriptionTable.conflict y)).isEmpty := by
      rw [List.isEmpty_iff]
      intro free
      have other := List.filter_eq_nil_iff.mp free r hr
      simp [SubscriptionTable.conflict, Condition.holds, channel, callback] at other
    simp [answer, SubscriptionTable.answer, conflict] at h

theorem origins_map {rows : List Subscription} {f : Subscription → Subscription}
    (h : ∀ r ∈ rows, (f r).origin = r.origin) :
    (rows.map f).map (·.origin) = rows.map (·.origin) := by
  rw [List.map_map]
  exact List.map_congr_left h

theorem answer_origins (s : Subscriptions) (c : SubscriptionCall)
    (faithful : ∀ y, c = .update y → ∀ r ∈ s.rows, r.id = y.id → r.origin = y.origin) :
    (s.answer c).2.origins = s.origins ∨
      (∃ y, c = .create y ∧ (s.answer c).2.origins = s.origins ++ [y.origin] ∧
        ∀ r ∈ s.rows, (r.channelId, r.callbackUrl) ≠ (y.channelId, y.callbackUrl)) ∨
      ∃ id, c = .delete id ∧ (s.answer c).2.origins = s.origins.filter (·.id != id) := by
  unfold origins
  by_cases read : IsRead c
  · rw [answer_read s read]
    exact Or.inl rfl
  · cases c with
    | create y =>
      rcases answer_create s y with refused | ⟨ok, rows, -⟩
      · rw [refused]
        exact Or.inl rfl
      · refine Or.inr (Or.inl ⟨y, rfl, ?_, pair_of_create ok⟩)
        rw [rows, List.map_append, List.map_singleton]
    | update y =>
      left
      rcases answer_update s y with ⟨-, same, -⟩ | ⟨-, rows, -⟩
      · rw [same]
      · rw [rows]
        refine origins_map ?_
        intro r hr
        split
        case isTrue hid =>
          have same := faithful y rfl r hr hid
          rw [written_origin s same, same]
        case isFalse => rfl
    | markLapsed now =>
      left
      rw [answer_markLapsed]
      exact origins_map fun r _ => Subscription.markExpired_origin r now
    | delete id =>
      refine Or.inr (Or.inr ⟨id, rfl, ?_⟩)
      rw [answer_delete, List.filter_map]
      rfl
    | _ => exact absurd trivial read

theorem UniquePairs.answer {s : Subscriptions} (h : s.UniquePairs) (c : SubscriptionCall)
    (faithful : ∀ y, c = .update y → ∀ r ∈ s.rows, r.id = y.id → r.origin = y.origin) :
    (s.answer c).2.UniquePairs := by
  rw [uniquePairs_iff] at h ⊢
  rcases answer_origins s c faithful with same | ⟨y, rfl, origins, apart⟩ | ⟨id, -, origins⟩
  · rw [same]
    exact h
  · rw [origins, List.map_append, List.nodup_append]
    refine ⟨h, List.nodup_singleton _, ?_⟩
    intro p hp p' hp'
    obtain ⟨o, ho, rfl⟩ := List.mem_map.mp hp
    obtain ⟨r, hr, rfl⟩ := List.mem_map.mp ho
    rw [List.map_singleton, List.mem_singleton] at hp'
    rw [hp']
    exact apart r hr
  · rw [origins]
    exact h.sublist (List.filter_sublist.map _)

/-! ## Rows that come and go -/

theorem id_of_mem_answer {s : Subscriptions} {c : SubscriptionCall} {r : Subscription}
    (hr : r ∈ (s.answer c).2.rows) : (∃ old ∈ s.rows, old.id = r.id) ∨ c = .create r := by
  rcases mem_answer s c hr with old | created | ⟨y, old, hold, -, hid, rfl⟩ | ⟨t, old, hold, -, rfl⟩
  · exact Or.inl ⟨r, old, rfl⟩
  · exact Or.inr created
  · exact Or.inl ⟨old, hold, by rw [s.written_id hid, hid]⟩
  · exact Or.inl ⟨old, hold, (markExpired_id old t).symm⟩

theorem mem_of_deleted {s : Subscriptions} {id : Uuid}
    (h : (s.answer (.delete id)).1 = some (.ok true)) : ∃ r ∈ s.rows, r.id = id := by
  cases s with
  | memory m =>
    have found : (m.get? id).isSome := Except.ok.inj (Option.some.inj h)
    obtain ⟨r, hr⟩ := Option.isSome_iff_exists.mp found
    exact ⟨r, List.mem_of_find?_eq_some hr, by simpa using List.find?_some hr⟩
  | table t =>
    have some_row : decide (0 < (t.select (.idIs id)).length) = true :=
      Except.ok.inj (Option.some.inj h)
    obtain ⟨r, hr⟩ := List.exists_mem_of_length_pos (of_decide_eq_true some_row)
    obtain ⟨stored, found⟩ := List.mem_filter.mp hr
    exact ⟨r, stored, by simpa [Condition.holds] using found⟩

theorem absent_of_delete (s : Subscriptions) (id : Uuid) :
    ∀ r ∈ (s.answer (.delete id)).2.rows, r.id ≠ id := by
  intro r hr
  rw [answer_delete] at hr
  simpa using (List.mem_filter.mp hr).2

end Store.Subscriptions

end WebSub
