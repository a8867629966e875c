import Mathlib.Data.List.Forall2
import WebSub.Proofs.Flow.Alone
import WebSub.Proofs.Subscription.Identity
import WebSub.Proofs.Subscription.Topic

/-!
# What a verification reaches

A callback about a channel changes the rows of that channel, each in the same few columns, and no
other row.
-/

namespace WebSub

open Interleaving

/-! ## One row -/

namespace Service.Verification

/-- The lease that a callback names, if it counts. -/
def lease? : Verification → Option Int
  | subscribe _ lease => Subscription.boundedLease lease
  | unsubscribe _ | denied .. => none

/-- If the callback starts the row's lease at `t`, the lease ends at an instant that there is. -/
def Fits (t : Instant) (r : Subscription) (v : Verification) : Prop :=
  r.status = .active → ∀ l, v.lease? = some l → t.addSeconds? l ≠ none

theorem fits_of_hasRoom {t : Instant} (reading : Instant.first ≤ t) (room : t.HasRoom)
    (r : Subscription) (v : Verification) : v.Fits t r := by
  intro _ l named
  cases v with
  | subscribe topicUrl lease =>
    obtain ⟨⟨positive, short⟩, -⟩ := Subscription.boundedLease_eq_some named
    exact Instant.addSeconds?_ne_none reading room positive short
  | unsubscribe topicUrl => cases named
  | denied topicUrl reason => cases named

/-- What a callback at `t` makes of a row, column by column. -/
def Touches (t : Instant) (r r' : Subscription) : Verification → Prop
  | subscribe _ lease =>
    r' = { r with leaseSeconds := r'.leaseSeconds, expiresAt := r'.expiresAt,
                  lastVerifiedAt := some t, updatedAt := t } ∧
    match lease with
    | none => r'.leaseSeconds = r.leaseSeconds ∧ r'.expiresAt = r.expiresAt
    | some l =>
      if 0 < l then
        r'.leaseSeconds = min l maxLeaseSeconds ∧
          if r.status = .active then t.addSeconds? r'.leaseSeconds = some r'.expiresAt
          else r'.expiresAt = r.expiresAt
      else r'.leaseSeconds = r.leaseSeconds ∧ r'.expiresAt = r.expiresAt
  | unsubscribe _ => r' = r
  | denied .. => r' = { r with status := .failed, updatedAt := t }

/-- The row that a callback leaves, if the change does not stop. -/
def changed (t : Instant) (v : Verification) (r : Subscription) : Subscription :=
  match v.change? t r with
  | some (.ok y) => y
  | _ => r

variable {t : Instant} {v : Verification} {r y : Subscription}

theorem changed_eq (h : v.change? t r = some (.ok y)) : v.changed t r = y := by
  unfold changed
  rw [h]

theorem changed_of_none (h : v.change? t r = none) : v.changed t r = r := by
  unfold changed
  rw [h]

theorem change?_ok (fits : v.Fits t r) {change : Subscription.Change}
    (h : v.change? t r = some change) : change = .ok (v.changed t r) := by
  cases change with
  | ok y => rw [changed_eq h]
  | error y =>
    cases v with
    | subscribe topicUrl lease =>
      obtain ⟨active, l, named, stuck⟩ := Subscription.recordVerification_error (Option.some.inj h)
      exact absurd stuck (fits active l named)
    | unsubscribe topicUrl => cases h
    | denied topicUrl reason => cases h

theorem changed_origin (v : Verification) (t : Instant) (r : Subscription) :
    (v.changed t r).origin = r.origin := by
  cases h : v.change? t r with
  | none => rw [changed_of_none h]
  | some change =>
    cases change with
    | ok y => rw [changed_eq h, Subscription.change?_origin h]
    | error y =>
      unfold changed
      rw [h]

theorem touches_changed (fits : v.Fits t r) : v.Touches t r (v.changed t r) := by
  cases v with
  | subscribe topicUrl lease =>
    have ok : r.recordVerification t lease = .ok ((subscribe topicUrl lease).changed t r) :=
      change?_ok fits rfl
    refine ⟨Subscription.recordVerification_eq ok, ?_⟩
    have named := Subscription.recordVerification_lease ok
    cases lease with
    | none => exact named
    | some l =>
      rw [Subscription.boundedLease_some] at named
      by_cases positive : 0 < l
      · rw [if_pos positive] at named
        show if 0 < l then _ else _
        rw [if_pos positive]
        obtain ⟨adopted, ends⟩ := named
        exact ⟨adopted, by rw [adopted]; exact ends⟩
      · rw [if_neg positive] at named
        show if 0 < l then _ else _
        rw [if_neg positive]
        exact named
  | unsubscribe topicUrl => rfl
  | denied topicUrl reason => exact Subscription.markFailed_eq r t

end Service.Verification

/-! ## All rows -/

namespace Store.Subscriptions

theorem UniqueIds.answer_copy {s : Subscriptions} (ids : s.UniqueIds) {r y : Subscription}
    (stored : r ∈ s.rows) (same : y.origin = r.origin) :
    (∃ a, (s.answer (.update y)).1 = some (.ok a)) ∧
      (s.answer (.update y)).2.rows = s.rows.map fun x => if x = r then y else x := by
  have id := Subscription.id_of_origin same
  rcases answer_update s y with ⟨-, -, absent⟩ | ⟨answer, rows, -⟩
  · exact absurd id.symm (absent r stored)
  · refine ⟨answer, rows.trans (List.map_congr_left fun x hx => ?_)⟩
    by_cases this : x = r
    · rw [if_pos this, if_pos (by rw [this, id]), this]
      exact written_of_origin s same.symm
    · have other : x.id ≠ y.id := fun h =>
        this (List.inj_on_of_nodup_map ids hx stored (h.trans id))
      rw [if_neg this, if_neg other]

end Store.Subscriptions

namespace Service

open Verification (Fits changed)

variable {t : Instant} {v : Verification} {w : Shared}

theorem map_changed_cons {rows todo : List Subscription} {r : Subscription}
    (ids : (rows.map (·.id)).Nodup) (stored : ∀ x ∈ r :: todo, x ∈ rows) (new : r ∉ todo) :
    (rows.map fun x => if x = r then v.changed t r else x).map
        (fun x => if x ∈ todo then v.changed t x else x) =
      rows.map fun x => if x ∈ r :: todo then v.changed t x else x := by
  rw [List.map_map]
  refine List.map_congr_left fun x hx => ?_
  have later : v.changed t r ∉ todo := by
    intro hy
    have here := List.inj_on_of_nodup_map ids (stored _ (List.mem_cons_of_mem _ hy))
      (stored r List.mem_cons_self) (Subscription.id_of_origin (v.changed_origin t r))
    rw [here] at hy
    exact new hy
  by_cases this : x = r
  · rw [Function.comp_apply, if_pos this, if_neg later, if_pos (by simp [this]), this]
  · simp [this]

theorem ensures_recordAll {todo : List Subscription} (fits : ∀ r ∈ todo, v.Fits t r)
    (ids : w.subscriptions.UniqueIds) (stored : ∀ r ∈ todo, r ∈ w.subscriptions.rows)
    (once : todo.Nodup) :
    Flow.Ensures (Undisturbed t) (recordAll v t todo).run w fun w' x =>
      x = .ok () ∧ Within w w' ∧
        w'.subscriptions.rows =
          w.subscriptions.rows.map fun r => if r ∈ todo then v.changed t r else r := by
  induction todo generalizing w with
  | nil => exact ⟨rfl, rfl, by simp⟩
  | cons r todo ih =>
    obtain ⟨new, once⟩ := List.nodup_cons.mp once
    have later := fun x hx => stored x (List.mem_cons_of_mem r hx)
    have fits' := fun x hx => fits x (List.mem_cons_of_mem r hx)
    rw [← map_changed_cons ids stored new]
    unfold recordAll
    cases change : v.change? t r with
    | none =>
      have still : (w.subscriptions.rows.map fun x => if x = r then v.changed t r else x) =
          w.subscriptions.rows := by
        rw [Verification.changed_of_none change]
        conv_rhs => rw [← List.map_id w.subscriptions.rows]
        refine List.map_congr_left fun x _ => ?_
        split
        case isTrue this => exact this.symm
        case isFalse => rfl
      rw [still]
      exact ih fits' ids later once
    | some change' =>
      obtain rfl := Verification.change?_ok (fits r List.mem_cons_self) change
      obtain ⟨⟨a, answer⟩, rows⟩ :=
        ids.answer_copy (stored r List.mem_cons_self) (v.changed_origin t r)
      have called : Flow.Ensures (Undisturbed t) (call (.update (v.changed t r))).run w fun w' x =>
          w' = { w with subscriptions :=
            (w.subscriptions.answer (.update (v.changed t r))).2 } ∧ x = .ok a :=
        Undisturbed.ensures_call answer ⟨rfl, rfl⟩
      refine called.run_bind ?_ ?_
      · rintro w' e ⟨-, impossible⟩
        cases impossible
      · rintro w' _ ⟨rfl, -⟩
        -- The rows that are still to be changed are stored as they were read.
        have kept : ∀ x ∈ todo, x ∈ (w.subscriptions.answer (.update (v.changed t r))).2.rows := by
          intro x hx
          rw [rows]
          refine List.mem_map.mpr ⟨x, later x hx, if_neg ?_⟩
          rintro rfl
          exact new hx
        rw [← rows]
        exact ih fits' (ids.answer _) kept once

/-! ## A callback about a channel -/

/-- What a callback at `t` about a channel comes to. -/
structure Confirmed (t : Instant) (v : Verification) (channelId : String) (w w' : Shared)
    (result : Except Error Nat) : Prop where
  counted : result = .ok (w.subscriptions.rows.countP (·.channelId = channelId))
  rows : List.Forall₂ (fun r r' => if r.channelId = channelId then v.Touches t r r' else r' = r)
    w.subscriptions.rows w'.subscriptions.rows
  rest : Within w w'

variable {channelId : String}

theorem confirmed_of_changed {w' : Shared} {rows : List Subscription}
    (fits : ∀ r ∈ w.subscriptions.rows, r.channelId = channelId → v.Fits t r)
    (found : ∀ r ∈ w.subscriptions.rows, r ∈ rows ↔ r.channelId = channelId)
    (counted : rows.length = w.subscriptions.rows.countP (·.channelId = channelId))
    (rest : Within w w')
    (after : w'.subscriptions.rows =
      w.subscriptions.rows.map fun r => if r ∈ rows then v.changed t r else r) :
    Confirmed t v channelId w w' (.ok rows.length) := by
  refine ⟨by rw [counted], ?_, rest⟩
  rw [after, List.forall₂_map_right_iff, List.forall₂_same]
  intro r hr
  by_cases its : r.channelId = channelId
  · rw [if_pos its, if_pos ((found r hr).mpr its)]
    exact Verification.touches_changed (fits r hr its)
  · rw [if_neg its, if_neg fun h => its ((found r hr).mp h)]

/-- In a store whose topics are those of its channels, the callback's topic names the channel. -/
theorem ensures_confirm
    (fits : ∀ r ∈ w.subscriptions.rows, r.channelId = channelId → v.Fits t r)
    (ids : w.subscriptions.UniqueIds)
    (topics : ∀ r ∈ w.subscriptions.rows, r.topicUrl = topicUrl r.channelId)
    (about : v.topicUrl = topicUrl channelId) :
    Flow.Ensures (Undisturbed t) (confirm v).run w (Confirmed t v channelId w) := by
  have found : ∀ r ∈ w.subscriptions.rows,
      (r.topicUrl == v.topicUrl) = decide (r.channelId = channelId) := by
    intro r hr
    rw [topics r hr, about, Bool.eq_iff_iff, beq_iff_eq, decide_eq_true_eq, topicUrl_eq_iff]
  have rows := List.filter_congr found
  have fits' : ∀ r ∈ w.subscriptions.rows.filter (·.topicUrl == v.topicUrl), v.Fits t r := by
    intro r hr
    obtain ⟨stored, its⟩ := List.mem_filter.mp hr
    rw [found r stored, decide_eq_true_eq] at its
    exact fits r stored its
  have ensured := ensures_recordAll fits' ids (fun r hr => (List.mem_filter.mp hr).1)
    ((List.Nodup.of_map _ ids).filter _)
  have unread := Store.Subscriptions.answer_read w.subscriptions
    (c := .findByTopic v.topicUrl) (by exact trivial)
  refine Undisturbed.ensures_now (Undisturbed.ensures_subscriptions ?_)
  rw [Store.Subscriptions.answer_findByTopic, unread]
  refine ensured.run_bind ?_ ?_
  · rintro w' e ⟨impossible, -⟩
    cases impossible
  · rintro w' - ⟨-, rest, after⟩
    refine confirmed_of_changed fits ?_ ?_ rest after
    · intro r hr
      rw [List.mem_filter, found r hr, decide_eq_true_eq]
      exact and_iff_right hr
    · rw [rows, List.countP_eq_length_filter]

end Service

/-! ## In a store that is served -/

namespace Chore

open Service (Verification Confirmed confirm)

/-- Topics stand for channels, and so a callback about a topic reaches the rows of its channel. -/
structure ChannelsIdentified (now : Shared) : Prop where
  distinct : ∀ c c', topicUrl c = topicUrl c' → c = c'
  /-- The only parameter of the address is the channel. -/
  parameter : ∀ (c : String) (r : Http.Request), r.target = topicUrl c →
    r.query = [("channel_id", c)]
  literal : ∀ r : CreateRequest, r.violations = [] →
    topicUrl r.channelId =
      "https://www.youtube.com/xml/feeds/videos.xml?channel_id=" ++ r.channelId
  /-- A callback counts the rows of the channel, changes them as it should, and changes nothing
  else, unless a lease would have to end after the last of all instants. -/
  confirmed : ∀ (c : String) (v : Verification) (t : Instant), v.topicUrl = topicUrl c →
    (∀ r ∈ now.subscriptions.rows, r.channelId = c → v.Fits t r) →
      Flow.Ensures (Undisturbed t) (confirm v).run now (Confirmed t v c now)

/-- **A verification reaches the rows of its channel, and no others.** Whatever was done before,
side by side or with failures, the topic of a callback that comes alone while the store works is
the topic of exactly the rows of its channel; their number is the result, each of them changes in
the columns that the callback is about, and all else stays. -/
theorem channels_identified {w : Shared} {ms : List (Move Chore)} {s : System Chore Result}
    (blank : w.subscriptions.rows = []) (run : Run flow (.start w) ms s) :
    ChannelsIdentified s.shared where
  distinct _ _ := topicUrl_inj
  parameter _ _ := query_topicUrl
  literal _ := CreateRequest.topicUrl_of_valid
  confirmed c v t about fits := by
    have ids := uniqueIds_of_run (Store.Subscriptions.uniqueIds_of_blank blank) run
    have topics : ∀ r ∈ s.shared.subscriptions.rows, r.topicUrl = topicUrl r.channelId :=
      fun r hr => ((rooted blank run).rows r hr).topic run
    exact Service.ensures_confirm fits ids topics about

/-- A lease that is longer than any other one, named for an active row. -/
theorem channels_identified_active :
    ∃ ms s, Shared.empty.subscriptions.rows = [] ∧ Run flow (.start .empty) ms s ∧
      s.shared.subscriptions.rows = [Errand.plainRow .active none] ∧
      (∀ r, (Verification.subscribe (topicUrl "a") (some 864001)).Fits ⟨0⟩ r) ∧
      ChannelsIdentified s.shared := by
  have r : Run flow (.start .empty) [] (.start .empty) := .start
  have r := r.quiet (.begin _ (.errand .plain))
  have r := r.move (Step.answer (i := 0) rfl (some (Except.ok none)) (by exact Or.inl ⟨rfl, rfl⟩)
    id False.elim)
  have r := r.move (Step.draw (i := 0) rfl (.drawn 0) List.not_mem_nil)
  have r := r.move (Step.read (i := 0) rfl)
  have r : Run flow (.start .empty) _
      ⟨⟨.table ⟨[Errand.plainRow .pending none]⟩, .table {}, [.drawn 0], [], false, false⟩, _⟩ :=
    r.move (Step.answer (i := 0) rfl _ (by exact Or.inl ⟨rfl, rfl⟩) id False.elim)
  have r := r.move (Step.call (i := 0) rfl (by exact trivial))
  have r := r.move (Step.answer (i := 0) rfl (Except.ok (Hub.Response.mk true 202 none))
    (by exact rfl) id fun _ => rfl)
  have r := r.move (Step.read (i := 0) rfl)
  have r : Run flow (.start .empty) _
      ⟨⟨.table ⟨[Errand.plainRow .active none]⟩, .table {}, [.drawn 0], [], false, false⟩, _⟩ :=
    r.move (Step.answer (i := 0) rfl _ (by exact Or.inl ⟨rfl, rfl⟩) id False.elim)
  exact ⟨_, _, rfl, r, rfl,
    fun r => Verification.fits_of_hasRoom (by decide) (by unfold Instant.HasRoom; decide) r _,
    channels_identified rfl r⟩

end Chore

end WebSub
