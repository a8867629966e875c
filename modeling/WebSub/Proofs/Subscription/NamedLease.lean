import WebSub.Proofs.Http.Handshake
import WebSub.Proofs.Hub.Outcome
import WebSub.Proofs.Interleaving.Renamed
import WebSub.Proofs.Subscription.Lease
import WebSub.Proofs.Subscription.Subscribing
import WebSub.Proofs.Text.Decimal

/-!
# Leases that a hub names

A hub names a lease by a numeral, in the body with which it accepts a request or in the query of its
verification. A numeral of any length is read the same in both places, and decides the lease of the
row in the same way.
-/

namespace WebSub

open Interleaving
open Decimal (Spells)
open WebSub.Flow (Turn)
open Service (Confirmed Verification)
open Store.Subscriptions (ofPair)

/-- What the numeral of `n` makes of a lease. A positive number is cut to ten days. Any other one
leaves the lease alone, and so does one that a machine integer cannot hold. -/
def takenLease (n old : Int) : Int :=
  if 0 < n ∧ n ≤ 9223372036854775807 then min n 864000 else old

theorem granted_of_spells {text : List Char} {n : Int} (numeral : Spells text n) (old : Int) :
    Errand.granted old (Decimal.int64? text) = takenLease n old := by
  unfold takenLease
  rw [numeral.int64?]
  by_cases fits : Decimal.int64Min ≤ n ∧ n ≤ Decimal.int64Max
  · rw [if_pos fits]
    unfold Decimal.int64Max at fits
    simp only [Errand.granted, fits.2, and_true]
  · rw [if_neg fits, if_neg]
    · rfl
    · rintro ⟨positive, small⟩
      unfold Decimal.int64Min Decimal.int64Max at fits
      omega

/-! ## In the body of an answer -/

namespace Hub.Client

/-- The request is accepted in the end, and the first field for the lease in the body of the answer
has this text. -/
structure Accepts (max : Int) (net : Http.Network) (q : Request) (text : List Char)
    (answer : Hub.Result) : Prop where
  sent : answer = (send max net .subscribe q).result
  accepted : ∃ response, answer = .ok response
  field : ∃ a, Http.Answered net q.hubUrl (form .subscribe q) a ∧
    ∃ before after, Form.read (Utf8.encode (Blank.trim (a.text net.charsets))) =
        before ++ ("hub.lease_seconds", String.ofList text) :: after ∧
      ∀ field ∈ before, field.1 ≠ "hub.lease_seconds"

variable {max : Int} {net : Http.Network} {q : Request} {text : List Char} {answer : Hub.Result}

theorem negotiatedLease_of_field {body : List Char} {before after : List (String × String)}
    (fields : Form.read (Utf8.encode (Blank.trim body)) =
      before ++ ("hub.lease_seconds", String.ofList text) :: after)
    (first : ∀ field ∈ before, field.1 ≠ "hub.lease_seconds") :
    negotiatedLease body = Decimal.int64? text := by
  have found : (Form.read (Utf8.encode (Blank.trim body))).lookup "hub.lease_seconds" =
      some (String.ofList text) :=
    List.lookup_eq_some_iff.mpr ⟨before, after, fields,
      fun field mem => bne_iff_ne.mpr (first field mem).symm⟩
  rw [negotiatedLease, found, Option.bind_some, String.toList_ofList]

theorem Accepts.lease (h : Accepts max net q text answer) :
    ∃ response, answer = .ok response ∧ response.leaseSeconds = Decimal.int64? text := by
  obtain ⟨response, accepted⟩ := h.accepted
  obtain ⟨a, answered, before, after, fields, first⟩ := h.field
  have result := h.sent.symm.trans accepted
  have inside : InRange max q := by
    by_contra outside
    rw [send_of_not_inRange outside] at result
    cases result
  obtain ⟨a', answered', -, -, -, named⟩ :=
    ((told_of_inRange inside).1.accepted response).mp result
  obtain rfl := answered.unique answered'
  refine ⟨response, accepted, ?_⟩
  rw [← negotiatedLease_of_field fields first]
  exact Option.ext fun lease => (named lease).trans negotiatedLease_eq_some_iff.symm

theorem exists_accepts : ∃ net, Accepts 60 net ⟨"https://hub.example/", "t", "c", 60, none⟩
    "864001".toList (.ok ⟨true, 202, some 864001⟩) := by
  let a : Http.Answer := ⟨202, [], Utf8.encode "hub.lease_seconds=864001".toList, none⟩
  let net : Http.Network := ⟨fun _ _ => some (.answer a), fun _ => none⟩
  let q : Request := ⟨"https://hub.example/", "t", "c", 60, none⟩
  have result : (send 60 net .subscribe q).result = .ok ⟨true, 202, some 864001⟩ := by
    decide +kernel
  have body : a.text net.charsets = "hub.lease_seconds=864001".toList := by decide +kernel
  have answered : Http.Answered net q.hubUrl (form .subscribe q) a :=
    ⟨⟨"https", "", none, some (.name "hub.example"), none, .steps [""], none, none⟩,
      by decide +kernel, by decide +kernel, 0, Nat.zero_le 10, _, .here 0 _, rfl, rfl⟩
  refine ⟨net, result.symm, ⟨_, rfl⟩, a, answered, [], [], ?_, by simp⟩
  rw [body]
  decide +kernel

end Hub.Client

/-! ## In the query of a verification -/

namespace Http

/-- A subscribe verification of a topic, with a challenge and a lease of this text. No parameter of
a verification is given twice. -/
structure Verifies (query : List (String × String)) (topic : String) (text : List Char) : Prop where
  once : ∀ name ∈ ["hub.mode", "hub.topic", "hub.challenge", "hub.lease_seconds", "hub.reason"],
    query.countP (·.1 == name) ≤ 1
  mode : ("hub.mode", "subscribe") ∈ query
  topic : ("hub.topic", topic) ∈ query
  challenge : ∃ c, c ≠ "" ∧ ("hub.challenge", c) ∈ query
  lease : ("hub.lease_seconds", String.ofList text) ∈ query

variable {query : List (String × String)} {name value topic : String} {text : List Char}

theorem single_of_once (once : query.countP (·.1 == name) ≤ 1) :
    single query name = .ok ((query.filter (·.1 == name)).head?.map (·.2)) := by
  rw [List.countP_eq_length_filter] at once
  unfold single
  generalize query.filter (·.1 == name) = found at once ⊢
  rcases found with _ | ⟨x, _ | ⟨y, rest⟩⟩
  · rfl
  · rfl
  · simp at once

theorem single_of_mem (mem : (name, value) ∈ query) (once : query.countP (·.1 == name) ≤ 1) :
    single query name = .ok (some value) := by
  have found : (name, value) ∈ query.filter (·.1 == name) :=
    List.mem_filter.mpr ⟨mem, beq_self_eq_true name⟩
  rw [single_of_once once]
  rw [List.countP_eq_length_filter] at once
  obtain ⟨x, only⟩ := List.length_eq_one_iff.mp
    (Nat.le_antisymm once (List.length_pos_of_mem found))
  rw [only, List.mem_singleton] at found
  rw [only, ← found]
  rfl

theorem Verifies.handshake (h : Verifies query topic text) : ∃ c reason, c ≠ "" ∧
    Handshake.ofQuery query =
      .ok ⟨some "subscribe", some topic, some c, some (String.ofList text), reason⟩ := by
  obtain ⟨c, challenge, sent⟩ := h.challenge
  refine ⟨c, (query.filter (·.1 == "hub.reason")).head?.map (·.2), challenge, ?_⟩
  rw [Handshake.ofQuery, single_of_mem h.mode (h.once _ (by simp)),
    single_of_mem h.topic (h.once _ (by simp)), single_of_mem sent (h.once _ (by simp)),
    single_of_mem h.lease (h.once _ (by simp)), single_of_once (h.once "hub.reason" (by simp))]
  rfl

end Http

/-! ## After an operation -/

namespace Errand

/-- An answer of the hub to a request for a subscription. -/
inductive Replies : Exchange → Hub.Request → Hub.Result → Prop
  | waited (q : Hub.Request) (answer : Hub.Result) : Replies ⟨.hub .subscribe q, answer⟩ q answer
  | unlessStopped (q : Hub.Request) (answer : Hub.Result) :
      Replies ⟨.hubUnlessStopped q, some answer⟩ q answer

/-- The hub was asked once, for a lease of `asked`. If it accepts and names a lease by this text,
the row has what the number makes of the lease that was asked for. -/
def Adopts (text : List Char) (n asked : Int) (turns : List Turn) (y : Subscription) : Prop :=
  ∃ called q answer, turns.filter (·.isCall) = [called] ∧ Replies called.exchange q answer ∧
    q.leaseSeconds = asked ∧
    ∀ max net, Hub.Client.Accepts max net q text answer → y.leaseSeconds = takenLease n asked

/-- A row is verified at `t`, and its lease is what the number makes of it. -/
def Named (n : Int) (t : Instant) (r r' : Subscription) : Prop :=
  r' = { r with leaseSeconds := takenLease n r.leaseSeconds, expiresAt := r'.expiresAt,
                lastVerifiedAt := some t, updatedAt := t }

/-- What a numeral of `n` in this text comes to in each operation that the hub may answer with it,
and in a verification. -/
structure TakesNumeral (w : Shared) (text : List Char) (n : Int) : Prop where
  subscribed : ∀ access q, Permits access q → (∃ id, id ∉ w.drawn) →
    Flow.Leads .nothing Reliable (Service.subscribe access.defaults q).run [] w
      fun turns w' outcome => outcome ≠ none ∧ ∃ y,
        w'.subscriptions.rows.filter (ofPair q.channelId access.callbackUrl) = [y] ∧
          Adopts text n (lease access.defaults q) turns y
  renewed : ∀ r ∈ w.subscriptions.rows,
    Flow.Leads .nothing Reliable (Service.renew r.id).run [] w fun turns w' outcome =>
      outcome ≠ none ∧ ∃ y, w'.subscriptions.get? r.id = some y ∧
        Adopts text n r.leaseSeconds turns y
  swept : w.stopped = false → ∀ r ∈ w.subscriptions.rows,
    Flow.Leads .nothing Reliable (Sweep.renewOne r) [] w fun turns w' outcome =>
      outcome ≠ none ∧ ∃ y, w'.subscriptions.get? r.id = some y ∧
        Adopts text n r.leaseSeconds turns y
  verified : ∀ channelId (q : Http.Request) t, IsReading t → t.HasRoom →
    Http.Verifies q.query (topicUrl channelId) text →
    Flow.Ensures (Undisturbed t) (Http.verify q) w fun w' _ =>
      List.Forall₂ (fun r r' => if r.channelId = channelId then Named n t r r' else r' = r)
        w.subscriptions.rows w'.subscriptions.rows

variable {w w' : Shared} {s old y : Subscription} {text : List Char} {n : Int}
  {past turns : List Turn} {answer : Hub.Result} {t : Instant}

/-! ### Asking the hub -/

theorem adopts_of_settled (numeral : Spells text n) (change : s.settled answer t = .ok y)
    {called : Turn} (once : turns.filter (·.isCall) = [called])
    (heard : Replies called.exchange s.hubRequest answer) :
    Adopts text n s.leaseSeconds turns y := by
  refine ⟨called, s.hubRequest, answer, once, heard, rfl, fun max net accepts => ?_⟩
  obtain ⟨response, rfl, named⟩ := accepts.lease
  rw [markActive_granted change, named]
  exact granted_of_spells numeral s.leaseSeconds

theorem Handshaken.adopts (h : Handshaken s w w' past turns answer t y)
    (silent : ∀ x ∈ past, x.isCall = false) (numeral : Spells text n) :
    Adopts text n s.leaseSeconds turns y := by
  have before : past.filter (·.isCall) = [] := by
    rw [List.filter_eq_nil_iff]
    intro x hx
    rw [silent x hx]
    exact Bool.false_ne_true
  have once : turns.filter (·.isCall) = [⟨w, ⟨.hub .subscribe s.hubRequest, answer⟩, w⟩] := by
    rw [h.turns, List.filter_append, before]
    rfl
  exact adopts_of_settled numeral h.change once (.waited s.hubRequest answer)

theorem get?_of_update (tidy : Tidy w) (stored : old ∈ w.subscriptions.rows)
    (same : y.origin = old.origin) :
    (w.subscriptions.answer (.update y)).2.get? old.id = some y := by
  obtain ⟨-, row, -⟩ := Store.Subscriptions.rows_of_update tidy.ids tidy.pairs stored
    (Store.Subscriptions.ofPair_iff.mpr ⟨rfl, rfl⟩) same
  have there : y ∈ (w.subscriptions.answer (.update y)).2.rows :=
    List.mem_of_mem_filter (row ▸ List.mem_singleton_self y)
  rw [← Subscription.id_of_origin same]
  exact (tidy.ids.answer _).get? there

theorem leads_subscribe_named (tidy : Tidy w) (left : ∃ id, id ∉ w.drawn)
    {access : Settings.HubAccess} {q : CreateRequest} (permits : Permits access q)
    (numeral : Spells text n) :
    Flow.Leads .nothing Reliable (Service.subscribe access.defaults q).run [] w
      fun turns w' outcome => outcome ≠ none ∧ ∃ y,
        w'.subscriptions.rows.filter (ofPair q.channelId access.callbackUrl) = [y] ∧
          Adopts text n (lease access.defaults q) turns y := by
  have range : IsLease (lease access.defaults q) :=
    ⟨permits.2.1, Int.le_trans permits.2.2 (Int.min_le_right _ _)⟩
  rw [subscribe_of_permits permits]
  refine (leads_prepare tidy left q.channelId range).run_bind ?_ ?_ ?_
  · rintro past w₁ ⟨old, x, ⟨⟩, -⟩
  · rintro past w₁ e ⟨old, x, ⟨⟩, -⟩
  · rintro past w₁ x ⟨old, _, ⟨⟩, prepared⟩
    have copied : x.origin = old.origin := by rw [prepared.copy]; rfl
    have asked : x.leaseSeconds = lease access.defaults q := by rw [prepared.copy]
    refine (leads_handshake prepared.tidy prepared.stored copied (asked ▸ range)).weaken ?_
    rintro turns w' _ ⟨answer, t, y, shaken, rfl⟩
    refine ⟨Option.some_ne_none _, y, (established_of_shaken prepared shaken).row, ?_⟩
    rw [← asked]
    exact shaken.adopts prepared.silent numeral

theorem leads_renew_named (tidy : Tidy w) (stored : old ∈ w.subscriptions.rows)
    (range : IsLease old.leaseSeconds) (numeral : Spells text n) :
    Flow.Leads .nothing Reliable (Service.renew old.id).run [] w fun turns w' outcome =>
      outcome ≠ none ∧ ∃ y, w'.subscriptions.get? old.id = some y ∧
        Adopts text n old.leaseSeconds turns y := by
  refine Reliable.leads_read trivial ?_
  rw [w.subscriptions.answer_find, tidy.ids.get? stored]
  refine (leads_handshake tidy stored rfl range).weaken ?_
  rintro turns w' _ ⟨answer, t, y, shaken, rfl⟩
  refine ⟨Option.some_ne_none _, y, ?_, shaken.adopts ?_ numeral⟩
  · rw [shaken.after]
    exact get?_of_update tidy stored (Subscription.settled_origin shaken.change)
  · intro x hx
    rw [List.mem_singleton.mp hx]
    rfl

theorem leads_renewOne_named (tidy : Tidy w) (running : w.stopped = false)
    (stored : old ∈ w.subscriptions.rows) (range : IsLease old.leaseSeconds)
    (numeral : Spells text n) :
    Flow.Leads .nothing Reliable (Sweep.renewOne old) [] w fun turns w' outcome =>
      outcome ≠ none ∧ ∃ y, w'.subscriptions.get? old.id = some y ∧
        Adopts text n old.leaseSeconds turns y := by
  refine Reliable.leads_stopped ?_
  rw [running]
  refine Reliable.leads_hubUnlessStopped running fun answer => ?_
  refine leads_applied tidy stored rfl range answer fun t y change => ?_
  have written := get?_of_update tidy stored (Subscription.settled_origin change)
  have adopts : ∀ turns : List Turn,
      turns.filter (·.isCall) = [⟨w, ⟨.hubUnlessStopped old.hubRequest, some answer⟩, w⟩] →
      Adopts text n old.leaseSeconds turns y :=
    fun turns once => adopts_of_settled numeral change once (.unlessStopped old.hubRequest answer)
  cases answer with
  | ok response => exact ⟨Option.some_ne_none _, y, written, adopts _ rfl⟩
  | error e => exact ⟨Option.some_ne_none _, y, written, adopts _ rfl⟩

/-! ### Called by the hub -/

theorem named_of_touches {topic : String} {r r' : Subscription} (numeral : Spells text n)
    (touches : (Verification.subscribe topic (Decimal.int64? text)).Touches t r r') :
    Named n t r r' := by
  obtain ⟨same, named⟩ := touches
  have lease : r'.leaseSeconds = granted r.leaseSeconds (Decimal.int64? text) := by
    cases value : Decimal.int64? text with
    | none =>
      rw [value] at named
      exact named.1
    | some l =>
      rw [value] at named
      simp only at named
      by_cases positive : 0 < l
      · rw [if_pos positive] at named
        rw [granted, if_pos positive]
        exact named.1
      · rw [if_neg positive] at named
        rw [granted, if_neg positive]
        exact named.1
  rw [Named, ← granted_of_spells numeral, ← lease]
  exact same

theorem ensures_verify_named (tidy : Tidy w) (numeral : Spells text n) (channelId : String)
    (q : Http.Request) (reading : IsReading t) (room : t.HasRoom)
    (verifies : Http.Verifies q.query (topicUrl channelId) text) :
    Flow.Ensures (Undisturbed t) (Http.verify q) w fun w' _ =>
      List.Forall₂ (fun r r' => if r.channelId = channelId then Named n t r r' else r' = r)
        w.subscriptions.rows w'.subscriptions.rows := by
  obtain ⟨c, reason, challenge, handshake⟩ := verifies.handshake
  let v : Verification := .subscribe (topicUrl channelId) (Decimal.int64? text)
  have confirmed : Flow.Ensures (Undisturbed t) (Service.confirm v).run w
      (Confirmed t v channelId w) :=
    Service.ensures_confirm (fun r _ _ => v.fits_of_hasRoom reading.1 room r) tidy.ids tidy.topics
      rfl
  let h : Http.Handshake :=
    ⟨some "subscribe", some (topicUrl channelId), some c, some (String.ofList text), reason⟩
  have challenged : h.challenge? = some c := by
    rw [Http.Handshake.challenge?, Option.filter_some, if_pos (bne_iff_ne.mpr challenge)]
  have recorded : h.verification? = some v := by
    show some (Verification.subscribe _ (Decimal.int64? (String.ofList text).toList)) = _
    rw [String.toList_ofList]
  rw [Http.verify, handshake]
  show Flow.Ensures _ h.acknowledge _ _
  rw [Http.Handshake.acknowledge, challenged, recorded]
  refine confirmed.bind fun w' _ done => done.rows.imp fun r r' touched => ?_
  split
  case isTrue its =>
    rw [if_pos its] at touched
    exact named_of_touches numeral touched
  case isFalse other =>
    rw [if_neg other] at touched
    exact touched

/-! ## The whole -/

theorem tidy_of_errands {ms : List (Move Errand)} {s : System Errand Result}
    (blank : w.subscriptions.rows = []) (run : Run flow (.start w) ms s) : Tidy s.shared := by
  have chores : Run Chore.flow (.start w) (ms.map (·.renamed .errand))
      (s.renamed .errand .errand) := run.renamed fun _ => rfl
  exact tidy_of_run blank chores

/-- From every store that can be reached, whatever the numeral: in a body and in a query, and in
each operation that reads one, it makes the same of the lease. -/
theorem leases_named {ms : List (Move Errand)} {s : System Errand Result}
    (blank : w.subscriptions.rows = []) (run : Run flow (.start w) ms s)
    (configured : ∀ m ∈ ms, m.operation.IsConfigured) (numeral : Spells text n) :
    TakesNumeral s.shared text n := by
  have tidy := tidy_of_errands blank run
  have leases : ∀ r ∈ s.shared.subscriptions.rows, IsLease r.leaseSeconds :=
    fun r hr => ((kept blank run configured).rows r hr).lease
  refine ⟨?subscribed, ?renewed, ?swept, ?verified⟩
  case subscribed =>
    intro access q permits left
    exact leads_subscribe_named tidy left permits numeral
  case renewed =>
    intro r stored
    exact leads_renew_named tidy stored (leases r stored) numeral
  case swept =>
    intro running r stored
    exact leads_renewOne_named tidy running stored (leases r stored) numeral
  case verified =>
    intro channelId q t reading room verifies
    exact ensures_verify_named tidy numeral channelId q reading room verifies

/-- One second more than ten days, named for the row of the first subscription of all. -/
theorem leases_named_second :
    ∃ ms s, Shared.empty.subscriptions.rows = [] ∧ Run flow (.start .empty) ms s ∧
      (∀ m ∈ ms, m.operation.IsConfigured) ∧
      s.shared.subscriptions.rows = [plainRow .active none] ∧
      Spells "864001".toList 864001 ∧ takenLease 864001 60 = 864000 ∧
      (∃ net, Hub.Client.Accepts 60 net ⟨"https://hub.example/", "t", "c", 60, none⟩
        "864001".toList (.ok ⟨true, 202, some 864001⟩)) ∧
      TakesNumeral s.shared "864001".toList 864001 := by
  obtain ⟨ms, s, r, operations, -, rows⟩ := run_plain
  have configured := isConfigured_of_operations plain_isConfigured operations
  have numeral : Spells "864001".toList 864001 := .unsigned 0 864001
  exact ⟨ms, s, rfl, r, configured, rows, numeral, by decide, Hub.Client.exists_accepts,
    leases_named rfl r configured numeral⟩

theorem exists_oversized : ∃ q : Http.Request,
    Http.Verifies q.query (topicUrl "a") "9223372036854775808".toList := by
  let q : Http.Request := ⟨"GET", "/hook?hub.mode=subscribe&hub.challenge=c&" ++
    "hub.lease_seconds=9223372036854775808&hub.topic=" ++
    "https://www.youtube.com/xml/feeds/videos.xml?channel_id=a", [], []⟩
  have query : q.query = [("hub.mode", "subscribe"), ("hub.challenge", "c"),
      ("hub.lease_seconds", "9223372036854775808"), ("hub.topic", topicUrl "a")] := by
    decide +kernel
  refine ⟨q, ?_⟩
  rw [query]
  exact ⟨by decide, by simp, by simp, ⟨"c", by decide, by simp⟩, by simp⟩

/-- A lease of a minute stays a minute, for such a number. -/
theorem oversized_lease_ignored :
    ¬ ∀ (ms : List (Move Errand)) (s : System Errand Result) (t : Instant) (q : Http.Request)
      (text : List Char) (n : Int), Run flow (.start .empty) ms s → IsReading t → t.HasRoom →
      Spells text n → 0 < n → Http.Verifies q.query (topicUrl "a") text →
      Flow.Ensures (Undisturbed t) (Http.verify q) s.shared fun w' _ =>
        ∀ r ∈ w'.subscriptions.rows, r.channelId = "a" → r.leaseSeconds = min n 864000 := by
  intro capped
  obtain ⟨ms, s, r, -, -, rows⟩ := run_plain
  have numeral : Spells "9223372036854775808".toList 9223372036854775808 :=
    .unsigned 0 9223372036854775808
  have room : (⟨0⟩ : Instant).HasRoom := by
    unfold Instant.HasRoom
    decide
  obtain ⟨q, verifies⟩ := exists_oversized
  have verified := ensures_verify_named (tidy_of_errands rfl r) numeral "a" q isReading_epoch room
    verifies
  have cut := capped ms s ⟨0⟩ q _ _ r isReading_epoch room numeral (by decide) verifies
  obtain ⟨w', -, kept, leases⟩ := verified.exists_both cut
  rw [rows] at kept
  obtain ⟨y, rest, same, -, rows'⟩ := List.forall₂_cons_left_iff.mp kept
  have named : y = _ := same
  have lease := leases y (by rw [rows']; exact List.mem_cons_self)
  rw [named] at lease
  have minute : takenLease 9223372036854775808 60 = min 9223372036854775808 864000 := lease rfl
  exact absurd minute (by decide)

end Errand

end WebSub
