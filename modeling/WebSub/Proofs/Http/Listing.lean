import WebSub.Http.Endpoint
import WebSub.Proofs.Flow.Traced
import WebSub.Proofs.Store.Lapsing

/-!
# Lists over the network

A list is shown as of a time before the store chose its rows. A row that runs out in between is
chosen as expired and shown as active; every other row shows the status that was asked for.
-/

namespace WebSub

open Interleaving
open WebSub.Flow (Turn)

namespace Http

/-! ## What an answer shows -/

/-- The status that an item of a list carries. -/
def itemStatus? : Json → Option Json
  | .object members => members.lookup "status"
  | _ => none

theorem itemStatus?_subscriptionJson (now : Instant) (s : Subscription) :
    itemStatus? (subscriptionJson now s) = some (.str (s.effectiveStatus now).name) :=
  rfl

/-- The times that were read off the clock, in order. -/
def clock (turns : List Turn) : List Instant :=
  turns.filterMap fun x =>
    match x.exchange with
    | ⟨.now, t⟩ => some t
    | _ => none

theorem clock_append (turns rest : List Turn) :
    clock (turns ++ rest) = clock turns ++ clock rest :=
  List.filterMap_append

/-- The row runs out after the one time and before the other. -/
def RunsOutBetween (seen chosen : Instant) (r : Subscription) : Prop :=
  r.status = .active ∧ seen ≤ r.expiresAt ∧ r.expiresAt < chosen

/-- How a row that was chosen for its status is shown at the other time: under that status, or as
active if it was chosen as expired. -/
def ShowsAs (status : Status) (seen chosen : Instant) (r : Subscription) : Prop :=
  itemStatus? (subscriptionJson seen r) = some (.str status.name) ∨
    status = .expired ∧ RunsOutBetween seen chosen r ∧
      itemStatus? (subscriptionJson seen r) = some (.str Status.active.name)

end Http

namespace Subscription

theorem effectiveStatus_earlier {s : Subscription} {earlier now : Instant}
    (before : earlier ≤ now) :
    s.effectiveStatus earlier = s.effectiveStatus now ∨
      s.effectiveStatus now = .expired ∧ s.effectiveStatus earlier = .active ∧
        Http.RunsOutBetween earlier now s := by
  by_cases lapsed : s.isLapsed earlier = true
  · left
    rw [effectiveStatus, if_pos lapsed, effectiveStatus, if_pos (isLapsed_mono before lapsed)]
  by_cases since : s.isLapsed now = true
  · right
    obtain ⟨active, out⟩ : s.status = .active ∧ s.expiresAt < now := by
      simpa only [isLapsed, Bool.and_eq_true, beq_iff_eq, decide_eq_true_iff] using since
    have runs : earlier ≤ s.expiresAt := by
      refine Int.not_lt.mp fun out => lapsed ?_
      simp only [isLapsed, active, beq_self_eq_true, Bool.true_and, decide_eq_true_iff]
      exact out
    refine ⟨if_pos since, ?_, active, runs, out⟩
    rw [effectiveStatus, if_neg lapsed, active]
  · left
    rw [effectiveStatus, if_neg lapsed, effectiveStatus, if_neg since]

end Subscription

namespace Store.Subscriptions

theorem shown_of_page {s : Subscriptions} {status : Status} {limit offset : Nat} {now : Instant}
    {page : List Subscription}
    (answer : (s.answer (.list (some status) limit offset now)).1 = some (.ok page)) :
    ∀ r ∈ page, r.effectiveStatus now = status := by
  intro r hr
  rw [page_of_answer answer] at hr
  have listed := List.mem_of_mem_drop (List.mem_of_mem_take hr)
  exact shown_iff.mp (List.mem_filter.mp ((s.inOrder_perm _ now).subset listed)).2

end Store.Subscriptions

namespace Http

theorem ofName?_name (status : Status) : Status.ofName? status.name = some status := by
  cases status <;> decide

theorem showsAs_of_effectiveStatus {status : Status} {seen chosen : Instant}
    (before : seen ≤ chosen) {r : Subscription} (shown : r.effectiveStatus chosen = status) :
    ShowsAs status seen chosen r := by
  unfold ShowsAs
  rw [itemStatus?_subscriptionJson]
  rcases Subscription.effectiveStatus_earlier before with same | ⟨expired, active, out⟩
  · rw [same, shown]
    exact .inl rfl
  · rw [active]
    exact .inr ⟨shown.symm.trans expired, out, rfl⟩

theorem leads_page {status : Status} {limit offset : Nat} {past : List Turn} {seen : Instant}
    (read : clock past = [seen]) (w : Shared) :
    Flow.Leads .anything Shared.Answers
      (Service.page (some status) limit offset).run past w fun turns _ outcome =>
        ∀ page, outcome = some (.ok page) → ∃ chosen, clock turns = [seen, chosen] ∧
          ∀ r ∈ page, r.effectiveStatus chosen = status := by
  refine Flow.leads_amid fun w₁ w₂ chosen _ => Flow.leads_amid fun w₃ w₄ a answers => ?_
  have both (a) : clock (past ++ [⟨w₁, ⟨.now, chosen⟩, w₂⟩] ++
      [⟨w₃, ⟨.subscriptions (.list (some status) limit offset chosen), a⟩, w₄⟩]) =
        [seen, chosen] := by
    rw [clock_append, clock_append, read]
    rfl
  match a, answers with
  | none, _ => exact nofun
  | some (.error e), _ => exact nofun
  | some (.ok page), answers =>
    have found : (w₃.subscriptions.answer (.list (some status) limit offset chosen)).1 =
        some (.ok page) := by
      rcases answers with ⟨same, -⟩ | ⟨⟨e, failed⟩, -⟩
      · exact same.symm
      · cases failed
    rintro _ ⟨⟩
    exact ⟨chosen, both _, Store.Subscriptions.shown_of_page found⟩

theorem leads_list {request : ListRequest} {status : Status} {past : List Turn} {seen : Instant}
    (named : request.status = some status.name) (read : clock past = [seen]) (w : Shared) :
    Flow.Leads .anything Shared.Answers (Service.list request).run past w fun turns _ outcome =>
      ∀ page, outcome = some (.ok page) → ∃ chosen, clock turns = [seen, chosen] ∧
        ∀ r ∈ page, r.effectiveStatus chosen = status := by
  unfold Service.list Service.validate
  by_cases valid : request.violations.isEmpty = true
  · rw [if_pos valid, named]
    unfold Service.statusFilter
    simp only [ofName?_name]
    exact leads_page read w
  · rw [if_neg valid]
    exact nofun

theorem ofService_ne_ok (e : Service.Error) : Status.ofService e ≠ 200 := by
  cases e with
  | hub e => cases e <;> simp [Status.ofService, Status.ofHub]
  | persistence e => cases e <;> simp [Status.ofService, Status.ofStore]
  | _ => simp [Status.ofService]

/-- Whoever has a turn in between and whatever fails, a list that is answered shows its status, but
for rows that run out while it is made. -/
theorem list_shows {r : Request} {request : ListRequest} {status : Status}
    (asked : listRequest r.query = .ok request) (named : request.status = some status.name)
    (w : Shared) :
    (list r).Leads .anything Shared.Answers [] w fun turns _ outcome =>
      ∀ answer, outcome = some answer → answer.status = 200 →
        ∃ (seen chosen : Instant) (rows : List Subscription), clock turns = [seen, chosen] ∧
          answer = .json 200 (.array (rows.map (subscriptionJson seen))) ∧
          (seen ≤ chosen → ∀ row ∈ rows, ShowsAs status seen chosen row) := by
  unfold list
  rw [asked]
  refine Flow.leads_amid fun w₁ w₂ seen _ => ?_
  have read : clock ([] ++ [⟨w₁, ⟨.now, seen⟩, w₂⟩]) = [seen] := rfl
  refine (leads_list named read w₂).bind ?_ ?_
  · exact fun _ _ _ => nofun
  · intro turns w outcome shown
    cases outcome with
    | error e =>
      rintro _ ⟨⟩ ok
      exact absurd ok (ofService_ne_ok e)
    | ok page =>
      rintro _ ⟨⟩ -
      obtain ⟨chosen, times, rows⟩ := shown page rfl
      exact ⟨seen, chosen, page, times, rfl, fun before r hr =>
        showsAs_of_effectiveStatus before (rows r hr)⟩

/-- A request for the expired subscriptions. -/
def expiredRequest : Request := ⟨"GET", "/v1/subscriptions?status=expired", [], []⟩

/-- A store with a row that runs out in the first second. -/
def shortLease : Shared :=
  ⟨.memory ⟨[Store.Stores.dueRow 0 "a"]⟩, .memory {}, [], [], false, false⟩

theorem listRequest_expired :
    listRequest expiredRequest.query = .ok ⟨some Status.expired.name, none, none⟩ := rfl

/-- Asked for what has expired, the service may show an active row. -/
theorem active_listed_as_expired :
    ¬ ∀ (r : Request) (request : ListRequest) (status : Status),
      listRequest r.query = .ok request → request.status = some status.name → ∀ w : Shared,
        (list r).Leads .anything Shared.Answers [] w fun turns _ outcome =>
          ∀ seen chosen items, clock turns = [seen, chosen] → seen ≤ chosen →
            outcome = some (.json 200 (.array items)) →
              ∀ item ∈ items, itemStatus? item = some (.str status.name) := by
  intro always
  have course := always expiredRequest _ .expired listRequest_expired rfl shortLease
  have left : ∃ id, id ∉ shortLease.drawn := ⟨.drawn 0, List.not_mem_nil⟩
  let row := Store.Stores.dueRow 0 "a"
  let chosen : Instant := ⟨2 * Instant.nanosPerSecond⟩
  have reading : IsReading chosen := by constructor <;> decide
  have found : (shortLease.subscriptions.answer
      (.list (some .expired) ListRequest.defaultLimit ListRequest.defaultOffset chosen)).1 =
        some (.ok [row]) := by
    have sorted : ([row].mergeSort fun a b => decide (a.createdAt ≤ b.createdAt)) = [row] :=
      List.mergeSort_singleton row
    change some (Except.ok (((List.mergeSort [row] _).filter _).drop _ |>.take _)) = _
    rw [sorted]
    rfl
  have first := (course shortLease left).2 shortLease (⟨0⟩ : Instant) ⟨isReading_epoch, rfl⟩
  have second := (first shortLease left).2 shortLease chosen ⟨reading, rfl⟩
  have third := (second shortLease left).2 shortLease (some (.ok [row])) (.inl ⟨found.symm, rfl⟩)
  have shown := third ⟨0⟩ chosen [subscriptionJson ⟨0⟩ row] rfl (by decide) rfl _
    List.mem_cons_self
  have active : row.effectiveStatus ⟨0⟩ = .active := rfl
  rw [itemStatus?_subscriptionJson, active, Option.some_inj, Json.str.injEq] at shown
  exact absurd shown (by decide)

end Http

end WebSub
