import WebSub.Proofs.Interleaving.Turns
import WebSub.Proofs.Subscription.Copies
import WebSub.Proofs.Subscription.Identity

/-!
# Fresh copies

With chores one after another, every write goes over the very row that its chore was handed, and
sets an instant of change that was read after that row was changed last.
-/

namespace WebSub

open Interleaving
open Service (Verification)

/-! ## One change of a row -/

/-- The hub has answered to a request for the subscription of a row. -/
def Answered (own : List Exchange) (r : Subscription) (result : Hub.Result) : Prop :=
  ∃ q : Hub.Request,
    (⟨.hub .subscribe q, result⟩ ∈ own ∨ ⟨.hubUnlessStopped q, some result⟩ ∈ own) ∧
      q.hubUrl = r.hubUrl ∧ q.topicUrl = r.topicUrl ∧ q.callbackUrl = r.callbackUrl

/-- What a row becomes by the write over it: by an answer of the hub to a request that may name
another lease and secret, or by a callback. -/
inductive Becomes (own : List Exchange) (now : Instant) (r y : Subscription) : Prop
  | answer {asked : Subscription} {lease : Int} {secret : Option String} {result : Hub.Result}
      (answered : Answered own r result)
      (edited : asked = { r with leaseSeconds := lease, secret := secret })
      (change : asked.settled result now = .ok y)
  | callback {v : Verification} (change : v.change? now r = some (.ok y))

namespace Becomes

variable {own : List Exchange} {now : Instant} {r y : Subscription}

theorem status (h : Becomes own now r y) :
    y.status = r.status ∨ y.status = .active ∨ y.status = .failed := by
  cases h with
  | @answer asked lease secret result answered edited change =>
    rw [Subscription.settled_eq change]
    cases result with
    | ok response => exact Or.inr (Or.inl rfl)
    | error e => exact Or.inr (Or.inr rfl)
  | @callback v change =>
    cases v with
    | unsubscribe topicUrl => cases change
    | denied topicUrl reason =>
      cases change
      rw [Subscription.markFailed_eq]
      exact Or.inr (Or.inr rfl)
    | subscribe topicUrl lease =>
      rw [Subscription.recordVerification_eq (Option.some.inj change)]
      exact Or.inl rfl

theorem accepted (h : Becomes own now r y) (idle : r.status ≠ .active)
    (moved : y.status = .active ∨ y.expiresAt ≠ r.expiresAt) :
    ∃ response, Answered own r (.ok response) := by
  cases h with
  | @answer asked lease secret result answered edited change =>
    cases result with
    | ok response => exact ⟨response, answered⟩
    | error e =>
      cases change
      rw [Subscription.markFailed_eq, edited] at moved
      simp at moved
  | @callback v change =>
    cases v with
    | unsubscribe topicUrl => cases change
    | denied topicUrl reason =>
      cases change
      rw [Subscription.markFailed_eq] at moved
      simp at moved
    | subscribe topicUrl lease =>
      obtain ⟨-, -, status, kept⟩ := Subscription.recordVerification_ok (Option.some.inj change)
      rw [if_neg idle] at kept
      rcases moved with active | moved
      · rw [status] at active
        exact absurd active idle
      · rcases kept with ⟨-, same⟩ | ⟨-, same⟩
        · exact absurd same moved
        · exact absurd same moved

theorem updatedAt (h : Becomes own now r y) : y.updatedAt = now := by
  cases h with
  | answer answered edited change => rw [Subscription.settled_eq change]
  | @callback v change =>
    cases v with
    | unsubscribe topicUrl => cases change
    | denied topicUrl reason =>
      cases change
      rw [Subscription.markFailed_eq]
    | subscribe topicUrl lease =>
      rw [Subscription.recordVerification_eq (Option.some.inj change)]

end Becomes

/-! ## Instants of change -/

/-- The instant of change that a call leaves in what it writes. -/
def Store.SubscriptionCall.stamp? : Store.SubscriptionCall → Option Instant
  | .create y | .update y => some y.updatedAt
  | .markLapsed t => some t
  | _ => none

theorem Store.Subscriptions.mem_or_stamped {s : Store.Subscriptions}
    {c : Store.SubscriptionCall} {r : Subscription} (hr : r ∈ (s.answer c).2.rows) :
    r ∈ s.rows ∨ c.stamp? = some r.updatedAt := by
  rcases Store.Subscriptions.mem_answer s c hr with
    old | rfl | ⟨y, old, hold, rfl, -, rfl⟩ | ⟨t, old, hold, rfl, rfl⟩
  · exact Or.inl old
  · exact Or.inr rfl
  · obtain ⟨-, -, -, -, -, updatedAt⟩ := s.written_columns (y := y) (r := old)
    rw [updatedAt]
    exact Or.inr rfl
  · rw [Subscription.markExpired_eq]
    split
    · exact Or.inr rfl
    · exact Or.inl hold

namespace Errand

variable {e : Errand} {own : List Exchange} {y : Subscription}

theorem Drafts.stamped (h : e.Drafts own y) : ⟨.now, y.updatedAt⟩ ∈ own := by
  cases h with
  | draft admitted new =>
    obtain ⟨u, -, rfl⟩ := Option.map_eq_some_iff.mp new
    simp

theorem Writes.stamped (h : e.Writes own y) : ⟨.now, y.updatedAt⟩ ∈ own := by
  cases h with
  | @handshake e own r y result now heard change =>
    obtain ⟨before, -, rfl⟩ := heard
    rw [Subscription.settled_eq change]
    simp
  | @verification v own now done todo r y confirms change =>
    have becomes : Becomes own now r y := .callback change
    obtain ⟨writes, rfl, -⟩ := confirms
    rw [becomes.updatedAt]
    simp

end Errand

namespace Chore

variable {w : Shared} {ms : List (Move Chore)} {s : System Chore Result} {m m' m'' : Move Chore}
  {e : Errand} {r r' y : Subscription} {rows rows' : List Subscription}
  {c : Store.SubscriptionCall} {now t : Instant} {id : Uuid} {j k p n q : Nat}

theorem Calls.stamped (h : Calls ms m c) (stamp : c.stamp? = some t) :
    ⟨.now, t⟩ ∈ past m.actor ms := by
  cases h with
  | errand alone operation asked timely =>
    cases c with
    | create y =>
      cases stamp
      exact Errand.Drafts.stamped asked
    | update y =>
      cases stamp
      exact Errand.Writes.stamped asked
    | markLapsed u =>
      cases stamp
      obtain ⟨before, path, -⟩ := timely
      rw [path]
      exact List.mem_concat_self
    | _ => cases stamp
  | lapse alone operation marks reading =>
    subst marks
    cases stamp
    rw [reading]
    exact List.mem_singleton.mpr rfl
  | renewal renews asked =>
    cases c with
    | update y =>
      cases stamp
      obtain ⟨result, now, heard, change⟩ := asked
      rw [heard, Subscription.settled_eq change]
      simp
    | create y => exact asked.elim
    | markLapsed u => exact asked.elim
    | _ => cases stamp

theorem dated (blank : w.subscriptions.rows = []) (run : Run flow (.start w) ms s) :
    ∀ r ∈ s.shared.subscriptions.rows, ∃ k, ReadAt ms k r.updatedAt := by
  induction run with
  | start =>
    show ∀ r ∈ w.subscriptions.rows, _
    rw [blank]
    exact List.forall_mem_nil _
  | quiet run h ih =>
    obtain ⟨b, same⟩ := h.shared_of_quiet
    rw [same]
    exact ih
  | @move ms m s s' run h ih =>
    obtain ⟨before, after, allowed⟩ := h.allowed
    have conforms := ((orderly run).move h).moves ms m [] rfl
    rw [← before] at ih
    rw [← after]
    intro r hr
    have later : r ∈ m.before.subscriptions.rows → ∃ k, ReadAt (ms ++ [m]) k r.updatedAt := by
      intro old
      obtain ⟨k, read⟩ := ih r old
      exact ⟨k, read.append [m]⟩
    rcases allowed.subscriptions with same | ⟨c, deed, called⟩
    · rw [same] at hr
      exact later hr
    · rw [called] at hr
      rcases Store.Subscriptions.mem_or_stamped hr with old | stamp
      · exact later old
      · obtain ⟨k, read⟩ := readAt_of_mem_past
          ((calls conforms (by rw [deed]; rfl)).stamped stamp)
        exact ⟨k, read.append [m]⟩

theorem dated_before (blank : w.subscriptions.rows = []) (run : Run flow (.start w) ms s)
    (hr : r ∈ (storeAt ms s.shared k).rows) : ∃ j < k, ReadAt ms j r.updatedAt := by
  obtain ⟨s', first, here⟩ := run_take run k
  rw [here] at hr
  obtain ⟨j, m, at_j, deed⟩ := dated blank first r hr
  rw [List.getElem?_take] at at_j
  split at at_j
  case isTrue before => exact ⟨j, before, m, at_j, deed⟩
  case isFalse => cases at_j

/-! ## Nobody interferes -/

theorem actor_eq {a b : Actor} (thread : a.thread = b.thread) (renewal : a.renewal = b.renewal) :
    a = b := by
  cases a
  cases b
  simp only at thread renewal
  rw [thread, renewal]

theorem looked_once {before before' : Instant} {limit limit' : Nat}
    (run : Run flow (.start w) ms s) (at_j : ms[j]? = some m) (at_k : ms[k]? = some m')
    (actor : m.actor = m'.actor)
    (deed : m.deed = .answered ⟨.subscriptions (.findExpiring before limit), some (.ok rows)⟩)
    (deed' : m'.deed =
      .answered ⟨.subscriptions (.findExpiring before' limit'), some (.ok rows')⟩) :
    ¬ j < k := by
  intro order
  cases calls ((orderly run).conforms_at at_k) (by rw [deed']; rfl) with
  | errand alone operation asked timely =>
    rw [← actor] at timely
    exact timely _ (mem_past_take at_j order deed) _ _ rfl
  | lapse alone operation marks reading => cases marks
  | renewal renews asked => exact asked.elim

theorem found_once {a : Actor} {before before' : Instant} {limit limit' : Nat}
    (run : Run flow (.start w) ms s)
    (found : ⟨.subscriptions (.findExpiring before limit), some (.ok rows)⟩ ∈ past a (ms.take p))
    (found' : ⟨.subscriptions (.findExpiring before' limit'), some (.ok rows')⟩ ∈
      past a (ms.take q)) :
    rows = rows' ∧ ∃ k m, k < p ∧ k < q ∧ ms[k]? = some m ∧ m.actor = a ∧
      m.deed = .answered ⟨.subscriptions (.findExpiring before limit), some (.ok rows)⟩ := by
  obtain ⟨k, m, kp, at_k, rfl, deed⟩ := position_of_mem_past found
  obtain ⟨k', m', kq, at_k', actor, deed'⟩ := position_of_mem_past found'
  have first := looked_once run at_k at_k' actor.symm deed deed'
  have second := looked_once run at_k' at_k actor deed' deed
  obtain rfl : k = k' := by omega
  rw [at_k, Option.some.injEq] at at_k'
  subst at_k'
  rw [deed] at deed'
  cases deed'
  exact ⟨rfl, k, m, kp, kq, at_k, rfl, deed⟩

theorem untouched_by_errand (turn : InTurn ms) (ids : w.subscriptions.UniqueIds)
    (run : Run flow (.start w) ms s) (at_q : ms[q]? = some m) (alone : m.actor.renewal = none)
    (operation : m.operation = .errand e) (writes : e.Writes (past m.actor (ms.take q)) y)
    (at_p : ms[p]? = some m') (thread : m'.actor.thread = m.actor.thread) :
    ∀ n m'' c b, p ≤ n → n < q → ms[n]? = some m'' → m''.deed = .answered ⟨.subscriptions c, b⟩ →
      ¬ Store.Subscriptions.Touches y.id c := by
  intro n m'' c b pn nq at_n deed touches
  have same := turn.between at_p at_n at_q pn (Nat.le_of_lt nq) thread
  have operation' := (orderly run).same_operation (List.mem_of_getElem? at_n)
    (List.mem_of_getElem? at_q) same
  have unwritten : Errand.Unwritten y.id (past m.actor (ms.take q)) := by
    refine writes.unwritten ?_
    intro topicUrl rows found
    obtain ⟨store, unique, answer⟩ := answered_of_past ids run found
    exact unique.findByTopic answer
  rw [operation] at operation'
  cases calls ((orderly run).conforms_at at_n) (by rw [deed]; rfl) with
  | lapse alone' lapses marks reading =>
    rw [operation'] at lapses
    cases lapses
  | renewal renews asked =>
    obtain ⟨settings, sweeps⟩ := renews.operation
    rw [operation', Chore.errand.injEq] at sweeps
    exact writes.operation.1 settings sweeps
  | errand alone' errand' asked timely =>
    rw [operation', Chore.errand.injEq] at errand'
    subst errand'
    cases c with
    | update y' =>
      have written := mem_past_take at_n nq deed
      rw [actor_eq same (alone'.trans alone.symm)] at written
      exact unwritten y' b touches written
    | delete i => exact writes.operation.2 i asked
    | markLapsed t =>
      obtain ⟨settings, sweeps⟩ := asked
      exact writes.operation.1 settings sweeps
    | _ => exact touches

/-- The renewals of a sweep are about different rows, and no lapse is marked meanwhile. -/
theorem untouched_by_renewal (turn : InTurn ms) (ids : w.subscriptions.UniqueIds)
    (run : Run flow (.start w) ms s) (at_q : ms[q]? = some m)
    (renews : Renews (ms.take q) m k rows r)
    (unwritten : Errand.Unwritten r.id (past m.actor (ms.take q)))
    (at_p : ms[p]? = some m') (thread : m'.actor.thread = m.actor.thread) :
    ∀ n m'' c b, p ≤ n → n < q → ms[n]? = some m'' → m''.deed = .answered ⟨.subscriptions c, b⟩ →
      ¬ Store.Subscriptions.Touches r.id c := by
  intro n m'' c b pn nq at_n deed touches
  have same := turn.between at_p at_n at_q pn (Nat.le_of_lt nq) thread
  have operation' := (orderly run).same_operation (List.mem_of_getElem? at_n)
    (List.mem_of_getElem? at_q) same
  obtain ⟨settings, sweeps⟩ := renews.operation
  rw [sweeps] at operation'
  cases calls ((orderly run).conforms_at at_n) (by rw [deed]; rfl) with
  | lapse alone' lapses marks reading =>
    rw [operation'] at lapses
    cases lapses
  | errand alone' errand' asked timely =>
    rw [operation', Chore.errand.injEq] at errand'
    subst errand'
    cases c with
    | update y' => exact (Errand.Writes.operation asked).1 settings rfl
    | delete i => cases asked
    | markLapsed t =>
      obtain ⟨before, path, joined⟩ := timely
      apply joined
      intro x hx
      have here : x ∈ past m''.actor (ms.take n) := by
        rw [path]
        exact List.mem_append_left _ hx
      rw [actor_eq (b := ⟨m.actor.thread, none⟩) same alone'] at here
      exact renews.unjoined x (past_take_mono _ (Nat.le_of_lt nq) here)
    | _ => exact touches
  | @renewal k' rows' r' renews' asked =>
    cases c with
    | update y' =>
      obtain ⟨result, now, heard, change⟩ := asked
      have twin : r'.id = r.id := by
        rw [← (Subscription.settled_ok change).1]
        exact touches
      obtain ⟨before, limit, found⟩ := renews.found
      obtain ⟨before', limit', found'⟩ := renews'.found
      rw [same] at found'
      obtain ⟨rfl, -⟩ := found_once run found found'
      obtain ⟨store, unique, answer⟩ := answered_of_past ids run found
      have distinct := unique.findExpiring answer
      have one : k' = k := by
        obtain ⟨inside, -⟩ := List.getElem?_eq_some_iff.mp renews'.row
        refine (List.getElem?_inj (by simpa using inside) distinct).mp ?_
        rw [List.getElem?_map, List.getElem?_map, renews'.row, renews.row]
        exact congrArg some twin
      have written := mem_past_take at_n nq deed
      have actor : m''.actor = m.actor :=
        actor_eq same (by rw [renews'.place, renews.place, one])
      rw [actor] at written
      exact unwritten y' b touches written
    | delete i => exact asked
    | markLapsed t => exact asked
    | _ => exact touches

theorem unread_since {own rest : List Exchange} (turn : InTurn ms) (run : Run flow (.start w) ms s)
    (at_q : ms[q]? = some m) (alone : m.actor.renewal = none)
    (path : past m.actor (ms.take q) = own ++ ⟨.now, now⟩ :: rest)
    (silent : ∀ x ∈ rest, x.request ≠ .now)
    (joined : (∀ settings, m.operation ≠ .errand (.sweep settings)) ∨ ¬ Unjoined own) :
    ∃ n < q, ReadAt ms n now ∧ ∀ j t, n < j → j < q → ¬ ReadAt ms j t := by
  obtain ⟨n, mn, nq, at_n, actor, reading, earlier, since⟩ := position_of_past path
  refine ⟨n, nq, ⟨mn, at_n, reading⟩, ?_⟩
  rintro j t nj jq ⟨mj, at_j, deed⟩
  -- Whoever moves in between is of the same operation: its own line, or a renewal of it.
  have same := turn.between at_n at_j at_q (Nat.le_of_lt nj) (Nat.le_of_lt jq) (by rw [actor])
  cases place : mj.actor.renewal with
  | none =>
    have self := actor_eq same (place.trans alone.symm)
    exact silent _ (since j mj _ nj jq at_j self deed) rfl
  | some k =>
    obtain ⟨rows, r, renews, -⟩ := renews_of_conforms ((orderly run).conforms_at at_j) place
    rcases joined with other | joined
    · obtain ⟨settings, sweeps⟩ := renews.operation
      apply other settings
      rw [← sweeps]
      exact (orderly run).same_operation (List.mem_of_getElem? at_q) (List.mem_of_getElem? at_j)
        same.symm
    · apply joined
      intro x hx
      apply renews.unjoined x
      rw [← actor_eq (b := ⟨mj.actor.thread, none⟩) same.symm alone]
      refine past_take_mono _ (Nat.le_of_lt nj) ?_
      rw [earlier]
      exact hx

/-! ## What a write goes over -/

/-- One instant was read, and another one then or later. -/
def ReadBefore (ms : List (Move Chore)) (t u : Instant) : Prop :=
  ∃ j n, j ≤ n ∧ ReadAt ms j t ∧ ReadAt ms n u

/-- A row that is written is as it was handed out, and was changed before the clock was read. -/
structure Fresh (ms : List (Move Chore)) (m : Move Chore) (own : List Exchange) (y : Subscription)
    (copy : Subscription) (now : Instant) : Prop where
  stored : m.before.subscriptions.get? y.id = some copy
  becomes : Becomes own now copy y
  dated : ReadBefore ms copy.updatedAt now

section

variable (blank : w.subscriptions.rows = []) (run : Run flow (.start w) ms s)

include blank run

theorem readBefore_of_stored (read : ReadAt ms n now) (hr : r ∈ (storeAt ms s.shared p).rows)
    (quiet : ∀ j t, n < j → j < p → ¬ ReadAt ms j t) : ReadBefore ms r.updatedAt now := by
  obtain ⟨j, before, changed⟩ := dated_before blank run hr
  refine ⟨j, n, ?_, changed, read⟩
  apply Nat.le_of_not_lt
  intro after
  exact quiet j _ after before changed

theorem fresh_of_copy {own : List Exchange} {v : c.Value} {copy : Subscription}
    (at_q : ms[q]? = some m) (at_p : ms[p]? = some m') (pq : p < q)
    (deed : m'.deed = .answered ⟨.subscriptions c, some (.ok v)⟩) (given : copy ∈ c.given v)
    (row : y.id = copy.id)
    (untouched : ∀ n m'' c b, p ≤ n → n < q → ms[n]? = some m'' →
      m''.deed = .answered ⟨.subscriptions c, b⟩ → ¬ Store.Subscriptions.Touches y.id c)
    (becomes : Becomes own now copy y) (read : ReadAt ms n now)
    (quiet : ∀ j t, n < j → j < p → ¬ ReadAt ms j t) : Fresh ms m own y copy now := by
  have ids := Store.Subscriptions.uniqueIds_of_blank blank
  have here := get?_of_given ids run at_p deed given
  refine ⟨?_, becomes, ?_⟩
  · rw [← storeAt_before s.shared at_q, row]
    rw [row] at untouched
    exact get?_onward run pq (fun n m c b pn => untouched n m c b (Nat.le_of_succ_le pn)) here
  · refine readBefore_of_stored blank run read (List.mem_of_find?_eq_some here) ?_
    intro j t nj jp changed
    rcases Nat.eq_or_lt_of_le (Nat.le_of_lt_succ jp) with rfl | jp
    · obtain ⟨x, at_j, reading⟩ := changed
      rw [at_p, Option.some.injEq] at at_j
      rw [← at_j, deed] at reading
      cases reading
    · exact quiet j t nj jp changed

theorem fresh_of_errand (turn : InTurn ms) (at_q : ms[q]? = some m)
    (alone : m.actor.renewal = none) (operation : m.operation = .errand e)
    (writes : e.Writes (past m.actor (ms.take q)) y) :
    ∃ copy now, Fresh ms m (past m.actor (ms.take q)) y copy now := by
  have ids := Store.Subscriptions.uniqueIds_of_blank blank
  have untouched := fun {p : Nat} {m' : Move Chore} (at_p : ms[p]? = some m')
      (actor : m'.actor = m.actor) =>
    untouched_by_errand turn ids run at_q alone operation writes at_p (by rw [actor])
  generalize path : past m.actor (ms.take q) = own at writes
  cases writes with
  | @handshake e own asked y result now heard change =>
    obtain ⟨before, takes, rfl⟩ := heard
    obtain ⟨c, v, copy, given, found, lease, secret, edited⟩ := takes.copied
    have clock : past m.actor (ms.take q) =
        (before ++ [⟨.hub .subscribe asked.hubRequest, result⟩]) ++ ⟨.now, now⟩ :: [] := by
      rw [path, List.append_assoc]
      rfl
    obtain ⟨n, mn, nq, at_n, -, reading, earlier, -⟩ := position_of_past clock
    have found' : ⟨.subscriptions c, some (.ok v)⟩ ∈ past m.actor (ms.take n) := by
      rw [earlier]
      exact List.mem_append_left _ found
    obtain ⟨p, mp, pn, at_p, actor, deed⟩ := position_of_mem_past found'
    have row : y.id = copy.id := by rw [(Subscription.settled_ok change).1, edited]
    have answered : Answered (before ++ [⟨.hub .subscribe asked.hubRequest, result⟩, ⟨.now, now⟩])
        copy result := ⟨asked.hubRequest, Or.inl (by simp), by rw [edited]; exact ⟨rfl, rfl, rfl⟩⟩
    refine ⟨copy, now, fresh_of_copy blank run at_q at_p (by omega) deed given row
      (untouched at_p actor) (.answer answered edited change) ⟨mn, at_n, reading⟩ ?_⟩
    intro j t nj jp
    omega
  | @verification v own now done todo copy y confirms change =>
    obtain ⟨writes, rfl, why, -⟩ := confirms
    have clock : past m.actor (ms.take q) = [] ++ ⟨.now, now⟩ ::
        (⟨.subscriptions (.findByTopic v.topicUrl), some (.ok (done ++ copy :: todo))⟩ :: writes) :=
      path
    have looked : past m.actor (ms.take q) = [⟨.now, now⟩] ++
        ⟨.subscriptions (.findByTopic v.topicUrl), some (.ok (done ++ copy :: todo))⟩ :: writes :=
      path
    have silent : ∀ x ∈ ⟨.subscriptions (.findByTopic v.topicUrl),
        some (.ok (done ++ copy :: todo))⟩ :: writes, x.request ≠ .now := by
      intro x hx
      rcases List.mem_cons.mp hx with rfl | hx
      · exact nofun
      · obtain ⟨r, -, y, a, -, rfl⟩ := why x hx
        exact nofun
    have other : ∀ settings, m.operation ≠ .errand (.sweep settings) := by
      intro settings sweeps
      rw [operation] at sweeps
      cases sweeps
    obtain ⟨p, mp, pq, at_p, actor, deed, -, -⟩ := position_of_past looked
    obtain ⟨n, -, read, quiet⟩ := unread_since turn run at_q alone clock silent (Or.inl other)
    refine ⟨copy, now, fresh_of_copy blank run at_q at_p pq deed
      (List.mem_append_right _ List.mem_cons_self) (Errand.change?_id change)
      (untouched at_p actor) (.callback change) read ?_⟩
    intro j t nj jp
    exact quiet j t nj (by omega)

theorem fresh_of_renewal (turn : InTurn ms) (at_q : ms[q]? = some m)
    (renews : Renews (ms.take q) m k rows r)
    (asked : Sweep.Asks r (past m.actor (ms.take q)) (.subscriptions (.update y))) :
    ∃ now, Fresh ms m (past m.actor (ms.take q)) y r now := by
  have ids := Store.Subscriptions.uniqueIds_of_blank blank
  obtain ⟨result, now, heard, change⟩ := asked
  have row := (Subscription.settled_ok change).1
  have path : past m.actor (ms.take q) =
      [⟨.stopped, false⟩, ⟨.hubUnlessStopped r.hubRequest, some result⟩] ++ ⟨.now, now⟩ :: [] :=
    heard
  obtain ⟨n, mn, nq, at_n, self, reading, -, -⟩ := position_of_past path
  obtain ⟨before, limit, found⟩ := renews.found
  -- Its rows were found before the renewal read the clock, since a sweep looks once.
  obtain ⟨rows', r', renews', -⟩ :=
    renews_of_conforms ((orderly run).conforms_at at_n) (by rw [self]; exact renews.place)
  obtain ⟨before', limit', found'⟩ := renews'.found
  rw [self] at found'
  obtain ⟨-, p, mp, pq, pn, at_p, actor, deed⟩ := found_once run found found'
  have answered : Answered (past m.actor (ms.take q)) r result :=
    ⟨r.hubRequest, Or.inr (by rw [heard]; simp), rfl, rfl, rfl⟩
  have untouched := untouched_by_renewal turn ids run at_q renews
    (Errand.unwritten_of_renewal heard) at_p (by rw [actor])
  rw [← row] at untouched
  refine ⟨now, fresh_of_copy blank run at_q at_p pq deed (List.mem_of_getElem? renews.row) row
    untouched (.answer answered rfl change) ⟨mn, at_n, reading⟩ ?_⟩
  intro j t nj jp
  omega

end

end Chore

end WebSub
