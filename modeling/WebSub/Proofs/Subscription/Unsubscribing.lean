import WebSub.Proofs.Subscription.Subscribing

/-!
# Unsubscribing

What the end of a subscription comes to when nothing fails and nobody else has a turn: the hub is
asked first, and whatever it says, the row is deleted and its channel is free again.
-/

namespace WebSub

open Interleaving
open WebSub.Flow (Turn)
open Store.Subscriptions (ofPair)

/-! ## What is left of the store -/

theorem Store.Subscriptions.rows_of_delete {s : Store.Subscriptions} {r : Subscription}
    {before after : List Subscription} (ids : s.UniqueIds) (rows : s.rows = before ++ r :: after) :
    (s.answer (.delete r.id)).1 = some (.ok true) ∧
      (s.answer (.delete r.id)).2.rows = before ++ after := by
  have stored : r ∈ s.rows := by simp [rows]
  have there : s.rows.any (·.id == r.id) = true :=
    List.any_eq_true.mpr ⟨r, stored, beq_self_eq_true _⟩
  have apart : ∀ x ∈ before ++ after, (x.id != r.id) = true := by
    unfold UniqueIds at ids
    rw [rows, List.map_append, List.map_cons, List.nodup_middle, ← List.map_append,
      List.nodup_cons] at ids
    intro x hx
    rw [bne_iff_ne]
    intro same
    exact ids.1 (List.mem_map.mpr ⟨x, hx, same⟩)
  rw [answer_delete_eq, there, answer_delete, rows, List.filter_append,
    List.filter_cons_of_neg (by simp), ← List.filter_append, List.filter_eq_self.mpr apart]
  exact ⟨rfl, rfl⟩

theorem Store.Subscriptions.free_of_delete {s : Store.Subscriptions} {r : Subscription}
    {before after : List Subscription} (pairs : s.UniquePairs)
    (rows : s.rows = before ++ r :: after) :
    ∀ x ∈ before ++ after, ofPair r.channelId r.callbackUrl x = false := by
  unfold UniquePairs at pairs
  rw [rows, List.map_append, List.map_cons, List.nodup_middle, ← List.map_append,
    List.nodup_cons] at pairs
  intro x hx
  rw [Bool.eq_false_iff]
  intro pair
  obtain ⟨channel, callback⟩ := ofPair_iff.mp pair
  exact pairs.1 (List.mem_map.mpr ⟨x, hx, by rw [channel, callback]⟩)

theorem Tidy.delete {w : Shared} (tidy : Tidy w) (id : Uuid) :
    Tidy { w with subscriptions := (w.subscriptions.answer (.delete id)).2 } where
  ids := tidy.ids.answer _
  pairs := tidy.pairs.answer _ fun _ => nofun
  drawn := by
    intro r hr
    rw [w.subscriptions.answer_delete] at hr
    exact tidy.drawn r (List.mem_of_mem_filter hr)
  topics := by
    intro r hr
    rw [w.subscriptions.answer_delete] at hr
    exact tidy.topics r (List.mem_of_mem_filter hr)

/-! ## Where a row's callback comes from -/

theorem Errand.Drafts.callback {e : Errand} {own : List Exchange} {y : Subscription}
    (h : e.Drafts own y) : ∃ d q, e = .subscribe d q ∧ y.callbackUrl = d.callbackUrl := by
  cases h with
  | draft admitted new =>
    obtain ⟨u, -, rfl⟩ := Option.map_eq_some_iff.mp new
    exact ⟨_, _, rfl, rfl⟩

theorem Chore.callback_of_run {w : Shared} {ms : List (Move Chore)} {s : System Chore Chore.Result}
    (blank : w.subscriptions.rows = []) (run : Run Chore.flow (.start w) ms s) {callback : String}
    (only : ∀ m ∈ ms, ∀ d q, m.operation = .errand (.subscribe d q) → d.callbackUrl = callback)
    {r : Subscription} (stored : r ∈ s.shared.subscriptions.rows) : r.callbackUrl = callback := by
  obtain ⟨k, m, y, b, at_k, deed, origin⟩ := ((rooted blank run).rows r stored).position
  have same : y.callbackUrl = r.callbackUrl := congrArg Subscription.Origin.callbackUrl origin
  cases calls ((orderly run).conforms_at at_k) (c := .create y) (by rw [deed]; rfl) with
  | errand alone operation drafts timely =>
    obtain ⟨d, q, rfl, asked⟩ := Errand.Drafts.callback drafts
    rw [← same, asked]
    exact only m (List.mem_of_getElem? at_k) d q operation
  | lapse alone operation marks reading => cases marks
  | renewal renews asked => exact asked.elim

namespace Errand

variable {w : Shared}

/-! ## What the caller is told -/

/-- How the hub took it: whether it agreed, the status of its answer if there was one, and the error
if the call came to nothing. The row is deleted in any case. -/
structure Reports (id : Uuid) (answer : Hub.Result) (report : Service.Unsubscribed) : Prop where
  id : report.id = id
  deleted : report.deleted = true
  unsubscribed : report.unsubscribed = true ↔
    ∃ response, answer = .ok response ∧ response.accepted = true
  status : ∀ code, report.hubStatus = some code ↔
    (∃ response, answer = .ok response ∧ response.statusCode = code) ∨
      ∃ body, answer = .error (.subscriptionFailed code body)
  error : ∀ text, report.hubError = some text ↔ ∃ e, answer = .error e ∧ e.message = text

theorem reports_ofResult (id : Uuid) (answer : Hub.Result) :
    Reports id answer (.ofResult id true answer) := by
  cases answer with
  | ok response => constructor <;> simp [Service.Unsubscribed.ofResult]
  | error e => cases e <;> constructor <;> simp [Service.Unsubscribed.ofResult]

/-! ## The course -/

/-- The hub is asked once with what the row says, before the row is deleted and nothing else. -/
structure Ended (r : Subscription) (before after : List Subscription) (w w' : Shared)
    (turns : List Turn) (answer : Hub.Result) : Prop where
  turns : turns = [⟨w, ⟨.subscriptions (.find r.id), some (.ok (some r))⟩, w⟩,
    ⟨w, ⟨.hub .unsubscribe ⟨r.hubUrl, r.topicUrl, r.callbackUrl, r.leaseSeconds, r.secret⟩, answer⟩,
      w⟩,
    ⟨w, ⟨.subscriptions (.delete r.id), some (.ok true)⟩, w'⟩]
  rows : w'.subscriptions.rows = before ++ after
  frame : w' = { w with subscriptions := w'.subscriptions }

theorem leads_unsubscribe_missing {id : Uuid} (missing : ∀ r ∈ w.subscriptions.rows, r.id ≠ id) :
    Flow.Leads .nothing Reliable (Service.unsubscribe id).run [] w fun turns w' outcome =>
      turns = [⟨w, ⟨.subscriptions (.find id), some (.ok none)⟩, w⟩] ∧ w' = w ∧
        outcome = some (.error .notFound) := by
  have none : w.subscriptions.get? id = none :=
    List.find?_eq_none.mpr fun r hr => by simpa using missing r hr
  refine Reliable.leads_read trivial ?_
  rw [w.subscriptions.answer_find, none]
  exact ⟨rfl, rfl, rfl⟩

theorem leads_unsubscribe (tidy : Tidy w) {r : Subscription} {before after : List Subscription}
    (rows : w.subscriptions.rows = before ++ r :: after) :
    Flow.Leads .nothing Reliable (Service.unsubscribe r.id).run [] w fun turns w' outcome =>
      ∃ answer report, outcome = some (.ok report) ∧ Reports r.id answer report ∧
        Ended r before after w w' turns answer ∧ Tidy w' := by
  have found : w.subscriptions.get? r.id = some r := tidy.ids.get? (by simp [rows])
  obtain ⟨deleted, left⟩ := Store.Subscriptions.rows_of_delete tidy.ids rows
  refine Reliable.leads_read trivial ?_
  rw [w.subscriptions.answer_find, found]
  refine Reliable.leads_hub fun answer => ?_
  refine Reliable.leads_subscriptions ?_
  rw [deleted]
  exact ⟨answer, _, rfl, reports_ofResult r.id answer, ⟨rfl, left, rfl⟩, tidy.delete r.id⟩

/-! ## Subscribing anew -/

theorem leads_subscribe_anew (tidy : Tidy w) (left : ∃ id, id ∉ w.drawn)
    {access : Settings.HubAccess} {q : CreateRequest} (permits : Permits access q)
    (free : ∀ r ∈ w.subscriptions.rows, ofPair q.channelId access.callbackUrl r = false) :
    Flow.Leads .nothing Reliable (Service.subscribe access.defaults q).run [] w
      fun turns w' outcome => ∃ answer t y, outcome = some (told y answer) ∧
        Established access.defaults q w w' turns answer t y ∧ y.id ∉ w.drawn ∧
          ∃ x ∈ turns, ∃ new, x.exchange = ⟨.subscriptions (.create new), some (.ok new)⟩ ∧
            new.id = y.id := by
  have range : IsLease (lease access.defaults q) :=
    ⟨permits.2.1, Int.le_trans permits.2.2 (Int.min_le_right _ _)⟩
  rw [subscribe_of_permits permits]
  refine (leads_prepare_anew tidy left range free).run_bind ?_ ?_ ?_
  · rintro past w₁ ⟨y, ⟨⟩, -⟩
  · rintro past w₁ e ⟨y, ⟨⟩, -⟩
  · rintro past w₁ new ⟨_, ⟨⟩, drafted⟩
    have prepared := drafted.prepared tidy free
    have asked : IsLease new.leaseSeconds := by rw [prepared.copy]; exact range
    refine (leads_handshake prepared.tidy prepared.stored rfl asked).weaken ?_
    rintro turns w' _ ⟨answer, t, y, shaken, rfl⟩
    have same : y.id = new.id :=
      Subscription.id_of_origin (Subscription.settled_origin shaken.change)
    obtain ⟨x, hx, created⟩ := drafted.created
    refine ⟨answer, t, y, rfl, established_of_shaken prepared shaken, same ▸ drafted.new, x, ?_,
      new, created, same.symm⟩
    rw [shaken.turns]
    exact List.mem_append_left _ hx

/-! ## The whole -/

/-- From every store that can be reached. Without a row the hub is not asked; a row goes whatever
the hub answers, and to subscribe to its channel again, with its callback, creates a new one. The
callback is the same as ever if it always was. -/
theorem unsubscribe_endToEnd {w : Shared} {ms : List (Move Chore)} {s : System Chore Chore.Result}
    (blank : w.subscriptions.rows = []) (run : Run Chore.flow (.start w) ms s) :
    (∀ id, (∀ r ∈ s.shared.subscriptions.rows, r.id ≠ id) →
      Flow.Leads .nothing Reliable (Service.unsubscribe id).run [] s.shared fun turns w' outcome =>
        (∀ x ∈ turns, x.isCall = false) ∧ w' = s.shared ∧ outcome = some (.error .notFound)) ∧
    ∀ before r after, s.shared.subscriptions.rows = before ++ r :: after →
      (Flow.Leads .nothing Reliable (Service.unsubscribe r.id).run [] s.shared
        fun turns w' outcome =>
          (∃ answer report, outcome = some (.ok report) ∧ Reports r.id answer report ∧
            Ended r before after s.shared w' turns answer) ∧
          ∀ access q, access.callbackUrl = r.callbackUrl → q.channelId = r.channelId →
            Permits access q → (∃ id, id ∉ w'.drawn) →
              Flow.Leads .nothing Reliable (Service.subscribe access.defaults q).run [] w'
                fun turns w'' outcome => ∃ answer t y, outcome = some (told y answer) ∧
                  Established access.defaults q w' w'' turns answer t y ∧ y.id ∉ w'.drawn ∧
                    ∃ x ∈ turns, ∃ new,
                      x.exchange = ⟨.subscriptions (.create new), some (.ok new)⟩ ∧
                        new.id = y.id) ∧
      ∀ callback, (∀ m ∈ ms, ∀ d q, m.operation = .errand (.subscribe d q) →
        d.callbackUrl = callback) → r.callbackUrl = callback := by
  have tidy := tidy_of_run blank run
  refine ⟨fun id missing => ?_, fun before r after rows => ⟨?_, fun callback only => ?_⟩⟩
  · refine (leads_unsubscribe_missing missing).weaken ?_
    rintro turns w' outcome ⟨rfl, same, notFound⟩
    exact ⟨by simp [Turn.isCall], same, notFound⟩
  · refine (leads_unsubscribe tidy rows).weaken ?_
    rintro turns w' outcome ⟨answer, report, done, reports, ended, tidy'⟩
    refine ⟨⟨answer, report, done, reports, ended⟩, ?_⟩
    intro access q callback channel permits left
    refine leads_subscribe_anew tidy' left permits ?_
    rw [ended.rows, callback, channel]
    exact Store.Subscriptions.free_of_delete tidy.pairs rows
  · exact Chore.callback_of_run blank run only (by simp [rows])

/-- The end of the only subscription there is, and a new one for its channel. -/
theorem unsubscribe_endToEnd_only :
    ∃ ms s, Shared.empty.subscriptions.rows = [] ∧ Run Chore.flow (.start .empty) ms s ∧
      s.shared.subscriptions.rows = [plainRow .active none] ∧
      (Flow.Leads .nothing Reliable (Service.unsubscribe .nil).run [] s.shared
        fun turns w' outcome =>
          (∀ x ∈ turns, x.isCall = false) ∧ w' = s.shared ∧ outcome = some (.error .notFound)) ∧
      (Flow.Leads .nothing Reliable (Service.unsubscribe (.drawn 0)).run [] s.shared
        fun turns w' outcome =>
          (∃ answer report, outcome = some (.ok report) ∧ Reports (.drawn 0) answer report ∧
            Ended (plainRow .active none) [] [] s.shared w' turns answer) ∧
          Flow.Leads .nothing Reliable
            (Service.subscribe plainAccess.defaults ⟨"a", none⟩).run [] w'
            fun turns w'' outcome => ∃ answer t y, outcome = some (told y answer) ∧
              Established plainAccess.defaults ⟨"a", none⟩ w' w'' turns answer t y ∧
                y.id ∉ w'.drawn ∧ ∃ x ∈ turns, ∃ new,
                  x.exchange = ⟨.subscriptions (.create new), some (.ok new)⟩ ∧ new.id = y.id) ∧
      (plainRow .active none).callbackUrl = "c" := by
  obtain ⟨ms, s, r, own, shared⟩ := run_plain_chores
  have rows : s.shared.subscriptions.rows = [plainRow .active none] := by rw [shared]; rfl
  have drawn : s.shared.drawn = [.drawn 0] := by rw [shared]
  have permits : Permits plainAccess ⟨"a", none⟩ :=
    ⟨(CreateRequest.violations_isEmpty _).mp (by decide), by decide, by decide⟩
  obtain ⟨missing, stored⟩ := unsubscribe_endToEnd rfl r
  obtain ⟨ends, callback⟩ := stored [] (plainRow .active none) [] rows
  refine ⟨ms, s, rfl, r, rows, missing .nil ?_, ends.weaken ?_, callback "c" ?_⟩
  · rw [rows]
    decide
  · rintro turns w' outcome ⟨⟨answer, report, done, reports, ended⟩, anew⟩
    refine ⟨⟨answer, report, done, reports, ended⟩, anew plainAccess ⟨"a", none⟩ rfl rfl permits ?_⟩
    rw [ended.frame, drawn]
    exact ⟨.nil, by decide⟩
  · intro m hm d q asked
    have mem := List.mem_map_of_mem (f := (·.operation)) hm
    rw [own] at mem
    rw [List.eq_of_mem_replicate mem] at asked
    cases asked
    rfl

end Errand

end WebSub
