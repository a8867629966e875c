import WebSub.Proofs.Interleaving.Turns
import WebSub.Proofs.Subscription.Chore
import WebSub.Proofs.Sweep.Course

/-!
# Rounds

What a sweep that has reported is known to have done, as long as nothing was shut down.
-/

namespace WebSub.Sweep

open Interleaving

/-! ## Sweeps among chores -/

/-- The course of each sweep; other chores are free to do anything. -/
def choreCourses : Chore → Conduct Chore.Result
  | .errand e =>
    { courses e with ends := fun own r => ∃ x, r = .errand x ∧ (courses e).ends own x }
  | .lapse => .free

theorem keeps_choreCourses (o : Chore) : o.flow.Keeps (choreCourses o) [] := by
  cases o with
  | errand e =>
    exact keeps_bind (c := courses e) (fun _ _ h => h) (fun _ h => h)
      (fun _ x ends => ⟨x, rfl, ends⟩) (keeps_courses e)
  | lapse => exact keeps_free _ _

variable {w : Shared} {ms : List (Move Chore)} {s : System Chore Chore.Result}
  {settings : Settings} {i p q : Nat} {r x : Subscription} {before : Instant}
  {rows : List Subscription}

theorem chores_orderly (run : Run Chore.flow (.start w) ms s) :
    Orderly choreCourses renewal ms s :=
  run.orderly keeps_choreCourses keeps_renewal

theorem chores_booked (run : Run Chore.flow (.start w) ms s) : Booked renewal ms s :=
  run.booked keeps_choreCourses keeps_renewal

/-! ## Rounds -/

/-- A sweep has looked for rows at one position, and by another one has called the hub about each
of them and asked the store to write it. -/
structure Round (settings : Settings) (ms : List (Move Chore)) (i p q : Nat) (before : Instant)
    (rows : List Subscription) : Prop where
  order : p < q
  listing : ∃ m, ms[p]? = some m ∧ m.actor = ⟨i, none⟩ ∧
    m.deed = .answered ⟨.subscriptions (.findExpiring before settings.batchSize), some (.ok rows)⟩
  reach : ∃ j t, ReadAt ms j t ∧ settings.lookahead?.bind t.add? = some before
  join : ∃ m, ms[q]? = some m ∧ m.actor = ⟨i, none⟩
  called : ∀ (k : Nat) x, rows[k]? = some x →
    .hubUnlessStopped x.hubRequest ∈ calls ⟨i, some k⟩ ms
  written : ∀ x ∈ rows, ∃ n m y a, n < q ∧ ms[n]? = some m ∧ m.actor.thread = i ∧
    m.deed = .answered ⟨.subscriptions (.update y), some a⟩ ∧ y.id = x.id

theorem tried_of_outcome {a : Actor} {o : Renewal} (run : Run Chore.flow (.start w) ms s)
    (running : s.shared.stopped = false) (outcome : Outcome x (past a (ms.take q)) o) :
    ∃ result t y b, past a (ms.take q) = [⟨.stopped, false⟩,
      ⟨.hubUnlessStopped x.hubRequest, some result⟩, ⟨.now, t⟩,
      ⟨.subscriptions (.update y), some b⟩] ∧ x.settled result t = .ok y := by
  have early : ⟨.stopped, true⟩ ∉ past a (ms.take q) := by
    intro seen
    obtain ⟨m, hm, -, stopped⟩ := stopped_of_look run (mem_past_of_take a seen)
    rw [running_of_run run running hm] at stopped
    cases stopped
  have late : ∀ p, ⟨.hubUnlessStopped p, none⟩ ∉ past a (ms.take q) := by
    intro p abandoned
    obtain ⟨m, hm, -, stopped⟩ := stopped_of_abandoned run (mem_past_of_take a abandoned)
    rw [running_of_run run running hm] at stopped
    cases stopped
  generalize past a (ms.take q) = own at outcome early late
  cases outcome with
  | early => exact absurd (List.mem_singleton.mpr rfl) early
  | late => exact absurd (by simp) (late x.hubRequest)
  | @tried result t y b change => exact ⟨result, t, y, b, rfl, change⟩

section

variable {ended out : List Renewal} (run : Run Chore.flow (.start w) ms s)
  (running : s.shared.stopped = false)
  (closed : Closed renewal rows (fun k => past ⟨i, some k⟩ (ms.take q))
    (fun k => calls ⟨i, some k⟩ (ms.take q)) ended out)
include run running closed

theorem called_of_closed {k : Nat} (at_k : rows[k]? = some x) :
    .hubUnlessStopped x.hubRequest ∈ calls ⟨i, some k⟩ ms := by
  obtain ⟨o, -, outcome, sent⟩ := closed.each k x at_k
  obtain ⟨result, t, y, b, path, -⟩ := tried_of_outcome run running outcome
  have patient : Patient (past ⟨i, some k⟩ (ms.take q)) := by
    rw [path]
    simp [Patient]
  rw [← List.take_append_drop q ms, calls_append, sent patient, path]
  simp [Exchange.sent?]

theorem written_of_closed (hx : x ∈ rows) :
    ∃ n m y a, n < q ∧ ms[n]? = some m ∧ m.actor.thread = i ∧
      m.deed = .answered ⟨.subscriptions (.update y), some a⟩ ∧ y.id = x.id := by
  obtain ⟨k, at_k⟩ := List.mem_iff_getElem?.mp hx
  obtain ⟨o, -, outcome, -⟩ := closed.each k x at_k
  obtain ⟨result, t, y, b, path, change⟩ := tried_of_outcome run running outcome
  have wrote : ⟨.subscriptions (.update y), some b⟩ ∈ past ⟨i, some k⟩ (ms.take q) := by
    rw [path]
    simp
  obtain ⟨n, m, nq, at_n, actor, deed⟩ := position_of_mem_past wrote
  exact ⟨n, m, y, b, nq, at_n, by rw [actor], deed, (Subscription.settled_ok change).1⟩

end

theorem round_of_reported {t : Thread Chore Chore.Result} {report : Report}
    (run : Run Chore.flow (.start w) ms s) (running : s.shared.stopped = false)
    (at_i : s.threads[i]? = some t) (operation : t.operation = .errand (.sweep settings))
    (result : t.task.result? = some (.errand (.swept (.ok report)))) :
    ∃ p q before rows, Round settings ms i p q before rows := by
  have ends := (chores_orderly run).ended at_i result
  rw [operation] at ends
  obtain ⟨x, same, y, same', course⟩ := ends
  cases same
  cases same'
  generalize own_eq : past ⟨i, none⟩ ms = own at course
  cases course with
  | @reported head marks rest rows ended lapsed joined marking closing =>
    obtain ⟨head, found, rfl⟩ := joined
    have whole : past ⟨i, none⟩ (ms.take ms.length) =
        head ++ ⟨.renewAll settings.width rows, some ended⟩ :: (marks ++ rest) := by
      rw [List.take_length, own_eq]
      simp
    obtain ⟨q, mq, -, at_q, actor_q, deed_q, earlier, -⟩ := position_of_past whole
    have unjoined : Unjoined (past ⟨mq.actor.thread, none⟩ (ms.take q)) := by
      rw [actor_q, earlier]
      exact found.unjoined
    obtain ⟨out, closed⟩ := (chores_booked run).joins _ _ _ (split_at at_q) settings.width rows
      ended deed_q unjoined
    rw [actor_q] at closed
    obtain ⟨t, before, reach, rfl⟩ := found
    have listed : past ⟨i, none⟩ (ms.take q) = [⟨.lockSweeps, true⟩, ⟨.now, t⟩] ++
        ⟨.subscriptions (.findExpiring before settings.batchSize), some (.ok rows)⟩ :: [] := earlier
    obtain ⟨p, mp, pq, at_p, actor_p, deed_p, -, -⟩ := position_of_past listed
    obtain ⟨j, read⟩ : ∃ j, ReadAt ms j t :=
      readAt_of_mem_past (mem_past_of_take (q := q) ⟨i, none⟩ (by rw [earlier]; simp))
    exact ⟨p, q, before, rows, pq, ⟨mp, at_p, actor_p, deed_p⟩, ⟨j, t, read, reach⟩,
      ⟨mq, at_q, actor_q⟩, fun _ _ => called_of_closed run running closed,
      fun _ => written_of_closed run running closed⟩

/-- A sweep has found a row and has called the hub about it. -/
def Attempts (ms : List (Move Chore)) (i : Nat) (r : Subscription) : Prop :=
  ∃ (k : Nat) (rows : List Subscription) (before : Instant) (limit : Nat),
    ⟨.subscriptions (.findExpiring before limit), some (.ok rows)⟩ ∈ past ⟨i, none⟩ ms ∧
      rows[k]? = some r ∧ .hubUnlessStopped r.hubRequest ∈ calls ⟨i, some k⟩ ms

namespace Round

theorem found (round : Round settings ms i p q before rows) :
    ⟨.subscriptions (.findExpiring before settings.batchSize), some (.ok rows)⟩ ∈
      past ⟨i, none⟩ ms := by
  obtain ⟨m, at_p, actor, deed⟩ := round.listing
  exact mem_past.mpr ⟨m, List.mem_of_getElem? at_p, actor, deed⟩

theorem attempts (round : Round settings ms i p q before rows) (hr : r ∈ rows) :
    Attempts ms i r := by
  obtain ⟨k, at_k⟩ := List.mem_iff_getElem?.mp hr
  exact ⟨k, rows, before, _, round.found, at_k, round.called k r at_k⟩

theorem answer (round : Round settings ms i p q before rows)
    (run : Run Chore.flow (.start w) ms s) :
    ((storeAt ms s.shared p).answer (.findExpiring before settings.batchSize)).1 =
      some (.ok rows) := by
  obtain ⟨m, at_p, actor, deed⟩ := round.listing
  rw [storeAt_before _ at_p]
  exact ((run.allowed m (List.mem_of_getElem? at_p)).answer deed (by simp)).1.symm

end Round

end WebSub.Sweep
