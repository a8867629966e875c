import WebSub.Proofs.Flow.Traced
import WebSub.Proofs.Interleaving.Endings
import WebSub.Proofs.Subscription.Faults
import WebSub.Proofs.Sweep.Progress
import WebSub.Proofs.Sweep.Shutdown

/-!
# Failures under a sweep

Whatever the hub says about a row, and whichever of its store calls fail, the row counts once and
the others go on. Only a listing that fails ends a sweep with an error, before any call; only an
instant that cannot be represented, or a batch that the database cannot count, breaks it down.
-/

namespace WebSub.Sweep

open Interleaving
open Errand (granted)

variable {w : Shared} {ms : List (Move Errand)} {s : System Errand Errand.Result}
  {settings : Settings} {i k : Nat} {r : Subscription} {own : List Exchange}

/-! ## One row -/

/-- How a row counts, by what its renewal went through and sent. -/
structure Counts (r : Subscription) (own : List Exchange) (sent : List Request) (o : Renewal) :
    Prop where
  /-- The hub failed, or the write did. -/
  failed : o = .failed ↔
    (∃ e, ⟨.hubUnlessStopped r.hubRequest, some (.error e)⟩ ∈ own) ∨
      ∃ y e, ⟨.subscriptions (.update y), some (.error e)⟩ ∈ own
  renewed : o = .renewed ↔
    (∃ response, ⟨.hubUnlessStopped r.hubRequest, some (.ok response)⟩ ∈ own) ∧
      ∃ y a, ⟨.subscriptions (.update y), some (.ok a)⟩ ∈ own
  skipped : o = .skipped ↔ Skips own
  /-- Unless the shutdown came first, the hub was asked for the row. -/
  attempted : o ≠ .skipped → sent = [.hubUnlessStopped r.hubRequest]

theorem counts_of_outcome {sent : List Request} {o : Renewal} (outcome : Outcome r own o)
    (sends : Patient own → sent = own.filterMap Exchange.sent?) : Counts r own sent o where
  failed := by
    cases outcome with
    | early => simp
    | late => simp
    | @tried result t y a change => cases result <;> cases a <;> simp [verdict]
  renewed := by
    cases outcome with
    | early => simp
    | late => simp
    | @tried result t y a change => cases result <;> cases a <;> simp [verdict]
  skipped := Outcome.skipped_iff outcome
  attempted := by
    intro tried
    cases outcome with
    | early => exact absurd rfl tried
    | late => exact absurd rfl tried
    | @tried result t y a change =>
      rw [sends (by simp [Patient])]
      rfl

/-! ## How a sweep ends -/

/-- No call of a sweep has left for the hub. -/
def Uncalled (ms : List (Move Errand)) (i : Nat) : Prop :=
  ∀ m ∈ ms, m.actor.thread = i → ∀ p, m.deed ≠ .called p

/-- How a sweep may end. -/
inductive Ending (settings : Settings) (ms : List (Move Errand)) (i : Nat) :
    Except Error Report → Prop
  | refused (own : past ⟨i, none⟩ ms = [⟨.lockSweeps, false⟩]) (uncalled : Uncalled ms i) :
      Ending settings ms i (.error .alreadyRunning)
  | unlisted {before : Instant} {e : Store.Error}
      (failed : ⟨.subscriptions (.findExpiring before settings.batchSize), some (.error e)⟩ ∈
        past ⟨i, none⟩ ms) (uncalled : Uncalled ms i) :
      Ending settings ms i (.error (.listing e))
  /-- Each row that was found counts once. -/
  | reported {before : Instant} {rows : List Subscription} {out : List Renewal} {lapsed : Nat}
      (listed : ⟨.subscriptions (.findExpiring before settings.batchSize), some (.ok rows)⟩ ∈
        past ⟨i, none⟩ ms) (length : out.length = rows.length)
      (each : ∀ (k : Nat) r, rows[k]? = some r → ∃ o, out[k]? = some o ∧
        Counts r (past ⟨i, some k⟩ ms) (calls ⟨i, some k⟩ ms) o) :
      Ending settings ms i (.ok (.ofRenewals out lapsed))

theorem Found.listed {rest : List Exchange} {rows : List Subscription}
    (h : Found settings own rows) (path : past ⟨i, none⟩ ms = own ++ rest) :
    ∃ before, ⟨.subscriptions (.findExpiring before settings.batchSize), some (.ok rows)⟩ ∈
      past ⟨i, none⟩ ms := by
  obtain ⟨t, before, -, rfl⟩ := h
  refine ⟨before, ?_⟩
  rw [path]
  simp

theorem uncalled_of_past (run : Run Errand.flow (.start w) ms s) (mine : IsSweep settings i ms)
    (unfound : ∀ own rest rows, past ⟨i, none⟩ ms = own ++ rest → ¬ Found settings own rows) :
    Uncalled ms i := by
  intro m hm thread p deed
  obtain ⟨k, rows, r, own, rest, -, path, found, -⟩ :=
    called_of_sweep (orderly run) mine hm thread (run.allowed m hm) deed
  exact unfound own rest rows path found

theorem ending_of_ended (run : Run Errand.flow (.start w) ms s)
    {t : Thread Errand Errand.Result} (at_i : s.threads[i]? = some t)
    (operation : t.operation = .sweep settings) (mine : IsSweep settings i ms)
    {x : Except Error Report} (result : t.task.result? = some (.swept x)) :
    Ending settings ms i x := by
  have ends := (orderly run).ended at_i result
  rw [operation] at ends
  obtain ⟨x, same, course⟩ := ends
  cases same
  generalize own_eq : past ⟨i, none⟩ ms = own at course
  cases course with
  | refused =>
    refine .refused own_eq (uncalled_of_past run mine ?_)
    rintro own rest rows path ⟨t, before, -, rfl⟩
    rw [own_eq] at path
    simp at path
  | @unlisted t before e rest reach closing =>
    have failed : ⟨.subscriptions (.findExpiring before settings.batchSize), some (.error e)⟩ ∈
        past ⟨i, none⟩ ms := by
      rw [own_eq]
      simp
    refine .unlisted failed (uncalled_of_past run mine ?_)
    rintro own rest' rows path ⟨t', before', -, rfl⟩
    rw [own_eq] at path
    simp at path
  | @reported head marks rest rows ended lapsed joined marking closing =>
    rw [List.append_assoc] at own_eq
    obtain ⟨out, closed⟩ := closed_of_past run mine joined own_eq
    obtain ⟨head, found, rfl⟩ := joined
    rw [List.append_assoc] at own_eq
    obtain ⟨before, listed⟩ := found.listed own_eq
    rw [ofRenewals_perm closed.ended]
    refine .reported listed closed.length ?_
    intro k r row
    obtain ⟨o, at_k, outcome, sends⟩ := closed.each k r row
    exact ⟨o, at_k, counts_of_outcome outcome sends⟩

theorem ending_of_unlisted (run : Run Errand.flow (.start w) ms s)
    {t : Thread Errand Errand.Result} (at_i : s.threads[i]? = some t)
    (operation : t.operation = .sweep settings) (mine : IsSweep settings i ms) {before : Instant}
    {n : Nat} {e : Store.Error}
    (failed : ⟨.subscriptions (.findExpiring before n), some (.error e)⟩ ∈ past ⟨i, none⟩ ms)
    {x : Except Error Report} (result : t.task.result? = some (.swept x)) :
    x = .error (.listing e) := by
  obtain ⟨own, rest, path⟩ := List.append_of_mem failed
  obtain ⟨pre, m, post, split, actor, deed, earlier⟩ := past_split path
  have steps := steps_of_sweep (orderly run) mine split actor
  rw [deed, earlier] at steps
  obtain ⟨-, t', -, rfl⟩ := steps
  have ends := (orderly run).ended at_i result
  rw [operation] at ends
  obtain ⟨x, same, course⟩ := ends
  cases same
  rw [path] at course
  generalize own_eq : [_, _] ++ _ :: rest = own at course
  cases course with
  | refused => simp at own_eq
  | unlisted reach closing =>
    simp at own_eq
    obtain ⟨-, ⟨-, rfl⟩, -⟩ := own_eq
    rfl
  | reported joined marking closing =>
    obtain ⟨head, ⟨u, before', -, rfl⟩, rfl⟩ := joined
    simp at own_eq

/-! ## How a sweep breaks down -/

/-- Why a sweep may break down. -/
inductive Breakdown (settings : Settings) (ms : List (Move Errand)) (i : Nat) : Prop
  | lookahead {t : Instant} (read : ⟨.now, t⟩ ∈ past ⟨i, none⟩ ms)
      (far : settings.lookahead?.bind t.add? = none)
  /-- The database cannot count the batch. -/
  | batch {m : Move Errand} (hm : m ∈ ms) (actor : m.actor = ⟨i, none⟩)
      (large : ¬ m.before.subscriptions.Reads settings.batchSize)
  /-- A row was accepted, and its lease would end out of range. -/
  | lease {before : Instant} {rows : List Subscription} {k : Nat} {r : Subscription}
      {response : Hub.Response} {t : Instant}
      (listed : ⟨.subscriptions (.findExpiring before settings.batchSize), some (.ok rows)⟩ ∈
        past ⟨i, none⟩ ms) (row : rows[k]? = some r)
      (heard : past ⟨i, some k⟩ ms = [⟨.stopped, false⟩,
        ⟨.hubUnlessStopped r.hubRequest, some (.ok response)⟩, ⟨.now, t⟩])
      (far : t.addSeconds? (granted r.leaseSeconds response.leaseSeconds) = none)

theorem listing_of_none (run : Run Errand.flow (.start w) ms s) (mine : IsSweep settings i ms)
    {c : Store.SubscriptionCall} (broken : ⟨.subscriptions c, none⟩ ∈ past ⟨i, none⟩ ms) :
    Breakdown settings ms i := by
  obtain ⟨m, hm, actor, deed⟩ := mem_past.mp broken
  obtain ⟨pre, post, split⟩ := List.append_of_mem hm
  have steps := steps_of_sweep (orderly run) mine split actor
  rw [deed] at steps
  have allowed := run.allowed m hm
  cases c with
  | findExpiring before n =>
    obtain ⟨rfl, -⟩ := steps
    have answer := (allowed.answer deed nofun).1
    exact .batch hm actor (Store.Subscriptions.not_reads_of_findExpiring answer.symm)
  | markLapsed t =>
    exact absurd rfl (Shared.Answers.ne_none (allowed.answered deed) trivial)
  | _ => exact steps.elim

theorem hears_of_breaks (run : Run Errand.flow (.start w) ms s) (mine : IsSweep settings i ms)
    (breaks : Breaks r (past ⟨i, some k⟩ ms)) :
    ∃ response t, Hears (past ⟨i, some k⟩ ms) r (.ok response) t ∧
      t.addSeconds? (granted r.leaseSeconds response.leaseSeconds) = none := by
  rcases breaks with ⟨c, broken⟩ | ⟨answer, t, y, heard, change⟩
  · obtain ⟨m, hm, actor, deed⟩ := mem_past.mp broken
    obtain ⟨pre, post, split⟩ := List.append_of_mem hm
    obtain ⟨_, _, _, _, steps⟩ := steps_of_renewal (orderly run) mine split actor
    rw [deed] at steps
    cases c with
    | update y =>
      have answers := (run.allowed m hm).answered deed
      exact absurd rfl (Shared.Answers.ne_none answers trivial)
    | _ => exact steps.elim
  · obtain ⟨response, rfl, far⟩ := Service.addSeconds?_of_settled change
    exact ⟨response, t, heard, far⟩

theorem breakdown_of_broken (run : Run Errand.flow (.start w) ms s)
    {t : Thread Errand Errand.Result} (at_i : s.threads[i]? = some t)
    (operation : t.operation = .sweep settings) (mine : IsSweep settings i ms)
    (broken : t.task.rest = .crash) : Breakdown settings ms i := by
  have breaks := (Errand.orderly run).broken at_i broken
  rw [operation] at breaks
  rcases breaks with ⟨c, unanswered⟩ | ⟨n, rows, unjoined⟩ | overflow
  · exact listing_of_none run mine unanswered
  · obtain ⟨own, rest, k, r, path, found, row, breaks⟩ := breaks_of_joined run mine unjoined
    obtain ⟨before, listed⟩ := found.listed path
    obtain ⟨response, t', heard, far⟩ := hears_of_breaks run mine breaks
    exact .lease listed row heard far
  · cases overflow with
    | lookahead reading far => exact .lookahead reading far
    | handshake heard change =>
      obtain ⟨before, takes, -⟩ := heard
      rcases takes.operation with ⟨d, r, other⟩ | ⟨id, other⟩
      · cases other
      · cases other

/-! ## A sweep goes on -/

theorem goes_on_anyhow (run : Run Errand.flow (.start w) ms s)
    {t : Interleaving.Task Errand.Result} (at_i : s.threads[i]? = some ⟨.sweep settings, t⟩)
    (unended : t.result? = none) (unbroken : t.rest ≠ .crash) :
    (∃ t', t.Quiet t') ∨ ∃ k d v t', t.Step s.shared k d v t' := by
  have served : Served s.shared fun _ _ _ => True := by
    refine ⟨fun β k q next calling known single => ?_, fun _ _ _ => trivial⟩
    obtain ⟨v, a, answers⟩ := Flow.exists_answer s.shared q fun same => absurd same known
    exact exists_line_step next calling single answers trivial trivial
  rcases goes_on run served at_i unended unbroken with quiet | ⟨k, d, v, t', step, -⟩
  · exact Or.inl quiet
  · exact Or.inr ⟨k, d, v, t', step⟩

/-! ## The whole -/

/-- What holds of a sweep, whatever fails. -/
structure Unmasked (settings : Settings) (ms : List (Move Errand))
    (s : System Errand Errand.Result) (i : Nat) (t : Interleaving.Task Errand.Result) : Prop where
  /-- The sweep ends in one of these ways, -/
  ended : ∀ x, t.result? = some (.swept x) → Ending settings ms i x
  unlisted : ∀ before n e,
    ⟨.subscriptions (.findExpiring before n), some (.error e)⟩ ∈ past ⟨i, none⟩ ms →
      ∀ x, t.result? = some (.swept x) → x = .error (.listing e)
  /-- and until then it goes on, but only so many steps, -/
  goes_on : t.result? = none → t.rest ≠ .crash →
    (∃ t', t.Quiet t') ∨ ∃ k d v t', t.Step s.shared k d v t'
  stops : ∀ f : Nat → Interleaving.Task Errand.Result, ∃ n, ¬ (f n).Goes (f (n + 1))
  /-- unless it breaks down. -/
  broken : t.rest = .crash → Breakdown settings ms i
  /-- A row is only skipped after the shutdown, -/
  skipped : ∀ k, Skips (past ⟨i, some k⟩ ms) →
    ∃ m ∈ ms, m.actor = ⟨i, some k⟩ ∧ m.before.stopped = true
  /-- and one whose write fails is what it was before. -/
  unwritten : ∀ m ∈ ms, m.actor.thread = i → ∀ y e,
    m.deed = .answered ⟨.subscriptions (.update y), some (.error e)⟩ →
      m.after.subscriptions = m.before.subscriptions

theorem unmasked_of_run {t : Interleaving.Task Errand.Result}
    (run : Run Errand.flow (.start w) ms s) (at_i : s.threads[i]? = some ⟨.sweep settings, t⟩) :
    Unmasked settings ms s i t := by
  have mine : IsSweep settings i ms := fun m hm thread =>
    (orderly run).operation_of_thread at_i hm thread
  refine ⟨?ended, ?unlisted, ?goes_on, Task.stops, ?broken, fun _ => stopped_of_skips run,
    ?unwritten⟩
  case ended => exact fun x result => ending_of_ended run at_i rfl mine result
  case unlisted =>
    exact fun before n e failed x result => ending_of_unlisted run at_i rfl mine failed result
  case goes_on => exact goes_on_anyhow run at_i
  case broken => exact breakdown_of_broken run at_i rfl mine
  case unwritten => exact fun m hm _ y e deed => (run.allowed m hm).failed deed (by simp)

/-- Whatever the hub answers, whichever store calls fail and whatever else goes on, no failure is
masked in subscribing, in renewing, or in a sweep. -/
theorem failures_unmasked :
    (∀ w d r, Flow.Leads .anything Shared.Answers (Service.subscribe d r).run [] w
      fun turns _ outcome => Service.Candid (some (Errand.lease d r)) turns outcome) ∧
    (∀ w id, Flow.Leads .anything Shared.Answers (Service.renew id).run [] w
      fun turns _ outcome => Service.Candid none turns outcome) ∧
    (∀ w app request, Flow.Leads .anything Shared.Answers (Http.create app request) [] w
      fun turns _ outcome => Http.Relayed turns outcome) ∧
    (∀ w id, Flow.Leads .anything Shared.Answers (Http.renew id) [] w
      fun turns _ outcome => Http.Relayed turns outcome) ∧
    ∀ w ms s i settings t, Run Errand.flow (.start w) ms s →
      s.threads[i]? = some ⟨.sweep settings, t⟩ → Unmasked settings ms s i t :=
  ⟨fun _ => Service.leads_subscribe, fun _ => Service.leads_renew, fun _ => Http.leads_create,
    fun _ => Http.leads_renew, fun _ _ _ _ _ _ => unmasked_of_run⟩

/-- The hub cannot be reached, and that cannot be written either: the row has failed once. -/
theorem failures_unmasked_both :
    ∃ ms s t, Run Errand.flow (.start (plainShared 60)) ms s ∧
      s.threads[0]? = some ⟨.sweep plainSettings, t⟩ ∧
      t.result? = some (.swept (.ok ⟨1, 0, 1, 0, 0⟩)) ∧
      s.shared.subscriptions.rows = [dueRow 60] ∧ Unmasked plainSettings ms s 0 t := by
  have r : Run Errand.flow (.start (plainShared 60)) [] (.start (plainShared 60)) := .start
  have r := r.quiet (.begin _ (.sweep plainSettings))
  have r := r.move (Step.answer (i := 0) rfl true (by exact ⟨rfl, rfl⟩) id False.elim)
  have r := r.move (Step.read (i := 0) rfl)
  have r := r.move (Step.answer (i := 0) rfl (some (Except.ok [dueRow 60]))
    (by exact Or.inl ⟨(plainShared_findExpiring 60).symm, rfl⟩) id False.elim)
  have r := r.quiet (.quiet (i := 0) rfl .fork)
  have r := r.quiet (.quiet (i := 0) rfl (.begin (by decide) rfl))
  have r := r.move (.move (i := 0) rfl
    (.renewal (k := 0) rfl (.answer (a := false) (by exact ⟨rfl, rfl⟩) id False.elim)))
  have r := r.move (.move (i := 0) rfl (.renewal (k := 0) rfl (.call (by exact rfl))))
  have r := r.move (.move (i := 0) rfl
    (.renewal (k := 0) rfl (.answer (a := some (.error (.transport "")))
      (by exact ⟨iff_of_false (Option.some_ne_none _) Bool.false_ne_true, rfl⟩) id fun _ => rfl)))
  have r := r.move (.move (i := 0) rfl
    (.renewal (k := 0) rfl (.answer (a := Instant.mk 0) (by exact ⟨isReading_epoch, rfl⟩)
      id False.elim)))
  have r := r.move (.move (i := 0) rfl
    (.renewal (k := 0) rfl (.answer (a := some (.error (.database "")))
      (by exact Or.inr ⟨⟨_, rfl⟩, rfl⟩) id False.elim)))
  have r := r.quiet (.quiet (i := 0) rfl (.finish (k := 0) rfl))
  have r := r.move (.move (i := 0) rfl (.joined ⟨rfl, rfl⟩))
  have r := r.move (Step.answer (i := 0) rfl false (by exact ⟨rfl, rfl⟩) id False.elim)
  have r := r.move (Step.read (i := 0) rfl)
  have r := r.move (Step.answer (i := 0) rfl (some (Except.ok 0)) (by exact Or.inl ⟨rfl, rfl⟩)
    id False.elim)
  have r := r.move (Step.answer (i := 0) rfl () (by exact rfl) id False.elim)
  have r := r.move (Step.answer (i := 0) rfl () (by exact rfl) id False.elim)
  have r := r.move (Step.answer (i := 0) rfl () (by exact rfl) id False.elim)
  have r := r.move (Step.answer (i := 0) rfl () (by exact rfl) id False.elim)
  have r := r.move (Step.answer (i := 0) rfl () (by exact rfl) id False.elim)
  have r := r.move (Step.answer (i := 0) rfl () (by exact rfl) id False.elim)
  have ⟨_, _, _, _, sweeps⟩ := failures_unmasked
  exact ⟨_, _, _, r, rfl, rfl, rfl, sweeps _ _ _ _ _ _ r rfl⟩

/-! ## A lease without an end -/

/-- Another row that has run out. -/
def laterRow : Subscription := { dueRow 60 with id := .drawn 1, channelId := "b" }

/-- A row with a lease that no instant is left for, and another one. -/
def endlessShared : Shared :=
  ⟨.memory ⟨[dueRow 9000000000000000, laterRow]⟩, .memory {}, [], [], false, false⟩

theorem endlessShared_findExpiring :
    (endlessShared.subscriptions.answer (.findExpiring ⟨0⟩ 2)).1 =
      some (.ok [dueRow 9000000000000000, laterRow]) := by
  let rows : Store.MemorySubscriptions := ⟨[dueRow 9000000000000000, laterRow]⟩
  have active : rows.dueActive ⟨0⟩ = [dueRow 9000000000000000, laterRow] :=
    List.mergeSort_of_pairwise (by decide)
  have retries : rows.dueRetries ⟨0⟩ = [] := List.mergeSort_nil
  show some (Except.ok (rows.expiring ⟨0⟩ 2)) = _
  rw [Store.MemorySubscriptions.expiring, active, retries]
  rfl

/-- The rows are listed and the hub accepts the first one without naming a lease: the sweep breaks
down without a report, and the other row is not attempted. -/
theorem sweep_lost :
    ∃ ms s t, Run Errand.flow (.start endlessShared) ms s ∧
      s.threads[0]? = some ⟨.sweep ⟨1, 0, 2, 1⟩, t⟩ ∧ s.shared.stopped = false ∧
      ⟨.subscriptions (.findExpiring ⟨0⟩ 2), some (.ok [dueRow 9000000000000000, laterRow])⟩ ∈
        past ⟨0, none⟩ ms ∧
      t.rest = .crash ∧ t.result? = none ∧
      calls ⟨0, some 0⟩ ms = [.hubUnlessStopped (dueRow 9000000000000000).hubRequest] ∧
      calls ⟨0, some 1⟩ ms = [] := by
  have r : Run Errand.flow (.start endlessShared) [] (.start endlessShared) := .start
  have r := r.quiet (.begin _ (.sweep ⟨1, 0, 2, 1⟩))
  have r := r.move (Step.answer (i := 0) rfl true (by exact ⟨rfl, rfl⟩) id False.elim)
  have r := r.move (Step.read (i := 0) rfl)
  have r := r.move (Step.answer (i := 0) rfl
    (some (Except.ok [dueRow 9000000000000000, laterRow]))
    (by exact Or.inl ⟨endlessShared_findExpiring.symm, rfl⟩) id False.elim)
  have r := r.quiet (.quiet (i := 0) rfl .fork)
  have r := r.quiet (.quiet (i := 0) rfl (.begin (by decide) rfl))
  have r := r.move (.move (i := 0) rfl
    (.renewal (k := 0) rfl (.answer (a := false) (by exact ⟨rfl, rfl⟩) id False.elim)))
  have r := r.move (.move (i := 0) rfl (.renewal (k := 0) rfl (.call (by exact rfl))))
  have r := r.move (.move (i := 0) rfl
    (.renewal (k := 0) rfl (.answer (a := some (.ok ⟨true, 202, none⟩))
      (by exact ⟨iff_of_false (Option.some_ne_none _) Bool.false_ne_true, rfl⟩) id fun _ => rfl)))
  have r := r.move (.move (i := 0) rfl
    (.renewal (k := 0) rfl (.answer (a := Instant.mk 0) (by exact ⟨isReading_epoch, rfl⟩)
      id False.elim)))
  have r := r.move (.move (i := 0) rfl (.broken (k := 0) rfl))
  have r := r.move (Step.answer (i := 0) rfl () (by exact rfl) id False.elim)
  exact ⟨_, _, _, r, rfl, rfl, List.mem_cons_of_mem _ (List.mem_cons_of_mem _ List.mem_cons_self),
    rfl, rfl, rfl, rfl⟩

end WebSub.Sweep
