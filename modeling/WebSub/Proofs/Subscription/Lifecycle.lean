import WebSub.Proofs.Subscription.Freshness

/-!
# The lifecycle of rows

Chores one after another, whatever the hub answers and whichever store calls fail: a status changes
along the edges of the diagram only, a row becomes active when the hub has accepted it, and expired
when an active row has run out.
-/

namespace WebSub.Chore

open Interleaving

variable {w : Shared} {ms : List (Move Chore)} {s : System Chore Result} {m : Move Chore}
  {own : List Exchange} {c : Store.SubscriptionCall} {r r' : Subscription} {now : Instant}
  {j k q : Nat}

/-! ## One move -/

/-- What a call makes of a row at an instant. -/
inductive Advance (own : List Exchange) (c : Store.SubscriptionCall) (now : Instant)
    (r r' : Subscription) : Prop
  | written {store : Store.Subscriptions} {y : Subscription} (update : c = .update y)
      (becomes : Becomes own now r y) (columns : r' = store.written y r)
  | lapsed (marks : c = .markLapsed now) (swept : r' = (r.markExpired now).1)

namespace Advance

theorem status (h : Advance own c now r r') (changed : r'.status ≠ r.status) :
    r.status.canBecome r'.status = true := by
  cases h with
  | @written store y update becomes columns =>
    obtain ⟨-, -, status, -⟩ := store.written_columns (y := y) (r := r)
    rw [columns, status] at changed ⊢
    rcases becomes.status with same | active | failed
    · exact absurd same changed
    · rw [active]
      cases r.status <;> rfl
    · rw [failed]
      cases r.status <;> rfl
  | lapsed marks swept =>
    rw [Subscription.markExpired_eq] at swept
    split at swept
    case isTrue lapsed =>
      have active : r.status = .active := by
        simp only [Subscription.isLapsed, Bool.and_eq_true, beq_iff_eq] at lapsed
        exact lapsed.1
      rw [swept, active]
      rfl
    case isFalse =>
      rw [swept] at changed
      exact absurd rfl changed

theorem accepted (h : Advance own c now r r') (idle : r.status ≠ .active)
    (moved : r'.status = .active ∨ r.expiresAt < r'.expiresAt) :
    ∃ response, Answered own r (.ok response) := by
  cases h with
  | @written store y update becomes columns =>
    obtain ⟨-, expiry, status, -⟩ := store.written_columns (y := y) (r := r)
    rw [columns, status, expiry] at moved
    refine becomes.accepted idle (moved.imp_right ?_)
    intro later same
    rw [same] at later
    exact Int.lt_irrefl _ later
  | lapsed marks swept =>
    have unlapsed : ¬ r.isLapsed now := by
      simp [Subscription.isLapsed, idle]
    rw [Subscription.markExpired_eq, if_neg unlapsed] at swept
    rw [swept] at moved
    rcases moved with active | later
    · exact absurd active idle
    · exact absurd later (Int.lt_irrefl _)

theorem expired (h : Advance own c now r r') (expired : r'.status = .expired)
    (before : r.status ≠ .expired) :
    r.status = .active ∧ c = .markLapsed now ∧ r.expiresAt < now := by
  cases h with
  | @written store y update becomes columns =>
    obtain ⟨-, -, status, -⟩ := store.written_columns (y := y) (r := r)
    rw [columns, status] at expired
    rcases becomes.status with same | active | failed
    · rw [← same] at before
      exact absurd expired before
    · rw [active] at expired
      cases expired
    · rw [failed] at expired
      cases expired
  | lapsed marks swept =>
    rw [Subscription.markExpired_eq] at swept
    split at swept
    case isTrue lapsed =>
      simp only [Subscription.isLapsed, Bool.and_eq_true, beq_iff_eq, decide_eq_true_eq] at lapsed
      exact ⟨lapsed.1, marks, lapsed.2⟩
    case isFalse =>
      rw [swept] at expired
      exact absurd expired before

theorem updatedAt (h : Advance own c now r r') :
    r'.updatedAt = now ∨ r'.updatedAt = r.updatedAt := by
  cases h with
  | @written store y update becomes columns =>
    obtain ⟨-, -, -, -, -, updatedAt⟩ := store.written_columns (y := y) (r := r)
    rw [columns, updatedAt]
    exact Or.inl becomes.updatedAt
  | lapsed marks swept =>
    rw [swept, Subscription.markExpired_eq]
    split
    · exact Or.inl rfl
    · exact Or.inr rfl

end Advance

section

variable (blank : w.subscriptions.rows = []) (run : Run flow (.start w) ms s)

include blank run

theorem advance (turn : InTurn ms) (at_q : ms[q]? = some m)
    (hr : r ∈ m.before.subscriptions.rows) (hr' : r' ∈ m.after.subscriptions.rows)
    (same : r'.id = r.id) :
    r' = r ∨ ∃ c b now, m.deed = .answered ⟨.subscriptions c, b⟩ ∧
      Advance (past m.actor (ms.take q)) c now r r' ∧ ReadBefore ms r.updatedAt now := by
  have ids := uniqueIds_before (Store.Subscriptions.uniqueIds_of_blank blank) run at_q
  have conforms := (orderly run).conforms_at at_q
  rcases (run.allowed m (List.mem_of_getElem? at_q)).subscriptions with still | ⟨c, deed, after⟩
  · rw [still] at hr'
    exact Or.inl (List.inj_on_of_nodup_map ids hr' hr same)
  · rw [after] at hr'
    have called := calls conforms (by rw [deed]; rfl)
    rcases ids.row_answer hr hr' same with unchanged | ⟨y, rfl, row, written⟩ | ⟨now, rfl, swept⟩
    · exact Or.inl unchanged
    · refine Or.inr ?_
      have fresh : ∃ now, Fresh ms m (past m.actor (ms.take q)) y r now := by
        have here := ids.get? hr
        rw [← row] at here
        cases called with
        | errand alone operation writes timely =>
          obtain ⟨copy, now, fresh⟩ := fresh_of_errand blank run turn at_q alone operation writes
          have stored := fresh.stored
          rw [here, Option.some.injEq] at stored
          rw [stored]
          exact ⟨now, fresh⟩
        | lapse alone operation marks reading => cases marks
        | renewal renews asked =>
          obtain ⟨now, fresh⟩ := fresh_of_renewal blank run turn at_q renews asked
          have stored := fresh.stored
          rw [here, Option.some.injEq] at stored
          rw [stored]
          exact ⟨now, fresh⟩
      obtain ⟨now, fresh⟩ := fresh
      exact ⟨_, _, now, deed, .written rfl fresh.becomes written, fresh.dated⟩
    · refine Or.inr ⟨_, _, now, deed, .lapsed rfl swept, ?_⟩
      rw [← storeAt_before s.shared at_q] at hr
      have last : ∃ n < q, ReadAt ms n now ∧ ∀ j t, n < j → j < q → ¬ ReadAt ms j t := by
        cases called with
        | errand alone operation asked timely =>
          obtain ⟨before, path, joined⟩ := timely
          exact unread_since turn run at_q alone path (List.forall_mem_nil _) (Or.inr joined)
        | lapse alone operation marks reading =>
          cases marks
          have path : past m.actor (ms.take q) = [] ++ ⟨.now, now⟩ :: [] := reading
          refine unread_since turn run at_q alone path (List.forall_mem_nil _) (Or.inl ?_)
          intro settings sweeps
          rw [operation] at sweeps
          cases sweeps
        | renewal renews asked => exact asked.elim
      obtain ⟨n, -, read, quiet⟩ := last
      exact readBefore_of_stored blank run read hr quiet

/-! ## From moves to runs -/

theorem onward {R : Subscription → Subscription → Prop} (refl : ∀ r, R r r)
    (trans : ∀ r₁ r₂ r₃, R r₁ r₂ → R r₂ r₃ → R r₁ r₃)
    (step : ∀ (k : Nat) (m : Move Chore), ms[k]? = some m → ∀ r ∈ m.before.subscriptions.rows,
      ∀ r' ∈ m.after.subscriptions.rows, r'.id = r.id → R r r')
    (jk : j ≤ k) (hr : r ∈ (storeAt ms s.shared j).rows)
    (hr' : r' ∈ (storeAt ms s.shared k).rows) (same : r'.id = r.id) : R r r' := by
  induction jk generalizing r' with
  | refl =>
    obtain ⟨s', first, here⟩ := run_take run j
    rw [here] at hr hr'
    have ids := uniqueIds_of_run (Store.Subscriptions.uniqueIds_of_blank blank) first
    rw [List.inj_on_of_nodup_map ids hr' hr same]
    exact refl r
  | @step n jn ih =>
    cases at_n : ms[n]? with
    | none =>
      have past_end := List.getElem?_eq_none_iff.mp at_n
      rw [storeAt_end _ (by omega)] at hr'
      rw [storeAt_end _ past_end] at ih
      exact ih hr' same
    | some m =>
      by_cases there : ∃ x ∈ (storeAt ms s.shared n).rows, x.id = r.id
      · obtain ⟨x, hx, row⟩ := there
        have before := ih hx row
        rw [storeAt_before _ at_n] at hx
        rw [storeAt_succ run at_n] at hr'
        exact trans r x r' before (step n m at_n x hx r' hr' (same.trans row.symm))
      · have absent : ∀ x ∈ (storeAt ms s.shared n).rows, x.id ≠ r.id :=
          fun x hx row => there ⟨x, hx, row⟩
        exact absurd same (absent_onward blank run hr jn absent (Nat.le_succ n) r' hr')

end

/-! ## The whole -/

/-- How rows live, from move to move and over a whole run. -/
structure LifecycleKept (ms : List (Move Chore)) (s : System Chore Result) : Prop where
  /-- A new row is pending. -/
  born : ∀ (k : Nat) (m : Move Chore), ms[k]? = some m → ∀ r ∈ m.after.subscriptions.rows,
    (∀ x ∈ m.before.subscriptions.rows, x.id ≠ r.id) → r.status = .pending
  edges : ∀ (k : Nat) (m : Move Chore), ms[k]? = some m → ∀ r ∈ m.before.subscriptions.rows,
    ∀ r' ∈ m.after.subscriptions.rows, r'.id = r.id → r'.status ≠ r.status →
      r.status.canBecome r'.status = true
  /-- What makes a row active, or lets one run longer that is not, follows an accepted request for
  it. -/
  accepted : ∀ (k : Nat) (m : Move Chore), ms[k]? = some m → ∀ r ∈ m.before.subscriptions.rows,
    ∀ r' ∈ m.after.subscriptions.rows, r'.id = r.id → r.status ≠ .active →
      (r'.status = .active ∨ r.expiresAt < r'.expiresAt) →
        ∃ response, Answered (past m.actor (ms.take k)) r (.ok response)
  /-- Only an active row that has run out expires. -/
  expired : ∀ (k : Nat) (m : Move Chore), ms[k]? = some m → ∀ r ∈ m.before.subscriptions.rows,
    ∀ r' ∈ m.after.subscriptions.rows, r'.id = r.id → r'.status = .expired → r.status ≠ .expired →
      r.status = .active ∧ ∃ now b,
        m.deed = .answered ⟨.subscriptions (.markLapsed now), b⟩ ∧ r.expiresAt < now
  /-- No row becomes pending again. -/
  settled : ∀ j k, j ≤ k → ∀ r ∈ (storeAt ms s.shared j).rows,
    ∀ r' ∈ (storeAt ms s.shared k).rows, r'.id = r.id → r.status ≠ .pending → r'.status ≠ .pending
  updatedAt : Steady ms → ∀ j k, j ≤ k → ∀ r ∈ (storeAt ms s.shared j).rows,
    ∀ r' ∈ (storeAt ms s.shared k).rows, r'.id = r.id → r.updatedAt ≤ r'.updatedAt

theorem pending_of_new (run : Run flow (.start w) ms s) (at_k : ms[k]? = some m)
    (hr : r ∈ m.after.subscriptions.rows)
    (new : ∀ x ∈ m.before.subscriptions.rows, x.id ≠ r.id) : r.status = .pending := by
  rcases (run.allowed m (List.mem_of_getElem? at_k)).subscriptions with still | ⟨c, deed, after⟩
  · rw [still] at hr
    exact absurd rfl (new r hr)
  · rw [after] at hr
    rcases Store.Subscriptions.id_of_mem_answer hr with ⟨old, hold, row⟩ | rfl
    · exact absurd row (new old hold)
    · obtain ⟨e, drafts⟩ := drafts_of_create run at_k (by rw [deed]; rfl)
      exact drafts.pending

/-- From an empty store, with chores one after another. -/
theorem lifecycle_kept (turn : InTurn ms) (blank : w.subscriptions.rows = [])
    (run : Run flow (.start w) ms s) : LifecycleKept ms s where
  born := fun k m at_k r hr new => pending_of_new run at_k hr new
  edges := by
    intro k m at_k r hr r' hr' same changed
    rcases advance blank run turn at_k hr hr' same with rfl | ⟨c, b, now, -, advanced, -⟩
    · exact absurd rfl changed
    · exact advanced.status changed
  accepted := by
    intro k m at_k r hr r' hr' same idle moved
    rcases advance blank run turn at_k hr hr' same with rfl | ⟨c, b, now, -, advanced, -⟩
    · rcases moved with active | later
      · exact absurd active idle
      · exact absurd later (Int.lt_irrefl _)
    · exact advanced.accepted idle moved
  expired := by
    intro k m at_k r hr r' hr' same expired before
    rcases advance blank run turn at_k hr hr' same with rfl | ⟨c, b, now, deed, advanced, -⟩
    · exact absurd expired before
    · obtain ⟨active, rfl, late⟩ := advanced.expired expired before
      exact ⟨active, now, b, deed, late⟩
  settled := by
    intro j k jk r hr r' hr' same
    refine onward (R := fun r r' => r.status ≠ .pending → r'.status ≠ .pending) blank run
      (fun _ h => h) (fun _ _ _ h h' => h' ∘ h) ?_ jk hr hr' same
    intro k m at_k r hr r' hr' same before after
    rcases advance blank run turn at_k hr hr' same with rfl | ⟨c, b, now, -, advanced, -⟩
    · exact before after
    · have edge := advanced.status (by rw [after]; exact Ne.symm before)
      rw [after] at edge
      cases edge
  updatedAt := by
    intro steady j k jk r hr r' hr' same
    refine onward (R := fun r r' => r.updatedAt ≤ r'.updatedAt) blank run
      (fun _ => Int.le_refl _) (fun _ _ _ => Int.le_trans) ?_ jk hr hr' same
    intro k m at_k r hr r' hr' same
    rcases advance blank run turn at_k hr hr' same with rfl | ⟨c, b, now, -, advanced, dated⟩
    · exact Int.le_refl _
    · rcases advanced.updatedAt with at_now | kept
      · obtain ⟨i, n, order, first, second⟩ := dated
        rw [at_now]
        exact steady i n _ _ order first second
      · rw [kept]
        exact Int.le_refl _

/-- A subscription is accepted, and a lapse is marked after its lease. -/
theorem lifecycle_kept_lapse :
    ∃ ms s, InTurn ms ∧ Shared.empty.subscriptions.rows = [] ∧ Run flow (.start .empty) ms s ∧
      s.shared.subscriptions.rows =
        [{ Errand.plainRow .expired none with updatedAt := ⟨61000000000⟩ }] ∧
      LifecycleKept ms s := by
  have late : IsReading ⟨61000000000⟩ := by constructor <;> decide
  have r : Run flow (.start .empty) [] (.start .empty) := .start
  have r := r.quiet (.begin _ (.errand .plain))
  have r := r.move (Step.answer (i := 0) rfl (some (Except.ok none)) (by exact Or.inl ⟨rfl, rfl⟩)
    id False.elim)
  have r := r.move (Step.draw (i := 0) rfl (.drawn 0) List.not_mem_nil)
  have r := r.move (Step.read (i := 0) rfl)
  have r : Run flow (.start .empty) _
      ⟨⟨.table ⟨[Errand.plainRow .pending none]⟩, .table {}, [.drawn 0], [], false, false⟩, _⟩ :=
    r.move (Step.answer (i := 0) rfl _ (by exact Or.inl ⟨rfl, rfl⟩) id False.elim)
  have r := r.move (Step.call (i := 0) rfl (by exact trivial))
  have r := r.move (Step.answer (i := 0) rfl (Except.ok (Hub.Response.mk true 202 none))
    (by exact rfl) id fun _ => rfl)
  have r := r.move (Step.read (i := 0) rfl)
  have r : Run flow (.start .empty) _
      ⟨⟨.table ⟨[Errand.plainRow .active none]⟩, .table {}, [.drawn 0], [], false, false⟩, _⟩ :=
    r.move (Step.answer (i := 0) rfl _ (by exact Or.inl ⟨rfl, rfl⟩) id False.elim)
  have r := r.quiet (.begin _ .lapse)
  have r := r.move (Step.answer (i := 1) rfl (Instant.mk 61000000000) (by exact ⟨late, rfl⟩) id
    False.elim)
  have r := r.move (Step.answer (i := 1) rfl _ (by exact Or.inl ⟨rfl, rfl⟩) id False.elim)
  obtain ⟨ms, s, r, turns, rows⟩ : ∃ ms s, Run flow (.start .empty) ms s ∧
      ms.map (·.actor.thread) = [0, 0, 0, 0, 0, 0, 0, 0, 1, 1] ∧ s.shared.subscriptions.rows =
        [{ Errand.plainRow .expired none with updatedAt := ⟨61000000000⟩ }] := ⟨_, _, r, rfl, rfl⟩
  have turn : InTurn ms := by
    unfold InTurn
    rw [turns]
    decide
  exact ⟨ms, s, turn, rfl, r, rows, lifecycle_kept turn rfl r⟩

end WebSub.Chore
