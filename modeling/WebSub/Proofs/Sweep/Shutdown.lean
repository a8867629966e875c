import WebSub.Proofs.Interleaving.Turns
import WebSub.Proofs.Sweep.Rows

/-!
# Sweeps and the shutdown

The shutdown may come at any moment of a sweep. It never leaves a row half renewed: no call to the
hub leaves after it, no marking is begun after it, and a row is written whole or not at all.
-/

namespace WebSub.Sweep

open Interleaving

variable {w : Shared} {ms : List (Move Errand)} {s : System Errand Errand.Result}
  {settings : Settings} {i k n q : Nat} {m : Move Errand} {r y : Subscription}

/-- A marking that the store is asked for. -/
def Marks (m : Move Errand) : Prop := ∃ t a, m.deed = .answered ⟨.subscriptions (.markLapsed t), a⟩

/-- A renewal is skipped: it has seen the shutdown. -/
def Skips (own : List Exchange) : Prop :=
  ⟨.stopped, true⟩ ∈ own ∨ ∃ h, ⟨.hubUnlessStopped h, none⟩ ∈ own

/-! ## Marking -/

theorem begun_of_marks (solo : Solo settings w ms s i) (at_q : ms[q]? = some m)
    (thread : m.actor.thread = i) (marks : Marks m) :
    ∃ n m' rows ended, n < q ∧ ms[n]? = some m' ∧ m'.actor = ⟨i, none⟩ ∧
      m'.deed = .answered ⟨.stopped, false⟩ ∧ m'.before.stopped = false ∧
        Joined settings (past ⟨i, none⟩ (ms.take n)) rows ended := by
  obtain ⟨t, a, deed⟩ := marks
  cases place : m.actor.renewal with
  | some k =>
    have actor : m.actor = ⟨i, some k⟩ := by rw [← thread, ← place]
    obtain ⟨rows, r, -, -, steps⟩ :=
      steps_of_renewal (orderly solo.run) solo.mine (split_at at_q) actor
    rw [deed] at steps
    exact steps.elim
  | none =>
    have actor : m.actor = ⟨i, none⟩ := by rw [← thread, ← place]
    have steps := steps_of_sweep (orderly solo.run) solo.mine (split_at at_q) actor
    rw [deed] at steps
    obtain ⟨head, rows, ended, joined, own⟩ := steps
    obtain ⟨n, m', before, at_n, actor', deed', own', -⟩ := position_of_past own
    have looked := (solo.run.allowed m' (List.mem_of_getElem? at_n)).answered deed'
    refine ⟨n, m', rows, ended, before, at_n, actor', deed', looked.1.symm, ?_⟩
    rw [own']
    exact joined

theorem stopped_of_skips (run : Run Errand.flow (.start w) ms s)
    (skips : Skips (past ⟨i, some k⟩ ms)) :
    ∃ m ∈ ms, m.actor = ⟨i, some k⟩ ∧ m.before.stopped = true := by
  rcases skips with seen | ⟨h, abandoned⟩
  · exact stopped_of_look run seen
  · exact stopped_of_abandoned run abandoned

theorem not_marks_of_skips (solo : Solo settings w ms s i) (skips : Skips (past ⟨i, some k⟩ ms)) :
    ∀ m ∈ ms, m.actor.thread = i → ¬ Marks m := by
  intro m hm thread marks
  obtain ⟨q, at_q⟩ := List.mem_iff_getElem?.mp hm
  obtain ⟨n, m', rows, ended, -, at_n, -, -, running, joined⟩ :=
    begun_of_marks solo at_q thread marks
  obtain ⟨m'', hm'', actor, stopped⟩ := stopped_of_skips solo.run skips
  obtain ⟨p, at_p⟩ := List.mem_iff_getElem?.mp hm''
  rcases Nat.lt_or_ge p n with before | after
  · have late := stopped_onward solo.run at_p at_n (Nat.le_of_lt before) stopped
    rw [running] at late
    cases late
  · -- Renewals move before they are joined, and the look comes after that.
    obtain ⟨head, ⟨t, reach, -, rfl⟩, own⟩ := joined
    refine no_renewal_after solo (List.take_append_drop n ms).symm ?_ m'' ?_ k actor
    · rw [own]
      simp
    · refine List.mem_of_getElem? (i := p - n) ?_
      rw [List.getElem?_drop, Nat.add_sub_cancel' after]
      exact at_p

/-! ## Reports -/

theorem counts_add (l : List Renewal) :
    l.count .renewed + l.count .failed + l.count .skipped = l.length := by
  induction l with
  | nil => rfl
  | cons o l ih =>
    cases o <;> simp <;> omega

theorem reported (solo : Solo settings w ms s i) {t : Thread Errand Errand.Result}
    (at_i : s.threads[i]? = some t) (operation : t.operation = .sweep settings) {report : Report}
    (result : t.task.result? = some (.swept (.ok report))) :
    ∃ head marks rest rows ended out, Joined settings head rows ended ∧
      Marking marks report.lapsed ∧ past ⟨i, none⟩ ms = head ++ marks ++ rest ∧
      (∀ x ∈ rest, IsClosing x.request) ∧ taken i ms = rows ∧
      Closed renewal rows (fun k => past ⟨i, some k⟩ ms) (fun k => calls ⟨i, some k⟩ ms) ended out ∧
      report = .ofRenewals out report.lapsed := by
  have ends := (orderly solo.run).ended at_i result
  rw [operation] at ends
  obtain ⟨x, same, course⟩ := ends
  cases same
  generalize own_eq : past ⟨i, none⟩ ms = own at course
  cases course with
  | @reported head marks rest rows ended lapsed joined marking closing =>
    obtain ⟨taken, out, closed⟩ := closed_of_joined solo joined
      (by rw [own_eq, List.append_assoc])
    refine ⟨head, marks, rest, rows, ended, out, joined, marking, rfl, closing, taken, closed, ?_⟩
    simp only [Report.ofRenewals, closed.ended.count_eq]

/-! ## The whole -/

/-- What holds of a sweep whenever the shutdown comes. -/
structure Whole (settings : Settings) (w : Shared) (ms : List (Move Errand))
    (s : System Errand Errand.Result) (i : Nat) : Prop where
  /-- No call leaves after the shutdown. -/
  calls : ∀ m ∈ ms, m.actor.thread = i → ∀ p, m.deed = .called p → m.before.stopped = false
  /-- No marking is begun after the shutdown, nor before the renewals were joined. -/
  marks : ∀ (q : Nat) m, ms[q]? = some m → m.actor.thread = i → Marks m →
    ∃ n m' rows ended, n < q ∧ ms[n]? = some m' ∧ m'.actor = ⟨i, none⟩ ∧
      m'.deed = .answered ⟨.stopped, false⟩ ∧ m'.before.stopped = false ∧
        Joined settings (past ⟨i, none⟩ (ms.take n)) rows ended
  /-- Each row is what it was or the whole of what one answer makes of it, unless it was marked. -/
  rows : ∃ mid, List.Forall₂ (Left i ms) w.subscriptions.rows mid ∧
    (s.shared.subscriptions.rows = mid ∨ ∃ m ∈ ms, m.actor.thread = i ∧ ∃ t n,
      m.deed = .answered ⟨.subscriptions (.markLapsed t), some (.ok n)⟩ ∧
        s.shared.subscriptions.rows = mid.map fun r => (r.markExpired t).1)
  /-- After the renewals were joined, none of them moves. -/
  finished : ∀ pre post rows ended, ms = pre ++ post →
    ⟨.renewAll settings.width rows, some ended⟩ ∈ past ⟨i, none⟩ pre →
      ∀ m ∈ post, ∀ k, m.actor ≠ ⟨i, some k⟩
  /-- A skipped row is never written, and then nothing is marked. -/
  skipped : ∀ k, Skips (past ⟨i, some k⟩ ms) →
    (∀ y a, ⟨.subscriptions (.update y), a⟩ ∉ past ⟨i, some k⟩ ms) ∧
      ∀ m ∈ ms, m.actor.thread = i → ¬ Marks m
  /-- The report accounts for each row that was due, and counts those as skipped that were. -/
  report : ∀ t report, s.threads[i]? = some t → t.operation = .sweep settings →
    t.task.result? = some (.swept (.ok report)) →
      report.attempted + report.skipped = (taken i ms).length ∧
      ∃ out : List Renewal, out.length = (taken i ms).length ∧
        report = .ofRenewals out report.lapsed ∧
        (∀ k : Nat, out[k]? = some .skipped ↔
          k < (taken i ms).length ∧ Skips (past ⟨i, some k⟩ ms)) ∧
        (report.skipped ≠ 0 → report.lapsed = 0 ∧ ∀ m ∈ ms, m.actor.thread = i → ¬ Marks m)
  /-- A sweep that only begins after the shutdown changes no row and calls nobody. -/
  late : (∀ m ∈ ms, m.actor.thread = i → m.before.stopped = true) →
    s.shared.subscriptions.rows = w.subscriptions.rows ∧
      ∀ m ∈ ms, m.actor.thread = i → ∀ p, m.deed ≠ .called p

theorem running_of_called (solo : Solo settings w ms s i) (hm : m ∈ ms)
    (thread : m.actor.thread = i) {p : Request} (deed : m.deed = .called p) :
    m.before.stopped = false := by
  obtain ⟨k, r, -, -, rfl⟩ := called_of_solo solo hm thread deed
  exact ((solo.run.allowed m hm).called deed).1

theorem rows_of_solo (solo : Solo settings w ms s i) :
    ∃ mid, List.Forall₂ (Left i ms) w.subscriptions.rows mid ∧
      (s.shared.subscriptions.rows = mid ∨ ∃ m ∈ ms, m.actor.thread = i ∧ ∃ t n,
        m.deed = .answered ⟨.subscriptions (.markLapsed t), some (.ok n)⟩ ∧
          s.shared.subscriptions.rows = mid.map fun r => (r.markExpired t).1) := by
  refine ⟨w.subscriptions.rows.map (renewed i ms), ?_, ?_⟩
  · rw [List.forall₂_map_right_iff, List.forall₂_same]
    exact fun r stored => left_of_renewed solo stored
  · rw [solo.stands.rows]
    simp only [List.map_map]
    unfold swept
    cases marking : (past ⟨i, none⟩ ms).findSome? marked? with
    | none => exact Or.inl rfl
    | some t =>
      obtain ⟨e, he, marked⟩ := List.exists_of_findSome?_eq_some marking
      obtain ⟨m, hm, actor, deed⟩ := mem_past.mp he
      unfold marked? at marked
      split at marked
      case h_1 t' n =>
        cases marked
        exact Or.inr ⟨m, hm, by rw [actor], t, n, deed, rfl⟩
      case h_2 => cases marked

theorem unwritten_of_skips (solo : Solo settings w ms s i) (skips : Skips (past ⟨i, some k⟩ ms))
    (y : Subscription) (a : Option (Except Store.Error Subscription)) :
    ⟨.subscriptions (.update y), a⟩ ∉ past ⟨i, some k⟩ ms := by
  intro wrote
  obtain ⟨m, hm, actor, -⟩ := mem_past.mp wrote
  obtain ⟨pre, post, split⟩ := List.append_of_mem hm
  obtain ⟨rows, r, found, row, -⟩ := steps_of_renewal (orderly solo.run) solo.mine split actor
  have at_k : (taken i ms)[k]? = some r := by
    rw [split, taken_of_found found]
    exact row
  obtain ⟨result, t, path, -⟩ := path_of_write solo at_k wrote
  rcases skips with skips | ⟨h, skips⟩
  · rw [path] at skips
    simp at skips
  · rw [path] at skips
    simp at skips

theorem Outcome.skipped_iff {own : List Exchange} {o : Renewal} (h : Outcome r own o) :
    o = .skipped ↔ Skips own := by
  cases h with
  | early => simp [Skips]
  | late => simp [Skips]
  | @tried result t y a change =>
    have tried : verdict result a ≠ .skipped := by
      cases result <;> cases a <;> simp [verdict]
    simp [Skips, tried]

theorem lapsed_of_unmarked {head marks rest : List Exchange} {lapsed : Nat}
    (marking : Marking marks lapsed) (own : past ⟨i, none⟩ ms = head ++ marks ++ rest)
    (unmarked : ∀ m ∈ ms, m.actor.thread = i → ¬ Marks m) : lapsed = 0 := by
  cases marking with
  | stopped => rfl
  | fault => rfl
  | @marked t n =>
    obtain ⟨m, hm, actor, deed⟩ := mem_past.mp
      (show (⟨.subscriptions (.markLapsed t), some (.ok lapsed)⟩ : Exchange) ∈ past ⟨i, none⟩ ms by
        rw [own]; simp)
    exact absurd ⟨t, _, deed⟩ (unmarked m hm (by rw [actor]))

theorem late_of_solo (solo : Solo settings w ms s i)
    (late : ∀ m ∈ ms, m.actor.thread = i → m.before.stopped = true) :
    s.shared.subscriptions.rows = w.subscriptions.rows ∧
      ∀ m ∈ ms, m.actor.thread = i → ∀ p, m.deed ≠ .called p := by
  constructor
  · obtain ⟨mid, left, rows⟩ := rows_of_solo solo
    have same : mid = w.subscriptions.rows := by
      refine (List.forall₂_eq_eq_eq ▸ left.imp ?_ : w.subscriptions.rows = mid).symm
      intro r r' left
      cases left with
      | untouched => rfl
      | @renewed k result t y a row path change =>
        -- It had looked for the shutdown and not seen it.
        obtain ⟨m, hm, actor, running⟩ := stopped_of_look solo.run
          (show ⟨.stopped, false⟩ ∈ past ⟨i, some k⟩ ms by rw [path]; simp)
        have stopped := late m hm (by rw [actor])
        rw [running] at stopped
        cases stopped
    rcases rows with rows | ⟨m, hm, thread, t, n, deed, -⟩
    · rw [rows, same]
    · obtain ⟨q, at_q⟩ := List.mem_iff_getElem?.mp hm
      obtain ⟨n, m', -, -, -, at_n, actor, -, running, -⟩ :=
        begun_of_marks solo at_q thread ⟨t, _, deed⟩
      have stopped := late m' (List.mem_of_getElem? at_n) (by rw [actor])
      rw [running] at stopped
      cases stopped
  · intro m hm thread p deed
    have running := running_of_called solo hm thread deed
    rw [late m hm thread] at running
    cases running

/-- Whenever the shutdown comes, and in whatever order the renewals go on, a sweep leaves its rows
whole. -/
theorem shutdown_whole (solo : Solo settings w ms s i) : Whole settings w ms s i where
  calls := fun m hm thread p deed => running_of_called solo hm thread deed
  marks := fun q m at_q thread marks => begun_of_marks solo at_q thread marks
  rows := rows_of_solo solo
  finished := by
    intro pre post rows ended split joined
    refine no_renewal_after solo split ?_
    obtain ⟨own, rest, path⟩ := List.append_of_mem joined
    obtain ⟨pre', m, post', split', actor, deed, before⟩ := past_split path
    have steps := steps_of_sweep (orderly solo.run) solo.mine
      (show ms = pre' ++ m :: (post' ++ post) by
        rw [split, split', List.append_assoc, List.cons_append]) actor
    rw [deed, before] at steps
    obtain ⟨-, t, reach, -, own_eq⟩ := steps
    rw [path, own_eq]
    simp
  skipped := fun k skips => ⟨unwritten_of_skips solo skips, not_marks_of_skips solo skips⟩
  report := by
    intro t report at_i operation result
    obtain ⟨head, marks, rest, rows, ended, out, joined, marking, own, closing, rfl, closed,
      whole⟩ := reported solo at_i operation result
    have skipped : ∀ k : Nat, out[k]? = some .skipped ↔
        k < (taken i ms).length ∧ Skips (past ⟨i, some k⟩ ms) := by
      intro k
      by_cases inside : k < (taken i ms).length
      · obtain ⟨o, at_k, outcome, -⟩ := closed.each k _ (List.getElem?_eq_getElem inside)
        rw [at_k, Option.some.injEq, Outcome.skipped_iff outcome]
        simp [inside]
      · rw [List.getElem?_eq_none (by rw [closed.length]; omega)]
        simp [inside]
    refine ⟨?_, out, closed.length, whole, skipped, ?_⟩
    · rw [← closed.length, ← counts_add out, whole]
      rfl
    · intro some_skipped
      rw [whole] at some_skipped
      have there : .skipped ∈ out := List.count_pos_iff.mp (Nat.pos_of_ne_zero some_skipped)
      obtain ⟨k, at_k⟩ := List.mem_iff_getElem?.mp there
      have unmarked := not_marks_of_skips solo ((skipped k).mp at_k).2
      exact ⟨lapsed_of_unmarked marking own unmarked, unmarked⟩
  late := late_of_solo solo

/-- The shutdown comes while the hub is called about the only row. -/
theorem shutdown_whole_skipped :
    ∃ ms s, Solo plainSettings (plainShared 60) ms s 0 ∧
      (s.threads[0]?).bind (·.task.result?) = some (.swept (.ok ⟨0, 0, 0, 1, 0⟩)) ∧
      s.shared.subscriptions.rows = [dueRow 60] ∧ s.shared.stopped = true ∧
      calls ⟨0, some 0⟩ ms = [.hubUnlessStopped (dueRow 60).hubRequest] ∧
      Whole plainSettings (plainShared 60) ms s 0 := by
  have r : Run Errand.flow (.start (plainShared 60)) [] (.start (plainShared 60)) := .start
  have r := r.quiet (.begin _ (.sweep plainSettings))
  have r := r.move (Step.answer (i := 0) rfl true (by exact ⟨rfl, rfl⟩) id False.elim)
  have r := r.move (Step.read (i := 0) rfl)
  have r := r.move (Step.answer (i := 0) rfl (some (Except.ok [dueRow 60]))
    (by exact Or.inl ⟨(plainShared_findExpiring 60).symm, rfl⟩) id False.elim)
  have r := r.quiet (.quiet (i := 0) rfl .fork)
  have r := r.quiet (.quiet (i := 0) rfl (.begin (by decide) rfl))
  have r := r.move (.move (i := 0) rfl
    (.renewal (k := 0) rfl (.answer (a := false) (by exact ⟨rfl, rfl⟩) id False.elim)))
  have r := r.move (.move (i := 0) rfl (.renewal (k := 0) rfl (.call (by exact rfl))))
  have r := r.quiet (.shutDown _)
  have r := r.move (.move (i := 0) rfl
    (.renewal (k := 0) rfl (.answer (a := none) (by exact ⟨⟨fun _ => rfl, fun _ => rfl⟩, rfl⟩) id
      fun _ => rfl)))
  have r := r.quiet (.quiet (i := 0) rfl (.finish (k := 0) rfl))
  have r := r.move (.move (i := 0) rfl (.joined ⟨rfl, rfl⟩))
  have r := r.move (Step.answer (i := 0) rfl true (by exact ⟨rfl, rfl⟩) id False.elim)
  have r := r.move (Step.answer (i := 0) rfl () (by exact rfl) id False.elim)
  have r := r.move (Step.answer (i := 0) rfl () (by exact rfl) id False.elim)
  have r := r.move (Step.answer (i := 0) rfl () (by exact rfl) id False.elim)
  have r := r.move (Step.answer (i := 0) rfl () (by exact rfl) id False.elim)
  have r := r.move (Step.answer (i := 0) rfl () (by exact rfl) id False.elim)
  have r := r.move (Step.answer (i := 0) rfl () (by exact rfl) id False.elim)
  have solo : Solo plainSettings (plainShared 60) _ _ 0 :=
    .of_run (n := 14) (plainShared_uniqueIds 60) r rfl
  exact ⟨_, _, solo, rfl, rfl, rfl, rfl, shutdown_whole solo⟩

end WebSub.Sweep
