import WebSub.Proofs.Subscription.Copies

/-!
# The last write wins

While a handshake and a callback about one row are under way, each may write over what the other one
wrote. The later write stands, with all that its copy holds.
-/

namespace WebSub.Errand

open Interleaving

variable {w : Shared} {ms : List (Move Errand)} {s : System Errand Result} {m : Move Errand}
  {id : Uuid} {y : Subscription} {q : Nat}

/-! ## A row over time -/

/-- The row is as it was written last, in the columns that matter. -/
def Holds (r y : Subscription) : Prop := r.status = y.status ∧ r.lastVerifiedAt = y.lastVerifiedAt

/-- Once the row is there, it changes by two writes only. -/
structure TwoWrites (row : Nat → Option Subscription) (q q' : Nat) (y y' : Subscription) :
    Prop where
  stays : ∀ k r, k ≠ q → k ≠ q' → row k = some r → row (k + 1) = some r
  first : ∀ r, row q = some r → ∃ r', row (q + 1) = some r' ∧ Holds r' y
  second : ∀ r, row q' = some r → ∃ r', row (q' + 1) = some r' ∧ Holds r' y'

namespace TwoWrites

variable {row : Nat → Option Subscription} {q' p n : Nat} {y' r : Subscription}

theorem swap (h : TwoWrites row q q' y y') : TwoWrites row q' q y' y :=
  ⟨fun k r ne' ne => h.stays k r ne ne', h.second, h.first⟩

theorem there (h : TwoWrites row q q' y y') (le : p ≤ n) (here : row p = some r) :
    ∃ r', row n = some r' := by
  induction le with
  | refl => exact ⟨r, here⟩
  | @step n le ih =>
    obtain ⟨r', before⟩ := ih
    by_cases first : n = q
    · subst first
      obtain ⟨r₁, after, -⟩ := h.first r' before
      exact ⟨r₁, after⟩
    · by_cases second : n = q'
      · subst second
        obtain ⟨r₁, after, -⟩ := h.second r' before
        exact ⟨r₁, after⟩
      · exact ⟨r', h.stays n r' first second before⟩

theorem same (h : TwoWrites row q q' y y') (le : p ≤ n) (here : row p = some r)
    (between : ∀ k, p ≤ k → k < n → k ≠ q ∧ k ≠ q') : row n = some r := by
  induction le with
  | refl => exact here
  | @step n le ih =>
    have before := ih fun k low high => between k low (by omega)
    obtain ⟨first, second⟩ := between n le (Nat.lt_succ_self n)
    exact h.stays n r first second before

theorem held (h : TwoWrites row q q' y y') (here : row p = some r) (low : p ≤ q) (after : q < n)
    (free : n ≤ q' ∨ q' < q) : ∃ r', row n = some r' ∧ Holds r' y := by
  obtain ⟨r₀, before⟩ := h.there low here
  obtain ⟨r₁, written, holds⟩ := h.first r₀ before
  refine ⟨r₁, h.same after written ?_, holds⟩
  intro k _ _
  omega

end TwoWrites

/-! ## The row that remains -/

theorem after_of_sound {b : (Store.SubscriptionCall.update y).Answer} (sound : m.Sound)
    (allowed : m.Allowed) (deed : m.deed = .answered ⟨.subscriptions (.update y), b⟩) :
    m.after.subscriptions = (m.before.subscriptions.answer (.update y)).2 := by
  have answer := sound.subscriptions deed
  unfold Move.Allowed at allowed
  rw [deed] at allowed
  rcases allowed with ⟨-, after⟩ | ⟨⟨e, fault⟩, after⟩
  · rw [after]
  · rcases Store.Subscriptions.answer_update m.before.subscriptions y with
      ⟨-, same, -⟩ | ⟨⟨r, ok⟩, -⟩
    · rw [after, same]
    · rw [ok] at answer
      rw [answer] at fault
      cases fault

section

variable {a a' : Actor} {p q' : Nat} {y' r : Subscription}

theorem there_of_took (ids : w.subscriptions.UniqueIds) (run : Run flow (.start w) ms s)
    (h : Took ms a p r) : (storeAt ms s.shared (p + 1)).get? r.id = some r := by
  obtain ⟨m, c, v, at_p, -, deed, given⟩ := h
  exact get?_of_given ids run at_p deed given

theorem holds_of_wrote (run : Run flow (.start w) ms s) (wrote : Wrote ms a q y)
    (sound : ∀ x ∈ ms, x.actor = a → x.Sound)
    (here : (storeAt ms s.shared q).get? y.id = some r) :
    ∃ r', (storeAt ms s.shared (q + 1)).get? y.id = some r' ∧ Holds r' y := by
  obtain ⟨m, b, at_q, actor, deed⟩ := wrote
  have hm := List.mem_of_getElem? at_q
  rw [storeAt_before _ at_q] at here
  rw [storeAt_succ run at_q, after_of_sound (sound m hm actor) (run.allowed m hm) deed,
    Store.Subscriptions.get?_update, here, Option.map_some,
    if_pos (Store.Subscriptions.get?_id here)]
  obtain ⟨-, -, status, -, verified, -⟩ := m.before.subscriptions.written_columns (y := y) (r := r)
  exact ⟨_, rfl, status, verified⟩

theorem twoWrites (ids : w.subscriptions.UniqueIds) (run : Run flow (.start w) ms s)
    (wrote : Wrote ms a q y) (wrote' : Wrote ms a' q' y') (row : y.id = id) (row' : y'.id = id)
    (sound : ∀ x ∈ ms, x.actor = a ∨ x.actor = a' → x.Sound)
    (alone : ∀ x ∈ ms, x.actor ≠ a → x.actor ≠ a' →
      x.after.subscriptions.get? id = x.before.subscriptions.get? id) :
    TwoWrites (fun k => (storeAt ms s.shared k).get? id) q q' y y' where
  stays := by
    intro k r other other' here
    cases at_k : ms[k]? with
    | none =>
      have past_end := List.getElem?_eq_none_iff.mp at_k
      rw [storeAt_end _ past_end] at here
      rw [storeAt_end _ (by omega)]
      exact here
    | some x =>
      rw [storeAt_before _ at_k] at here
      rw [storeAt_succ run at_k]
      by_cases actor : x.actor = a
      · obtain ⟨m, b, at_q, writer, deed⟩ := wrote
        rw [← row] at here ⊢
        exact stays_of_writer ids run at_q deed at_k (actor.trans writer.symm) other here
      · by_cases actor' : x.actor = a'
        · obtain ⟨m', b', at_q', writer', deed'⟩ := wrote'
          rw [← row'] at here ⊢
          exact stays_of_writer ids run at_q' deed' at_k (actor'.trans writer'.symm) other' here
        · rw [alone x (List.mem_of_getElem? at_k) actor actor']
          exact here
  first := by
    intro r here
    rw [← row] at here ⊢
    exact holds_of_wrote run wrote (fun x hx same => sound x hx (Or.inl same)) here
  second := by
    intro r here
    rw [← row'] at here ⊢
    exact holds_of_wrote run wrote' (fun x hx same => sound x hx (Or.inr same)) here

theorem row_of_writes {copy seen : Subscription} {result : Hub.Result} {p' : Nat} {t : Instant}
    (ids : w.subscriptions.UniqueIds) (run : Run flow (.start w) ms s)
    (handshake : Handshake ms a p q copy result) (callback : Callback ms a' p' q' seen t)
    (row : copy.id = id) (row' : seen.id = id) (two : a ≠ a')
    (sound : ∀ x ∈ ms, x.actor = a ∨ x.actor = a' → x.Sound)
    (alone : ∀ x ∈ ms, x.actor ≠ a → x.actor ≠ a' →
      x.after.subscriptions.get? id = x.before.subscriptions.get? id) :
    ∃ r, s.shared.subscriptions.get? id = some r ∧
      r.status = (if p' < q ∧ q < q' then seen.status else Subscription.decided result) ∧
      r.lastVerifiedAt = if p < q' ∧ q' < q then copy.lastVerifiedAt else some t := by
  obtain ⟨y, wrote, id_y, decided, kept⟩ := handshake.written
  obtain ⟨y', wrote', id_y', unchanged, verified⟩ := callback.written
  have writes := twoWrites ids run wrote wrote' (id_y.trans row) (id_y'.trans row') sound alone
  have copied := there_of_took ids run handshake.taken
  have looked := there_of_took ids run callback.taken
  rw [row] at copied
  rw [row'] at looked
  have last : storeAt ms s.shared ms.length = s.shared.subscriptions :=
    storeAt_end _ (Nat.le_refl _)
  obtain ⟨m, b, at_q, actor, -⟩ := wrote
  obtain ⟨m', b', at_q', actor', -⟩ := wrote'
  have inside := (List.getElem?_eq_some_iff.mp at_q).1
  have inside' := (List.getElem?_eq_some_iff.mp at_q').1
  rcases Nat.lt_trichotomy q q' with first | rfl | second
  · -- The callback writes last.
    obtain ⟨r, here, status, verified'⟩ :=
      writes.swap.held looked callback.order inside' (Or.inr first)
    simp only [last] at here
    refine ⟨r, here, ?_, ?_⟩
    · rw [status, unchanged]
      split
      case isTrue => rfl
      case isFalse fresh =>
        obtain ⟨r', here', status', -⟩ := writes.held copied handshake.order
          (n := p' + 1) (by omega) (Or.inl callback.order)
        simp only [looked, Option.some.injEq] at here'
        rw [here', status', decided]
    · rw [if_neg (by omega), verified', verified]
  · rw [at_q, Option.some.injEq] at at_q'
    rw [at_q', actor'] at actor
    exact absurd actor.symm two
  · -- The handshake writes last.
    obtain ⟨r, here, status, verified'⟩ := writes.held copied handshake.order inside (Or.inr second)
    simp only [last] at here
    refine ⟨r, here, ?_, ?_⟩
    · rw [if_neg (by omega), status, decided]
    · rw [verified', kept]
      split
      case isTrue => rfl
      case isFalse fresh =>
        obtain ⟨r', here', -, verified''⟩ := writes.swap.held looked callback.order
          (n := p + 1) (by omega) (Or.inl handshake.order)
        simp only [copied, Option.some.injEq] at here'
        rw [here', verified'', verified]

end

/-- A handshake and a callback about a row have finished without a fault, and nobody else has
changed the row. -/
structure Finished (w : Shared) (ms : List (Move Errand)) (s : System Errand Result) (id : Uuid)
    (a a' : Actor) : Prop where
  ids : w.subscriptions.UniqueIds
  run : Run flow (.start w) ms s
  shaken : Shaken ms s id a
  verified : Verified ms s id a'
  sound : ∀ x ∈ ms, x.actor = a ∨ x.actor = a' → x.Sound
  alone : ∀ x ∈ ms, x.actor ≠ a → x.actor ≠ a' →
    x.after.subscriptions.get? id = x.before.subscriptions.get? id

/-- The row is as the later one wrote it. So the status that the handshake decided is lost if the
callback had read the row before that and wrote it afterwards, and the instant of the verification
is lost if the handshake did so. -/
theorem lastWrite_stands {a a' : Actor} (h : Finished w ms s id a a') :
    ∃ p q copy result p' q' seen t,
      Handshake ms a p q copy result ∧ Callback ms a' p' q' seen t ∧ copy.id = id ∧ seen.id = id ∧
      ∃ r, s.shared.subscriptions.get? id = some r ∧
        r.status = (if p' < q ∧ q < q' then seen.status else Subscription.decided result) ∧
        r.lastVerifiedAt = if p < q' ∧ q' < q then copy.lastVerifiedAt else some t := by
  obtain ⟨p, q, copy, result, handshake, row⟩ := h.shaken.handshake h.run
  obtain ⟨p', q', seen, t, callback, row'⟩ := h.verified.callback h.run
  have two := h.shaken.ne_verified h.verified
  exact ⟨p, q, copy, result, p', q', seen, t, handshake, callback, row, row',
    row_of_writes h.ids h.run handshake callback row row' two h.sound h.alone⟩

/-! ## What is lost -/

def plainCallback : Errand := .confirm (.subscribe (topicUrl "a") none)

/-- The hub accepts the first subscription, and the clock stands still. -/
structure Accepted (ms : List (Move Errand)) (s : System Errand Result) : Prop extends
    Finished .empty ms s (.drawn 0) ⟨0, none⟩ ⟨1, none⟩ where
  heard : ∃ x ∈ past ⟨0, none⟩ ms, ∃ response, x.heard? = some (.ok response)
  reading : ∃ rest, past ⟨1, none⟩ ms = ⟨.now, ⟨0⟩⟩ :: rest

theorem accepted_of_run (order : List Nat) (two : ∀ i ∈ order, i < 2)
    (run : Run flow (.start .empty) ms s) (turns : ms.map (·.actor) = order.map (⟨·, none⟩))
    (sound : ∀ x ∈ ms, x.Sound) (shaken : Shaken ms s (.drawn 0) ⟨0, none⟩)
    (verified : Verified ms s (.drawn 0) ⟨1, none⟩)
    (heard : ∃ x ∈ past ⟨0, none⟩ ms, ∃ response, x.heard? = some (.ok response))
    (reading : ∃ rest, past ⟨1, none⟩ ms = ⟨.now, ⟨0⟩⟩ :: rest) : Accepted ms s where
  ids := List.nodup_nil
  run := run
  shaken := shaken
  verified := verified
  sound := fun x hx _ => sound x hx
  alone := by
    intro x hx ne ne'
    have turn := List.mem_map_of_mem (f := (·.actor)) hx
    rw [turns] at turn
    obtain ⟨i, hi, same⟩ := List.mem_map.mp turn
    have small := two i hi
    have either : i = 0 ∨ i = 1 := by omega
    rcases either with rfl | rfl
    · exact absurd same.symm ne
    · exact absurd same.symm ne'
  heard := heard
  reading := reading

theorem accepted_runs :
    (∃ ms s, Accepted ms s ∧ s.shared.subscriptions.rows = [plainRow .pending (some ⟨0⟩)]) ∧
    ∃ ms s, Accepted ms s ∧ s.shared.subscriptions.rows = [plainRow .active none] := by
  have r : Run flow (.start .empty) [] (.start .empty) := .start
  have r := (r.quiet (.begin _ plain)).quiet (.begin _ plainCallback)
  have r := r.move (Step.answer (i := 0) rfl (some (Except.ok none)) (by exact Or.inl ⟨rfl, rfl⟩)
    id False.elim)
  have r := r.move (Step.draw (i := 0) rfl (.drawn 0) List.not_mem_nil)
  have r := r.move (Step.read (i := 0) rfl)
  have r : Run flow (.start .empty) _
      ⟨⟨.table ⟨[plainRow .pending none]⟩, .table {}, [.drawn 0], [], false, false⟩, _⟩ :=
    r.move (Step.answer (i := 0) rfl _ (by exact Or.inl ⟨rfl, rfl⟩) id False.elim)
  have r := r.move (Step.call (i := 0) rfl (by exact trivial))
  have r := r.move (Step.read (i := 1) rfl)
  have r := r.move (Step.answer (i := 1) rfl (some (Except.ok [plainRow .pending none]))
    (by exact Or.inl ⟨rfl, rfl⟩) id False.elim)
  constructor
  · have r := r.move (Step.answer (i := 0) rfl (Except.ok (Hub.Response.mk true 202 none))
      (by exact rfl) id fun _ => rfl)
    have r := r.move (Step.read (i := 0) rfl)
    have r : Run flow (.start .empty) _
        ⟨⟨.table ⟨[plainRow .active none]⟩, .table {}, [.drawn 0], [], false, false⟩, _⟩ :=
      r.move (Step.answer (i := 0) rfl _ (by exact Or.inl ⟨rfl, rfl⟩) id False.elim)
    have r : Run flow (.start .empty) _
        ⟨⟨.table ⟨[plainRow .pending (some ⟨0⟩)]⟩, .table {}, [.drawn 0], [], false, false⟩, _⟩ :=
      r.move (Step.answer (i := 1) rfl _ (by exact Or.inl ⟨rfl, rfl⟩) id False.elim)
    refine ⟨_, _, accepted_of_run [0, 0, 0, 0, 0, 1, 1, 0, 0, 0, 1] (by decide) r rfl ?_ ?_ ?_ ?_
      ⟨_, rfl⟩, rfl⟩
    · exact List.forall_iff_forall_mem.mp
        ⟨rfl, trivial, trivial, rfl, trivial, trivial, rfl, trivial, trivial, rfl, rfl⟩
    · exact .operation (p := 3) rfl rfl
        ⟨_, mem_past.mpr ⟨_, List.mem_of_getElem? (i := 7) rfl, rfl, rfl⟩, _, rfl⟩
        ⟨_, .create (plainRow .pending none), plainRow .pending none, rfl, rfl, rfl,
          List.mem_singleton.mpr rfl⟩ rfl
    · exact .operation (p := 6) rfl rfl rfl
        ⟨_, .findByTopic (topicUrl "a"), [plainRow .pending none], rfl, rfl, rfl,
          List.mem_singleton.mpr rfl⟩ rfl
    · exact ⟨_, mem_past.mpr ⟨_, List.mem_of_getElem? (i := 7) rfl, rfl, rfl⟩, _, rfl⟩
  · have r : Run flow (.start .empty) _
        ⟨⟨.table ⟨[plainRow .pending (some ⟨0⟩)]⟩, .table {}, [.drawn 0], [], false, false⟩, _⟩ :=
      r.move (Step.answer (i := 1) rfl _ (by exact Or.inl ⟨rfl, rfl⟩) id False.elim)
    have r := r.move (Step.answer (i := 0) rfl (Except.ok (Hub.Response.mk true 202 none))
      (by exact rfl) id fun _ => rfl)
    have r := r.move (Step.read (i := 0) rfl)
    have r : Run flow (.start .empty) _
        ⟨⟨.table ⟨[plainRow .active none]⟩, .table {}, [.drawn 0], [], false, false⟩, _⟩ :=
      r.move (Step.answer (i := 0) rfl _ (by exact Or.inl ⟨rfl, rfl⟩) id False.elim)
    refine ⟨_, _, accepted_of_run [0, 0, 0, 0, 0, 1, 1, 1, 0, 0, 0] (by decide) r rfl ?_ ?_ ?_ ?_
      ⟨_, rfl⟩, rfl⟩
    · exact List.forall_iff_forall_mem.mp
        ⟨rfl, trivial, trivial, rfl, trivial, trivial, rfl, rfl, trivial, trivial, rfl⟩
    · exact .operation (p := 3) rfl rfl
        ⟨_, mem_past.mpr ⟨_, List.mem_of_getElem? (i := 8) rfl, rfl, rfl⟩, _, rfl⟩
        ⟨_, .create (plainRow .pending none), plainRow .pending none, rfl, rfl, rfl,
          List.mem_singleton.mpr rfl⟩ rfl
    · exact .operation (p := 6) rfl rfl rfl
        ⟨_, .findByTopic (topicUrl "a"), [plainRow .pending none], rfl, rfl, rfl,
          List.mem_singleton.mpr rfl⟩ rfl
    · exact ⟨_, mem_past.mpr ⟨_, List.mem_of_getElem? (i := 8) rfl, rfl, rfl⟩, _, rfl⟩

/-- After both have finished, the status is the one that the handshake decided. -/
def StatusKept : Prop :=
  ∀ w ms s id a a', Finished w ms s id a a' → ∀ x ∈ past a ms, ∀ result, x.heard? = some result →
    ∃ r, s.shared.subscriptions.get? id = some r ∧ r.status = Subscription.decided result

/-- After both have finished, the instant of the verification is stored. -/
def InstantKept : Prop :=
  ∀ w ms s id a a', Finished w ms s id a a' → ∀ t rest, past a' ms = ⟨.now, t⟩ :: rest →
    ∃ r, s.shared.subscriptions.get? id = some r ∧ r.lastVerifiedAt = some t

/-- Neither is so: a row whose handshake was accepted may stay pending, and a row that was verified
may look as if it never was. -/
theorem updates_lost : ¬ StatusKept ∧ ¬ InstantKept := by
  obtain ⟨⟨ms, s, accepted, rows⟩, ms', s', accepted', rows'⟩ := accepted_runs
  constructor
  · intro kept
    obtain ⟨x, hx, response, heard⟩ := accepted.heard
    obtain ⟨r, found, active⟩ := kept _ ms s _ _ _ accepted.toFinished x hx _ heard
    unfold Store.Subscriptions.get? at found
    rw [rows] at found
    cases found
    cases active
  · intro kept
    obtain ⟨rest, reading⟩ := accepted'.reading
    obtain ⟨r, found, verified⟩ := kept _ ms' s' _ _ _ accepted'.toFinished _ _ reading
    unfold Store.Subscriptions.get? at found
    rw [rows'] at found
    cases found
    cases verified

theorem lastWrite_stands_pending :
    ∃ ms s, Finished .empty ms s (.drawn 0) ⟨0, none⟩ ⟨1, none⟩ ∧
      s.shared.subscriptions.rows = [plainRow .pending (some ⟨0⟩)] ∧
      ∃ p q copy result p' q' seen t,
        Handshake ms ⟨0, none⟩ p q copy result ∧ Callback ms ⟨1, none⟩ p' q' seen t ∧
        copy.id = .drawn 0 ∧ seen.id = .drawn 0 ∧
        ∃ r, s.shared.subscriptions.get? (.drawn 0) = some r ∧
          r.status = (if p' < q ∧ q < q' then seen.status else Subscription.decided result) ∧
          r.lastVerifiedAt = if p < q' ∧ q' < q then copy.lastVerifiedAt else some t := by
  obtain ⟨⟨ms, s, accepted, rows⟩, -⟩ := accepted_runs
  exact ⟨ms, s, accepted.toFinished, rows, lastWrite_stands accepted.toFinished⟩

end WebSub.Errand
