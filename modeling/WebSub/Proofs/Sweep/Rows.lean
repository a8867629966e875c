import WebSub.Proofs.Interleaving.Position
import WebSub.Proofs.Store.RowOrigins
import WebSub.Proofs.Sweep.Course

/-!
# The rows under a sweep

While nobody else writes, each row is what it was when the sweep began, or what the renewal of that
row has written, and expired in the end if the sweep has marked it so. All of this is told by what
the sweep and its renewals went through.
-/

namespace WebSub.Sweep

open Interleaving
open Store (Subscriptions)

/-! ## What the exchanges tell -/

/-- The rows that were found. -/
def found? : Exchange → Option (List Subscription)
  | ⟨.subscriptions (.findExpiring ..), some (.ok rows)⟩ => some rows
  | _ => none

/-- The row that was written. -/
def wrote? : Exchange → Option Subscription
  | ⟨.subscriptions (.update y), some (.ok _)⟩ => some y
  | _ => none

/-- When it was marked what has run out. -/
def marked? : Exchange → Option Instant
  | ⟨.subscriptions (.markLapsed t), some (.ok _)⟩ => some t
  | _ => none

variable {w : Shared} {ms : List (Move Errand)} {s s' : System Errand Errand.Result}
  {settings : Settings} {i k : Nat} {m : Move Errand} {r x y : Subscription}

/-- The rows that a sweep has taken on; none before it has looked. -/
def taken (i : Nat) (ms : List (Move Errand)) : List Subscription :=
  ((past ⟨i, none⟩ ms).findSome? found?).getD []

/-- What the renewals of a sweep have made of a row. -/
def renewed (i : Nat) (ms : List (Move Errand)) (r : Subscription) : Subscription :=
  match (taken i ms).findIdx? (·.id == r.id) with
  | some k => ((past ⟨i, some k⟩ ms).findSome? wrote?).getD r
  | none => r

/-- What a sweep has made of a row. -/
def swept (i : Nat) (ms : List (Move Errand)) (r : Subscription) : Subscription :=
  match (past ⟨i, none⟩ ms).findSome? marked? with
  | some t => ((renewed i ms r).markExpired t).1
  | none => renewed i ms r

/-- The rows are what the sweep has made of them, and those that it found are some of them. -/
structure Stands (w : Shared) (i : Nat) (ms : List (Move Errand)) (now : Subscriptions) : Prop where
  rows : now.rows = w.subscriptions.rows.map (swept i ms)
  within : ∀ r ∈ taken i ms, r ∈ w.subscriptions.rows
  nodup : ((taken i ms).map (·.id)).Nodup
  origins : ∀ r ∈ w.subscriptions.rows, (swept i ms r).origin = r.origin

/-! ## Places -/

theorem findIdx?_of_nodup {rows : List Subscription} (nodup : (rows.map (·.id)).Nodup)
    (at_k : rows[k]? = some r) : rows.findIdx? (·.id == r.id) = some k := by
  obtain ⟨inside, rfl⟩ := List.getElem?_eq_some_iff.mp at_k
  rw [List.findIdx?_eq_some_iff_getElem]
  refine ⟨inside, by simp, ?_⟩
  intro j before
  have apart := List.nodup_iff_injective_get.mp nodup
  simp only [beq_iff_eq]
  intro same
  have equal : (⟨j, by simpa using Nat.lt_trans before inside⟩ : Fin (rows.map (·.id)).length) =
      ⟨k, by simpa using inside⟩ := apart (by simpa using same)
  have : j = k := congrArg Fin.val equal
  omega

theorem renewed_of_taken (nodup : ((taken i ms).map (·.id)).Nodup)
    (at_k : (taken i ms)[k]? = some r) :
    renewed i ms r = ((past ⟨i, some k⟩ ms).findSome? wrote?).getD r := by
  unfold renewed
  rw [findIdx?_of_nodup nodup at_k]

theorem renewed_of_not_taken (absent : ∀ x ∈ taken i ms, x.id ≠ r.id) : renewed i ms r = r := by
  unfold renewed
  have none : (taken i ms).findIdx? (·.id == r.id) = none := by
    rw [List.findIdx?_eq_none_iff]
    intro x hx
    simpa using absent x hx
  rw [none]

/-! ## What does not matter -/

theorem swept_congr {ms' : List (Move Errand)}
    (found : (past ⟨i, none⟩ ms').findSome? found? = (past ⟨i, none⟩ ms).findSome? found?)
    (marked : (past ⟨i, none⟩ ms').findSome? marked? = (past ⟨i, none⟩ ms).findSome? marked?)
    (wrote : ∀ k,
      (past ⟨i, some k⟩ ms').findSome? wrote? = (past ⟨i, some k⟩ ms).findSome? wrote?) :
    taken i ms' = taken i ms ∧ swept i ms' = swept i ms := by
  have taken' : taken i ms' = taken i ms := by
    unfold taken
    rw [found]
  refine ⟨taken', ?_⟩
  funext r
  unfold swept renewed
  rw [taken', marked]
  simp only [wrote]

theorem swept_other (other : m.actor.thread ≠ i) :
    taken i (ms ++ [m]) = taken i ms ∧ swept i (ms ++ [m]) = swept i ms := by
  have same : ∀ k, past ⟨i, k⟩ (ms ++ [m]) = past ⟨i, k⟩ ms :=
    fun k => past_append_other ms (fun actor => other (by rw [actor])) _ _ _ _
  exact swept_congr (by rw [same]) (by rw [same]) fun k => by rw [same]

/-- An exchange by which nothing is found, written or marked. -/
def IsSilent (x : Exchange) : Prop := found? x = none ∧ wrote? x = none ∧ marked? x = none

theorem swept_silent (silent : ∀ x, m.deed = .answered x → IsSilent x) :
    taken i (ms ++ [m]) = taken i ms ∧ swept i (ms ++ [m]) = swept i ms := by
  have same : ∀ {β : Type} (f : Exchange → Option β), (∀ x, m.deed = .answered x → f x = none) →
      ∀ a, (past a (ms ++ [m])).findSome? f = (past a ms).findSome? f := by
    intro β f none a
    rw [past_append, List.findSome?_append]
    suffices h : (past a [m]).findSome? f = Option.none by rw [h, Option.or_none]
    rw [List.findSome?_eq_none_iff]
    intro x hx
    obtain ⟨m', hm', -, deed⟩ := mem_past.mp hx
    rw [List.mem_singleton.mp hm'] at deed
    exact none x deed
  exact swept_congr (same found? (fun x deed => (silent x deed).1) _)
    (same marked? (fun x deed => (silent x deed).2.2) _)
    fun k => same wrote? (fun x deed => (silent x deed).2.1) _

theorem isSilent_of_not_ok {c : Store.SubscriptionCall} {a : c.Answer}
    (failed : ∀ v, a ≠ some (.ok v)) : IsSilent ⟨.subscriptions c, a⟩ := by
  match a, failed with
  | none, _ => cases c <;> exact ⟨rfl, rfl, rfl⟩
  | some (.error e), _ => cases c <;> exact ⟨rfl, rfl, rfl⟩
  | some (.ok v), failed => exact absurd rfl (failed v)

theorem isSilent_aside {x : Exchange} (other : ∀ c, x.request ≠ .subscriptions c) : IsSilent x := by
  obtain ⟨q, a⟩ := x
  cases q with
  | subscriptions c => exact absurd rfl (other c)
  | _ => exact ⟨rfl, rfl, rfl⟩

/-! ## What an answer tells -/

theorem swept_find (actor : m.actor = ⟨i, none⟩) {t before : Instant} {limit : Nat}
    {rows : List Subscription}
    (deed : m.deed = .answered ⟨.subscriptions (.findExpiring before limit), some (.ok rows)⟩)
    (own : past ⟨i, none⟩ ms = [⟨.lockSweeps, true⟩, ⟨.now, t⟩])
    (idle : ∀ k, past ⟨i, some k⟩ ms = []) :
    taken i (ms ++ [m]) = rows ∧ (∀ r, swept i ms r = r) ∧ ∀ r, swept i (ms ++ [m]) r = r := by
  have own' : past ⟨i, none⟩ (ms ++ [m]) =
      [⟨.lockSweeps, true⟩, ⟨.now, t⟩,
        ⟨.subscriptions (.findExpiring before limit), some (.ok rows)⟩] := by
    rw [past_append, own, ← actor, past_of_answered deed]
    rfl
  have idle' : ∀ k, past ⟨i, some k⟩ (ms ++ [m]) = [] := by
    intro k
    rw [past_append, idle k, past_of_ne (by rw [actor]; simp)]
    rfl
  refine ⟨?_, ?_, ?_⟩
  · unfold taken
    rw [own']
    rfl
  · intro r
    unfold swept renewed taken
    rw [own]
    rfl
  · intro r
    unfold swept renewed
    simp only [own', idle']
    split
    case h_1 t marked => cases marked
    case h_2 => split <;> rfl

theorem swept_mark (actor : m.actor = ⟨i, none⟩) {t : Instant} {n : Nat}
    (deed : m.deed = .answered ⟨.subscriptions (.markLapsed t), some (.ok n)⟩)
    (first : (past ⟨i, none⟩ ms).findSome? marked? = none) :
    taken i (ms ++ [m]) = taken i ms ∧
      ∀ r, swept i (ms ++ [m]) r = ((swept i ms r).markExpired t).1 := by
  have own : past ⟨i, none⟩ (ms ++ [m]) =
      past ⟨i, none⟩ ms ++ [⟨.subscriptions (.markLapsed t), some (.ok n)⟩] := by
    rw [past_append, ← actor, past_of_answered deed]
  have others : ∀ k, past ⟨i, some k⟩ (ms ++ [m]) = past ⟨i, some k⟩ ms := by
    intro k
    exact past_append_other ms (by rw [actor]; simp) _ _ _ _
  have taken' : taken i (ms ++ [m]) = taken i ms := by
    unfold taken
    rw [own, List.findSome?_append]
    cases (past ⟨i, none⟩ ms).findSome? found? <;> rfl
  refine ⟨taken', fun r => ?_⟩
  have renewed' : renewed i (ms ++ [m]) r = renewed i ms r := by
    unfold renewed
    rw [taken']
    simp only [others]
  unfold swept
  rw [own, List.findSome?_append, first, renewed']
  rfl

theorem swept_write (nodup : ((taken i ms).map (·.id)).Nodup) (actor : m.actor = ⟨i, some k⟩)
    {b : Subscription} (deed : m.deed = .answered ⟨.subscriptions (.update y), some (.ok b)⟩)
    (at_k : (taken i ms)[k]? = some r) (first : (past ⟨i, some k⟩ ms).findSome? wrote? = none)
    (unmarked : (past ⟨i, none⟩ ms).findSome? marked? = none) :
    taken i (ms ++ [m]) = taken i ms ∧ swept i (ms ++ [m]) r = y ∧
      ∀ x, x.id ≠ r.id → swept i (ms ++ [m]) x = swept i ms x := by
  have own : past ⟨i, none⟩ (ms ++ [m]) = past ⟨i, none⟩ ms :=
    past_append_other ms (by rw [actor]; simp) _ _ _ _
  have own_k : past ⟨i, some k⟩ (ms ++ [m]) =
      past ⟨i, some k⟩ ms ++ [⟨.subscriptions (.update y), some (.ok b)⟩] := by
    rw [past_append, ← actor, past_of_answered deed]
  have others : ∀ j, j ≠ k → past ⟨i, some j⟩ (ms ++ [m]) = past ⟨i, some j⟩ ms := by
    intro j hj
    refine past_append_other ms ?_ _ _ _ _
    rw [actor]
    simpa using Ne.symm hj
  have taken' : taken i (ms ++ [m]) = taken i ms := by
    unfold taken
    rw [own]
  refine ⟨taken', ?_, ?_⟩
  · unfold swept
    rw [own, unmarked,
      renewed_of_taken (by rw [taken']; exact nodup) (by rw [taken']; exact at_k), own_k,
      List.findSome?_append, first]
    rfl
  · intro x apart
    have renewed' : renewed i (ms ++ [m]) x = renewed i ms x := by
      unfold renewed
      rw [taken']
      split
      case h_2 => rfl
      case h_1 j place =>
        -- The place of another row is another one.
        obtain ⟨inside, found, -⟩ := List.findIdx?_eq_some_iff_getElem.mp place
        have hj : j ≠ k := by
          rintro rfl
          rw [List.getElem?_eq_getElem inside] at at_k
          rw [Option.some.inj at_k] at found
          exact apart (by simpa using Eq.symm (by simpa using found))
        rw [others j hj]
    unfold swept
    rw [own, renewed']

/-! ## What a step makes of the rows -/

theorem Stands.same {now : Subscriptions} (h : Stands w i ms now) {ms' : List (Move Errand)}
    {now' : Subscriptions} (rows : now' = now)
    (same : taken i ms' = taken i ms ∧ swept i ms' = swept i ms) : Stands w i ms' now' := by
  refine ⟨?_, ?_, ?_, ?_⟩
  · rw [rows, same.2]
    exact h.rows
  · rw [same.1]
    exact h.within
  · rw [same.1]
    exact h.nodup
  · rw [same.2]
    exact h.origins

theorem Stands.silent (h : Stands w i ms m.before.subscriptions)
    (silent : ∀ x, m.deed = .answered x → IsSilent x)
    (same : m.after.subscriptions = m.before.subscriptions) :
    Stands w i (ms ++ [m]) m.after.subscriptions :=
  h.same same (swept_silent silent)

theorem Stands.failed (h : Stands w i ms m.before.subscriptions) (allowed : m.Allowed)
    {c : Store.SubscriptionCall} {a : c.Answer} (deed : m.deed = .answered ⟨.subscriptions c, a⟩)
    (failed : ∀ v, a ≠ some (.ok v)) : Stands w i (ms ++ [m]) m.after.subscriptions := by
  refine h.silent ?_ (allowed.failed deed failed)
  intro x same
  rw [deed] at same
  cases same
  exact isSilent_of_not_ok failed

theorem Stands.aside (h : Stands w i ms m.before.subscriptions) (allowed : m.Allowed)
    (other : ∀ x, m.deed = .answered x → ∀ c, x.request ≠ .subscriptions c) :
    Stands w i (ms ++ [m]) m.after.subscriptions :=
  h.silent (fun x deed => isSilent_aside (other x deed)) (allowed.aside other)

theorem Stands.find (h : Stands w i ms m.before.subscriptions) (ids : w.subscriptions.UniqueIds)
    (allowed : m.Allowed) (actor : m.actor = ⟨i, none⟩) {t before : Instant} {limit : Nat}
    {rows : List Subscription}
    (deed : m.deed = .answered ⟨.subscriptions (.findExpiring before limit), some (.ok rows)⟩)
    (own : past ⟨i, none⟩ ms = [⟨.lockSweeps, true⟩, ⟨.now, t⟩])
    (idle : ∀ k, past ⟨i, some k⟩ ms = []) :
    Stands w i (ms ++ [m]) m.after.subscriptions := by
  obtain ⟨answer, after⟩ := allowed.answer deed (by simp)
  rw [Subscriptions.answer_read _ (c := .findExpiring before limit) trivial] at after
  obtain ⟨taken', untouched, untouched'⟩ := swept_find actor deed own idle
  have start : m.before.subscriptions.rows = w.subscriptions.rows := by
    rw [h.rows]
    conv_rhs => rw [← List.map_id w.subscriptions.rows]
    exact List.map_congr_left fun r _ => untouched r
  have ids' : m.before.subscriptions.UniqueIds := by
    unfold Subscriptions.UniqueIds
    rw [start]
    exact ids
  refine ⟨?_, ?_, ?_, fun r _ => by rw [untouched']⟩
  · rw [after, start]
    conv_lhs => rw [← List.map_id w.subscriptions.rows]
    exact List.map_congr_left fun r _ => (untouched' r).symm
  · rw [taken']
    intro r hr
    rw [← start]
    exact Subscriptions.mem_of_given_read _ (c := .findExpiring before limit) trivial answer.symm hr
  · rw [taken']
    exact ids'.findExpiring answer.symm

theorem Stands.mark (h : Stands w i ms m.before.subscriptions) (allowed : m.Allowed)
    (actor : m.actor = ⟨i, none⟩) {t : Instant} {n : Nat}
    (deed : m.deed = .answered ⟨.subscriptions (.markLapsed t), some (.ok n)⟩)
    (first : (past ⟨i, none⟩ ms).findSome? marked? = none) :
    Stands w i (ms ++ [m]) m.after.subscriptions := by
  obtain ⟨-, after⟩ := allowed.answer deed (by simp)
  obtain ⟨taken', swept'⟩ := swept_mark actor deed first
  refine ⟨?_, ?_, ?_, ?_⟩
  · rw [after, Subscriptions.answer_markLapsed, h.rows, List.map_map]
    exact List.map_congr_left fun r _ => (swept' r).symm
  · rw [taken']
    exact h.within
  · rw [taken']
    exact h.nodup
  · intro r hr
    rw [swept', Subscription.markExpired_origin]
    exact h.origins r hr

theorem Stands.write (h : Stands w i ms m.before.subscriptions) (ids : w.subscriptions.UniqueIds)
    (allowed : m.Allowed) (actor : m.actor = ⟨i, some k⟩) {b : Subscription}
    (deed : m.deed = .answered ⟨.subscriptions (.update y), some (.ok b)⟩)
    (at_k : (taken i ms)[k]? = some r) (origin : y.origin = r.origin)
    (first : (past ⟨i, some k⟩ ms).findSome? wrote? = none)
    (unmarked : (past ⟨i, none⟩ ms).findSome? marked? = none) :
    Stands w i (ms ++ [m]) m.after.subscriptions := by
  obtain ⟨answer, after⟩ := allowed.answer deed (by simp)
  obtain ⟨taken', written, left⟩ := swept_write h.nodup actor deed at_k first unmarked
  have within : r ∈ w.subscriptions.rows := h.within r (List.mem_of_getElem? at_k)
  refine ⟨?_, ?_, ?_, ?_⟩
  · rcases Subscriptions.answer_update m.before.subscriptions y with ⟨missing, -⟩ | ⟨-, rows, -⟩
    · rw [missing] at answer
      cases answer
    · rw [after, rows, h.rows, List.map_map]
      refine List.map_congr_left fun x hx => ?_
      have same := Subscription.id_of_origin (h.origins x hx)
      simp only [Function.comp_apply, same]
      rw [Subscription.id_of_origin origin]
      split
      case isTrue hid =>
        obtain rfl := List.inj_on_of_nodup_map ids hx within hid
        rw [written]
        exact Subscriptions.written_of_origin _ ((h.origins x hx).trans origin.symm)
      case isFalse apart => exact (left x apart).symm
  · rw [taken']
    exact h.within
  · rw [taken']
    exact h.nodup
  · intro x hx
    by_cases hid : x.id = r.id
    · obtain rfl := List.inj_on_of_nodup_map ids hx within hid
      rw [written, origin]
    · rw [left x hid]
      exact h.origins x hx

/-! ## The rows of a run -/

theorem Found.tells {rows : List Subscription} (h : Found settings (past ⟨i, none⟩ ms) rows) :
    taken i ms = rows ∧ (past ⟨i, none⟩ ms).findSome? marked? = none := by
  obtain ⟨t, before, -, own⟩ := h
  unfold taken
  rw [own]
  exact ⟨rfl, rfl⟩

theorem Joined.unmarked {own : List Exchange} {rows : List Subscription} {ended : List Renewal}
    (h : Joined settings own rows ended) : own.findSome? marked? = none := by
  obtain ⟨head, ⟨t, before, -, rfl⟩, rfl⟩ := h
  rfl

theorem idle_of_short (orderly : Orderly courses renewal ms s) (mine : IsSweep settings i ms)
    (short : (past ⟨i, none⟩ ms).length < 3) (k : Nat) : past ⟨i, some k⟩ ms = [] := by
  rw [List.eq_nil_iff_forall_not_mem]
  intro x hx
  obtain ⟨m, hm, actor, -⟩ := mem_past.mp hx
  obtain ⟨pre, post, split⟩ := List.append_of_mem hm
  obtain ⟨rows, r, ⟨t, before, -, own⟩, -⟩ := steps_of_renewal orderly mine split actor
  rw [split, past_append, own] at short
  simp at short
  omega

theorem Stands.move_sweep {s' : System Errand Errand.Result} {c : Store.SubscriptionCall}
    {a : c.Answer} (h : Stands w i ms m.before.subscriptions) (ids : w.subscriptions.UniqueIds)
    (before : Orderly courses renewal ms s) (orderly : Orderly courses renewal (ms ++ [m]) s')
    (allowed : m.Allowed) (mine : IsSweep settings i (ms ++ [m])) (actor : m.actor = ⟨i, none⟩)
    (deed : m.deed = .answered ⟨.subscriptions c, a⟩) :
    Stands w i (ms ++ [m]) m.after.subscriptions := by
  have mine' : IsSweep settings i ms := fun m' hm' => mine m' (List.mem_append_left _ hm')
  have steps := steps_of_sweep orderly mine (show _ = ms ++ m :: [] from rfl) actor
  rw [deed] at steps
  cases c with
  | findExpiring reach limit =>
    obtain ⟨rfl, t, -, own⟩ := steps
    match a, deed with
    | some (.ok rows), deed =>
      exact h.find ids allowed actor deed own
        fun k => idle_of_short before mine' (by rw [own]; simp) k
    | some (.error e), deed => exact h.failed allowed deed (by simp)
    | none, deed => exact h.failed allowed deed (by simp)
  | markLapsed t =>
    obtain ⟨head, rows, ended, joined, own⟩ := steps
    match a, deed with
    | some (.ok n), deed =>
      refine h.mark allowed actor deed ?_
      rw [own, List.findSome?_append, joined.unmarked]
      rfl
    | some (.error e), deed => exact h.failed allowed deed (by simp)
    | none, deed => exact h.failed allowed deed (by simp)
  | _ => exact steps.elim

theorem Stands.move_renewal {s' : System Errand Errand.Result} {c : Store.SubscriptionCall}
    {a : c.Answer} (h : Stands w i ms m.before.subscriptions) (ids : w.subscriptions.UniqueIds)
    (orderly : Orderly courses renewal (ms ++ [m]) s') (allowed : m.Allowed)
    (mine : IsSweep settings i (ms ++ [m])) (actor : m.actor = ⟨i, some k⟩)
    (deed : m.deed = .answered ⟨.subscriptions c, a⟩) :
    Stands w i (ms ++ [m]) m.after.subscriptions := by
  obtain ⟨rows, r, found, row, steps⟩ :=
    steps_of_renewal orderly mine (show _ = ms ++ m :: [] from rfl) actor
  rw [deed] at steps
  cases c with
  | update y =>
    obtain ⟨result, t, own, change⟩ := steps
    obtain ⟨taken, unmarked⟩ := found.tells
    match a, deed with
    | some (.ok b), deed =>
      refine h.write ids allowed actor deed (by rw [taken]; exact row)
        (Subscription.settled_origin change) ?_ unmarked
      rw [own]
      rfl
    | some (.error e), deed => exact h.failed allowed deed (by simp)
    | none, deed => exact h.failed allowed deed (by simp)
  | _ => exact steps.elim

theorem Stands.move {s' : System Errand Errand.Result} (h : Stands w i ms m.before.subscriptions)
    (ids : w.subscriptions.UniqueIds) (before : Orderly courses renewal ms s)
    (orderly : Orderly courses renewal (ms ++ [m]) s') (allowed : m.Allowed)
    (mine : IsSweep settings i (ms ++ [m])) (thread : m.actor.thread = i) :
    Stands w i (ms ++ [m]) m.after.subscriptions := by
  by_cases asked : ∃ c a, m.deed = .answered ⟨.subscriptions c, a⟩
  · obtain ⟨c, a, deed⟩ := asked
    cases place : m.actor.renewal with
    | none =>
      exact h.move_sweep ids before orderly allowed mine (by rw [← thread, ← place]) deed
    | some k => exact h.move_renewal ids orderly allowed mine (by rw [← thread, ← place]) deed
  · refine h.aside allowed ?_
    rintro ⟨q, a⟩ deed c rfl
    exact asked ⟨c, a, deed⟩

theorem stands_start (w : Shared) (i : Nat) : Stands w i [] w.subscriptions := by
  have untouched : ∀ r, swept i [] r = r := fun _ => rfl
  refine ⟨?_, fun _ hr => absurd hr List.not_mem_nil, List.nodup_nil, fun r _ => by rw [untouched]⟩
  conv_lhs => rw [← List.map_id w.subscriptions.rows]
  exact List.map_congr_left fun r _ => (untouched r).symm

/-- A sweep in a run in which nobody else changes the subscriptions. -/
structure Solo (settings : Settings) (w : Shared) (ms : List (Move Errand))
    (s : System Errand Errand.Result) (i : Nat) : Prop where
  ids : w.subscriptions.UniqueIds
  run : Run Errand.flow (.start w) ms s
  mine : IsSweep settings i ms
  alone : ∀ m ∈ ms, m.actor.thread ≠ i → m.after.subscriptions = m.before.subscriptions

/-- At any time the rows are what the sweep has made of them. -/
theorem Solo.stands (solo : Solo settings w ms s i) : Stands w i ms s.shared.subscriptions := by
  obtain ⟨ids, run, mine, alone⟩ := solo
  induction run with
  | start => exact stands_start w i
  | quiet run h ih =>
    obtain ⟨b, same⟩ := h.shared_of_quiet
    rw [same]
    exact ih mine alone
  | @move ms m s s' run h ih =>
    obtain ⟨before, after, allowed⟩ := h.allowed
    have mine' : IsSweep settings i ms := fun m' hm' => mine m' (List.mem_append_left _ hm')
    have ih := ih mine' fun m' hm' => alone m' (List.mem_append_left _ hm')
    rw [← before] at ih
    rw [← after]
    by_cases actor : m.actor.thread = i
    · exact ih.move ids (orderly run) (orderly (run.move h)) allowed mine actor
    · exact ih.same (alone m List.mem_concat_self actor) (swept_other actor)

/-! ## The whole of a renewal -/

theorem taken_of_past {own rest : List Exchange} {rows : List Subscription}
    (found : Found settings own rows) (path : past ⟨i, none⟩ ms = own ++ rest) :
    taken i ms = rows := by
  obtain ⟨t, before, -, rfl⟩ := found
  unfold taken
  rw [path]
  rfl

theorem taken_of_found {pre post : List (Move Errand)} {rows : List Subscription}
    (found : Found settings (past ⟨i, none⟩ pre) rows) : taken i (pre ++ post) = rows :=
  taken_of_past found (past_append _ _ _)

theorem steps_of_taken (solo : Solo settings w ms s i) {pre post : List (Move Errand)}
    (split : ms = pre ++ m :: post) (actor : m.actor = ⟨i, some k⟩)
    (at_k : (taken i ms)[k]? = some r) :
    Found settings (past ⟨i, none⟩ pre) (taken i ms) ∧
      StepsOfRenewal r (past ⟨i, some k⟩ pre) m.deed.request := by
  obtain ⟨rows, r', found, row, steps⟩ := steps_of_renewal (orderly solo.run) solo.mine split actor
  obtain rfl : taken i ms = rows := by
    rw [split]
    exact taken_of_found found
  rw [at_k] at row
  cases row
  exact ⟨found, steps⟩

theorem asked_of_renewal (solo : Solo settings w ms s i) (at_k : (taken i ms)[k]? = some r)
    {own rest : List Exchange} {x : Exchange} (path : past ⟨i, some k⟩ ms = own ++ x :: rest) :
    StepsOfRenewal r own x.request := by
  obtain ⟨pre, m, post, split, actor, deed, hpre⟩ := past_split path
  obtain ⟨-, steps⟩ := steps_of_taken solo split actor at_k
  rw [hpre, deed] at steps
  exact steps

theorem called_of_solo (solo : Solo settings w ms s i) (hm : m ∈ ms) (thread : m.actor.thread = i)
    {p : Request} (deed : m.deed = .called p) :
    ∃ k r, m.actor = ⟨i, some k⟩ ∧ (taken i ms)[k]? = some r ∧
      p = .hubUnlessStopped r.hubRequest := by
  obtain ⟨k, rows, r, own, rest, actor, path, found, row, same⟩ :=
    called_of_sweep (orderly solo.run) solo.mine hm thread (solo.run.allowed m hm) deed
  exact ⟨k, r, actor, by rw [taken_of_past found path]; exact row, same⟩

theorem StepsOfRenewal.length {own : List Exchange} {p : Request} (h : StepsOfRenewal r own p) :
    own.length < 4 := by
  cases p with
  | stopped =>
    rw [show own = [] from h]
    decide
  | hubUnlessStopped p =>
    rw [h.2]
    simp
  | now =>
    obtain ⟨result, rfl⟩ := h
    simp
  | subscriptions c =>
    cases c with
    | update y =>
      obtain ⟨result, t, own_eq, -⟩ := h
      rw [show own = _ from own_eq]
      simp
    | _ => exact h.elim
  | _ => exact h.elim

theorem path_of_write (solo : Solo settings w ms s i) (at_k : (taken i ms)[k]? = some r)
    {a : Option (Except Store.Error Subscription)}
    (wrote : ⟨.subscriptions (.update y), a⟩ ∈ past ⟨i, some k⟩ ms) :
    ∃ result t, past ⟨i, some k⟩ ms = [⟨.stopped, false⟩,
        ⟨.hubUnlessStopped r.hubRequest, some result⟩, ⟨.now, t⟩, ⟨.subscriptions (.update y), a⟩] ∧
      r.settled result t = .ok y := by
  obtain ⟨own, rest, path⟩ := List.append_of_mem wrote
  obtain ⟨result, t, heard, change⟩ := asked_of_renewal solo at_k path
  refine ⟨result, t, ?_, change⟩
  rw [path, heard]
  cases rest with
  | nil => rfl
  | cons x rest =>
    -- Nothing is asked after the write.
    have later : past ⟨i, some k⟩ ms =
        (own ++ [⟨.subscriptions (.update y), a⟩]) ++ x :: rest := by
      rw [path, List.append_assoc]
      rfl
    have short := (asked_of_renewal solo at_k later).length
    rw [heard] at short
    simp at short

/-- A row that is what it was, or all that one answer of the hub makes of it. -/
inductive Left (i : Nat) (ms : List (Move Errand)) (r : Subscription) : Subscription → Prop
  | untouched : Left i ms r r
  | renewed {k : Nat} {result : Hub.Result} {t : Instant} {y a : Subscription}
      (row : (taken i ms)[k]? = some r)
      (path : past ⟨i, some k⟩ ms = [⟨.stopped, false⟩,
        ⟨.hubUnlessStopped r.hubRequest, some result⟩, ⟨.now, t⟩,
        ⟨.subscriptions (.update y), some (.ok a)⟩])
      (change : r.settled result t = .ok y) : Left i ms r y

theorem left_of_renewed (solo : Solo settings w ms s i) (stored : r ∈ w.subscriptions.rows) :
    Left i ms r (renewed i ms r) := by
  by_cases there : ∃ x ∈ taken i ms, x.id = r.id
  · obtain ⟨x, hx, hid⟩ := there
    obtain rfl := List.inj_on_of_nodup_map solo.ids (solo.stands.within x hx) stored hid
    obtain ⟨k, at_k⟩ := List.mem_iff_getElem?.mp hx
    rw [renewed_of_taken solo.stands.nodup at_k]
    cases written : (past ⟨i, some k⟩ ms).findSome? wrote? with
    | none => exact .untouched
    | some y =>
      obtain ⟨e, he, wrote⟩ := List.exists_of_findSome?_eq_some written
      unfold wrote? at wrote
      split at wrote
      case h_1 y' a =>
        cases wrote
        obtain ⟨result, t, path, change⟩ := path_of_write solo at_k he
        exact .renewed at_k path change
      case h_2 => cases wrote
  · rw [renewed_of_not_taken fun x hx hid => there ⟨x, hx, hid⟩]
    exact .untouched

/-! ## After the renewals -/

theorem no_renewal_after (solo : Solo settings w ms s i) {pre post : List (Move Errand)}
    (split : ms = pre ++ post) (long : 3 < (past ⟨i, none⟩ pre).length) :
    ∀ m ∈ post, ∀ k, m.actor ≠ ⟨i, some k⟩ :=
  still_of_long (orderly solo.run) solo.mine split long

theorem closed_of_joined (solo : Solo settings w ms s i) {head rest : List Exchange}
    {rows : List Subscription} {ended : List Renewal} (joined : Joined settings head rows ended)
    (own : past ⟨i, none⟩ ms = head ++ rest) :
    taken i ms = rows ∧ ∃ out, Closed renewal rows (fun k => past ⟨i, some k⟩ ms)
      (fun k => calls ⟨i, some k⟩ ms) ended out := by
  refine ⟨?_, closed_of_past solo.run solo.mine joined own⟩
  obtain ⟨head, found, rfl⟩ := joined
  rw [List.append_assoc] at own
  exact taken_of_past found own

/-! ## A sample -/

/-- One row at a time, up to a second from now. -/
def plainSettings : Settings := ⟨1, 0, 1, 1⟩

/-- An active row that has run out. -/
def dueRow (leaseSeconds : Int) : Subscription :=
  { Errand.plainRow .active none with leaseSeconds, expiresAt := ⟨0⟩ }

/-- A store with that row only. -/
def plainShared (leaseSeconds : Int) : Shared :=
  ⟨.memory ⟨[dueRow leaseSeconds]⟩, .memory {}, [], [], false, false⟩

theorem plainShared_uniqueIds (l : Int) : (plainShared l).subscriptions.UniqueIds :=
  List.nodup_singleton _

theorem plainShared_findExpiring (l : Int) :
    ((plainShared l).subscriptions.answer (.findExpiring ⟨0⟩ 1)).1 = some (.ok [dueRow l]) := by
  let rows : Store.MemorySubscriptions := ⟨[dueRow l]⟩
  have active : rows.dueActive ⟨0⟩ = [dueRow l] := List.mergeSort_singleton _
  have retries : rows.dueRetries ⟨0⟩ = [] := List.mergeSort_nil
  show some (Except.ok (rows.expiring ⟨0⟩ 1)) = _
  rw [Store.MemorySubscriptions.expiring, active, retries]
  rfl

theorem Solo.of_run (ids : w.subscriptions.UniqueIds) (run : Run Errand.flow (.start w) ms s)
    (only : ms.map (fun m => (m.actor.thread, m.operation)) =
      List.replicate n (i, .sweep settings)) : Solo settings w ms s i := by
  have each : ∀ m ∈ ms, m.actor.thread = i ∧ m.operation = .sweep settings := by
    intro m hm
    have mem := List.mem_map_of_mem (f := fun m => (m.actor.thread, m.operation)) hm
    rw [only] at mem
    exact Prod.mk.inj (List.eq_of_mem_replicate mem)
  exact ⟨ids, run, fun m hm _ => (each m hm).2, fun m hm other => absurd (each m hm).1 other⟩

end WebSub.Sweep
