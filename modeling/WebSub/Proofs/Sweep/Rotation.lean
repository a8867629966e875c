import WebSub.Proofs.Store.Batch
import WebSub.Proofs.Subscription.Freshness
import WebSub.Proofs.Sweep.Round

/-!
# Retries take turns

A row that failed or expired waits for those of its kind that were changed no later, and for no
others: each sweep that leaves it out changes some of these, and what is changed comes after it.
-/

namespace WebSub.Sweep

open Interleaving
open Store (Subscriptions isRetry)

/-! ## The rows before a row -/

variable {w : Shared} {ms : List (Move Chore)} {s : System Chore Chore.Result}
  {settings : Settings} {i k n p q : Nat} {m : Move Chore} {r x y : Subscription}
  {before now : Instant} {rows : List Subscription}

/-- Another row that failed or expired and was changed no later. -/
def isAhead (r x : Subscription) : Bool :=
  x.id != r.id && (isRetry x && decide (x.updatedAt ≤ r.updatedAt))

/-- How many rows stand before a row. -/
def ahead (r : Subscription) (rows : List Subscription) : Nat := rows.countP (isAhead r)

theorem le_of_isAhead (h : isAhead r x = true) : x.updatedAt ≤ r.updatedAt := by
  simp only [isAhead, Bool.and_eq_true] at h
  exact of_decide_eq_true h.2.2

theorem countP_add_length_le {l l' taken : List Subscription} {p : Subscription → Bool}
    (nodup : l'.Nodup) (nodup' : taken.Nodup) (apart : ∀ x ∈ taken, x ∉ l')
    (sub : ∀ x ∈ l', p x = true → x ∈ l) (sub' : ∀ x ∈ taken, x ∈ l ∧ p x = true) :
    l'.countP p + taken.length ≤ l.countP p := by
  rw [List.countP_eq_length_filter, List.countP_eq_length_filter, ← List.length_append]
  have both : (l'.filter p ++ taken).Nodup := by
    rw [List.nodup_append]
    refine ⟨nodup.filter p, nodup', ?_⟩
    rintro x hx _ hx' rfl
    exact apart x hx' (List.mem_filter.mp hx).1
  refine (List.subperm_of_subset both ?_).length_le
  intro x hx
  rcases List.mem_append.mp hx with hx | hx
  · obtain ⟨mem, meets⟩ := List.mem_filter.mp hx
    exact List.mem_filter.mpr ⟨sub x mem meets, meets⟩
  · exact List.mem_filter.mpr (sub' x hx)

section

variable {u : Instant} (run : Run Chore.flow (.start w) ms s)
  (later : ∀ k t, ReadAt ms k t → u < t)
include run later

theorem lt_of_stamp {c : Store.SubscriptionCall} {a : c.Answer} {t : Instant}
    (at_n : ms[n]? = some m) (deed : m.deed = .answered ⟨.subscriptions c, a⟩)
    (stamp : c.stamp? = some t) : u < t := by
  have asks := Chore.calls ((Chore.orderly run).conforms_at at_n) (by rw [deed]; rfl)
  obtain ⟨j, read⟩ := readAt_of_mem_past (mem_past_of_take _ (asks.stamped stamp))
  exact later j t read

theorem not_mem_onward (le : p ≤ q) (old : x.updatedAt ≤ u)
    (absent : x ∉ (storeAt ms s.shared p).rows) : x ∉ (storeAt ms s.shared q).rows := by
  refine storeAt_onward (P := fun store => x ∉ store.rows) run le ?_ absent
  intro n m _ _ at_n absent present
  rcases (run.allowed m (List.mem_of_getElem? at_n)).subscriptions with same | ⟨c, deed, after⟩
  · rw [same] at present
    exact absent present
  · rw [after] at present
    rcases Subscriptions.mem_or_stamped present with old | stamp
    · exact absent old
    · exact Int.not_lt.mpr old (lt_of_stamp run later at_n deed stamp)

theorem mem_storeAt_of_le (le : p ≤ q) (old : x.updatedAt ≤ u)
    (present : x ∈ (storeAt ms s.shared q).rows) : x ∈ (storeAt ms s.shared p).rows := by
  by_contra absent
  exact not_mem_onward run later le old absent present

end

/-! ## What touches a row -/

/-- A call that overwrites the row with an identity, or takes it away. -/
def Rewrites (id : Uuid) : Store.SubscriptionCall → Prop
  | .update y => y.id = id
  | .delete i => i = id
  | _ => False

theorem mem_answer_of_not_rewrites {store : Subscriptions} {c : Store.SubscriptionCall}
    (here : r ∈ store.rows) (retry : isRetry r = true) (other : ¬ Rewrites r.id c) :
    r ∈ (store.answer c).2.rows := by
  by_cases read : Subscriptions.IsRead c
  · rw [Subscriptions.answer_read store read]
    exact here
  · cases c with
    | create y =>
      rcases Subscriptions.answer_create store y with refused | ⟨-, rows, -⟩
      · rw [refused]
        exact here
      · rw [rows]
        exact List.mem_append_left _ here
    | update y =>
      rcases Subscriptions.answer_update store y with ⟨-, same, -⟩ | ⟨-, rows, -⟩
      · rw [same]
        exact here
      · rw [rows]
        exact List.mem_map.mpr ⟨r, here, if_neg (Ne.symm other)⟩
    | markLapsed t =>
      rw [Subscriptions.answer_markLapsed]
      refine List.mem_map.mpr ⟨r, here, ?_⟩
      have idle : r.isLapsed t = false := by
        unfold isRetry at retry
        cases status : r.status <;> simp_all [Subscription.isLapsed]
      rw [Subscription.markExpired_eq, idle]
      rfl
    | delete i =>
      rw [Subscriptions.answer_delete]
      exact List.mem_filter.mpr ⟨here, bne_iff_ne.mpr (Ne.symm other)⟩
    | _ => exact absurd trivial read

theorem updatedAt_of_mem_update {store : Subscriptions}
    (mem : x ∈ (store.answer (.update y)).2.rows) (same : x.id = y.id) :
    x.updatedAt = y.updatedAt := by
  rcases Subscriptions.answer_update store y with ⟨-, unchanged, absent⟩ | ⟨-, rows, -⟩
  · rw [unchanged] at mem
    exact absurd same (absent x mem)
  · rw [rows] at mem
    obtain ⟨old, -, rfl⟩ := List.mem_map.mp mem
    split at same
    case isTrue hid =>
      rw [if_pos hid]
      exact (store.written_columns (y := y) (r := old)).2.2.2.2.2
    case isFalse other => exact absurd same other

/-! ## Sweeps that leave a row waiting -/

theorem reach_mono {settings : Settings} {t t' u u' : Instant} (le : t ≤ t')
    (reach : settings.lookahead?.bind t.add? = some u)
    (reach' : settings.lookahead?.bind t'.add? = some u') : u ≤ u' := by
  obtain ⟨d, span, added⟩ := Option.bind_eq_some_iff.mp reach
  rw [span, Option.bind_some] at reach'
  simp only [Instant.add?, Option.ite_none_right_eq_some, Option.some.injEq] at added reach'
  rw [← added.2, ← reach'.2]
  exact Int.add_le_add_right le _

/-- A stored row that failed or expired, and that a sweep from `now` on looks for. -/
structure Waits (settings : Settings) (r : Subscription) (now : Instant) (store : Subscriptions) :
    Prop where
  ids : store.UniqueIds
  stored : r ∈ store.rows
  retry : isRetry r = true
  due : ∃ reach, settings.lookahead?.bind now.add? = some reach ∧ r.expiresAt ≤ reach

def Reports (t : Interleaving.Task Chore.Result) : Prop :=
  ∃ report, t.result? = some (.errand (.swept (.ok report)))

/-- Sweeps that end in a certain way, in turn with chores that leave a row alone. The clock is past
the row's last change, there is no shutdown, and of each batch the active rows leave some room. -/
structure Season (ends : Interleaving.Task Chore.Result → Prop) (settings : Settings)
    (r : Subscription) (now : Instant) (room : Nat) (w : Shared) (ms : List (Move Chore))
    (s : System Chore Chore.Result) (sweeps : List Nat) : Prop where
  run : Run Chore.flow (.start w) ms s
  turn : InTurn ms
  later : ∀ k t, ReadAt ms k t → r.updatedAt < t ∧ now ≤ t
  running : s.shared.stopped = false
  ascending : sweeps.Pairwise (· < ·)
  ended : ∀ i ∈ sweeps, ∃ t, s.threads[i]? = some t ∧
    t.operation = .errand (.sweep settings) ∧ ends t.task
  /-- The writes of the sweeps do not fail. -/
  written : ∀ m ∈ ms, m.actor.thread ∈ sweeps → ∀ y a,
    m.deed = .answered ⟨.subscriptions (.update y), a⟩ →
      a = (m.before.subscriptions.answer (.update y)).1
  alone : ∀ m ∈ ms, m.actor.thread ∉ sweeps → ∀ c a,
    m.deed = .answered ⟨.subscriptions c, a⟩ → ¬ Rewrites r.id c
  vacant : ∀ m ∈ ms, m.actor.thread ∈ sweeps → ∀ before rows,
    m.deed = .answered ⟨.subscriptions (.findExpiring before settings.batchSize), some (.ok rows)⟩ →
      m.before.subscriptions.rows.countP (Store.dueActive before) + room ≤ settings.batchSize

/-- A season of sweeps that report, and that begins while the row waits. -/
structure Rotation (settings : Settings) (r : Subscription) (now : Instant) (room : Nat)
    (w : Shared) (ms : List (Move Chore)) (s : System Chore Chore.Result) (sweeps : List Nat) : Prop
    extends Season Reports settings r now room w ms s sweeps, Waits settings r now w.subscriptions

namespace Rotation

variable {sweeps : List Nat} {room : Nat} (h : Rotation settings r now room w ms s sweeps)
include h

theorem lt_reading : ∀ k t, ReadAt ms k t → r.updatedAt < t := fun k t read => (h.later k t read).1

theorem ids_at (n : Nat) : (storeAt ms s.shared n).UniqueIds := by
  obtain ⟨s', first, here⟩ := run_take h.run n
  rw [here]
  exact uniqueIds_of_run h.ids first

theorem round (mine : i ∈ sweeps) : ∃ p q before rows, Round settings ms i p q before rows := by
  obtain ⟨t, at_i, operation, report, result⟩ := h.ended i mine
  exact round_of_reported h.run h.running at_i operation result

theorem operation (hm : m ∈ ms) (mine : m.actor.thread ∈ sweeps) :
    m.operation = .errand (.sweep settings) := by
  obtain ⟨t, at_i, operation, -⟩ := h.ended _ mine
  rw [(chores_orderly h.run).operation_of_thread at_i hm rfl, operation]

theorem attempts_of_rewrites {c : Store.SubscriptionCall} {a : c.Answer}
    (at_n : ms[n]? = some m) (mine : m.actor.thread ∈ sweeps)
    (deed : m.deed = .answered ⟨.subscriptions c, a⟩) (rewrites : Rewrites r.id c)
    (here : r ∈ (storeAt ms s.shared n).rows) : Attempts ms m.actor.thread r := by
  have operation := h.operation (List.mem_of_getElem? at_n) mine
  obtain ⟨p, q, before, rows, round⟩ := h.round mine
  cases Chore.calls ((Chore.orderly h.run).conforms_at at_n) (by rw [deed]; rfl) with
  | errand alone errand asked timely =>
    rw [operation, Chore.errand.injEq] at errand
    subst errand
    cases c with
    | update y => exact absurd rfl ((Errand.Writes.operation asked).1 settings)
    | delete i => cases asked
    | _ => exact rewrites.elim
  | lapse alone lapses marks reading =>
    rw [operation] at lapses
    cases lapses
  | @renewal k found x renews asked =>
    cases c with
    | update y =>
      obtain ⟨result, t, heard, change⟩ := asked
      have twin : x.id = r.id := by
        rw [← (Subscription.settled_ok change).1]
        exact rewrites
      obtain ⟨before', limit', listed⟩ := renews.found
      have again := round.found
      rw [← List.take_length (l := ms)] at again
      obtain ⟨rfl, j, mj, jn, -, at_j, -, deed_j⟩ := Chore.found_once h.run listed again
      -- The row was there when the sweep looked, and is the one that it has found.
      have then_x : x ∈ (storeAt ms s.shared j).rows := by
        rw [storeAt_before _ at_j]
        have answer := ((h.run.allowed mj (List.mem_of_getElem? at_j)).answer deed_j (by simp)).1
        exact Subscriptions.mem_of_given_read _ (c := .findExpiring before' limit') trivial
          answer.symm (List.mem_of_getElem? renews.row)
      have then_r := mem_storeAt_of_le h.run h.lt_reading (Nat.le_of_lt jn) (Int.le_refl _) here
      obtain rfl := List.inj_on_of_nodup_map (h.ids_at j) then_x then_r twin
      exact round.attempts (List.mem_of_getElem? renews.row)
    | delete i => exact asked.elim
    | _ => exact rewrites.elim

theorem due_in_round (round : Round settings ms i p q before rows) : r.expiresAt ≤ before := by
  obtain ⟨first, reach, due⟩ := h.due
  obtain ⟨j, t, read, reach'⟩ := round.reach
  exact Int.le_trans due (reach_mono (h.later j t read).2 reach reach')

theorem room_le (round : Round settings ms i p q before rows) (mine : i ∈ sweeps)
    (here : r ∈ (storeAt ms s.shared p).rows) (left : r ∉ rows) :
    room ≤ (rows.filter (isAhead r)).length := by
  have answer := round.answer h.run
  have full := Subscriptions.limit_le_of_left_out answer here h.retry (h.due_in_round round) left
  obtain ⟨m, at_p, actor, deed⟩ := round.listing
  have vacant := h.vacant m (List.mem_of_getElem? at_p) (by rw [actor]; exact mine) before rows deed
  rw [← storeAt_before s.shared at_p] at vacant
  have same : rows.countP (fun x => isRetry x && decide (x.updatedAt ≤ r.updatedAt)) =
      rows.countP (isAhead r) := by
    apply List.countP_congr
    intro x hx
    have other : (x.id != r.id) = true := by
      rw [bne_iff_ne]
      intro twin
      have stored := Subscriptions.mem_of_given_read _ (c := .findExpiring ..) trivial answer hx
      rw [List.inj_on_of_nodup_map (h.ids_at p) stored here twin] at hx
      exact left hx
    rw [isAhead, other, Bool.true_and]
  rw [← List.countP_eq_length_filter]
  omega

theorem not_mem_after (round : Round settings ms i p q before rows) (mine : i ∈ sweeps)
    (hx : x ∈ rows) (old : x.updatedAt ≤ r.updatedAt) : x ∉ (storeAt ms s.shared q).rows := by
  obtain ⟨n, m, y, a, nq, at_n, thread, deed, same⟩ := round.written x hx
  have hm := List.mem_of_getElem? at_n
  have after := (h.run.allowed m hm).settles deed
    (h.written m hm (by rw [thread]; exact mine) y _ deed)
  refine not_mem_onward h.run h.lt_reading nq old ?_
  rw [storeAt_succ h.run at_n, after]
  intro mem
  rw [updatedAt_of_mem_update mem same.symm] at old
  exact Int.not_lt.mpr old (lt_of_stamp h.run h.lt_reading at_n deed rfl)

theorem ahead_drops (round : Round settings ms i p q before rows) (mine : i ∈ sweeps)
    (here : r ∈ (storeAt ms s.shared p).rows) (left : r ∉ rows) :
    ahead r (storeAt ms s.shared q).rows + room ≤ ahead r (storeAt ms s.shared p).rows := by
  have answer := round.answer h.run
  -- Those of the batch that stand before the row are among those before it, and not there later.
  have drops : ahead r (storeAt ms s.shared q).rows + (rows.filter (isAhead r)).length ≤
      ahead r (storeAt ms s.shared p).rows := by
    refine countP_add_length_le (h.ids_at q).of_map
      (((h.ids_at p).findExpiring answer).of_map.filter _) ?_ ?_ ?_
    · intro x hx
      obtain ⟨mem, aheadOf⟩ := List.mem_filter.mp hx
      exact h.not_mem_after round mine mem (le_of_isAhead aheadOf)
    · intro x mem aheadOf
      exact mem_storeAt_of_le h.run h.lt_reading (Nat.le_of_lt round.order)
        (le_of_isAhead aheadOf) mem
    · intro x hx
      obtain ⟨mem, aheadOf⟩ := List.mem_filter.mp hx
      exact ⟨Subscriptions.mem_of_given_read _ (c := .findExpiring ..) trivial answer mem, aheadOf⟩
  have taken := h.room_le round mine here left
  omega

theorem ahead_mono (le : p ≤ q) :
    ahead r (storeAt ms s.shared q).rows ≤ ahead r (storeAt ms s.shared p).rows := by
  have mono : ahead r (storeAt ms s.shared q).rows + ([] : List Subscription).length ≤
      ahead r (storeAt ms s.shared p).rows := by
    refine countP_add_length_le (h.ids_at q).of_map List.nodup_nil
      (fun _ hx => absurd hx List.not_mem_nil) ?_ fun _ hx => absurd hx List.not_mem_nil
    intro x mem aheadOf
    exact mem_storeAt_of_le h.run h.lt_reading le (le_of_isAhead aheadOf) mem
  exact mono

theorem stays (p : Nat) (idle : ∀ n m, n < p → ms[n]? = some m → m.actor.thread ∈ sweeps →
    ¬ Attempts ms m.actor.thread r) : r ∈ (storeAt ms s.shared p).rows := by
  refine storeAt_onward (P := fun store => r ∈ store.rows) h.run (Nat.zero_le p) ?_ ?_
  · intro n m _ np at_n here
    have hm := List.mem_of_getElem? at_n
    rcases (h.run.allowed m hm).subscriptions with same | ⟨c, deed, after⟩
    · rw [same]
      exact here
    · rw [after]
      refine mem_answer_of_not_rewrites here h.retry ?_
      intro rewrites
      by_cases mine : m.actor.thread ∈ sweeps
      · rw [← storeAt_before s.shared at_n] at here
        exact idle n m np at_n mine (h.attempts_of_rewrites at_n mine deed rewrites here)
      · exact h.alone m hm mine c _ deed rewrites
  · rw [storeAt_zero h.run]
    exact h.stored

theorem le_of_position {j i' : Nat} (at_n : sweeps[n]? = some i)
    (at_j : sweeps[j]? = some i') (le : i' ≤ i) : j ≤ n := by
  by_contra after
  obtain ⟨hn, rfl⟩ := List.getElem?_eq_some_iff.mp at_n
  obtain ⟨hj, rfl⟩ := List.getElem?_eq_some_iff.mp at_j
  have ascends := List.pairwise_iff_getElem.mp h.ascending n j hn hj (by omega)
  omega

theorem order {i' p' q' : Nat} {before' : Instant} {rows' : List Subscription}
    (round' : Round settings ms i' p' q' before' rows')
    (round : Round settings ms i p q before rows) (later : ¬ i ≤ i') : q' ≤ p := by
  by_contra overlap
  obtain ⟨m', at_q', actor'⟩ := round'.join
  obtain ⟨m, at_p, actor, -⟩ := round.listing
  have turn := h.turn.le at_p at_q' (by omega)
  rw [actor, actor'] at turn
  exact later turn

theorem drops_of_idle (round : Round settings ms i p q before rows) (at_n : sweeps[n]? = some i)
    (idle : ∀ j ≤ n, ∀ i, sweeps[j]? = some i → ¬ Attempts ms i r) :
    ahead r (storeAt ms s.shared q).rows + room ≤ ahead r (storeAt ms s.shared p).rows := by
  obtain ⟨m, at_p, actor, -⟩ := round.listing
  have here : r ∈ (storeAt ms s.shared p).rows := by
    refine h.stays p ?_
    intro j m' before at_j mine
    obtain ⟨j', at_j'⟩ := List.mem_iff_getElem?.mp mine
    have turn := h.turn.le at_j at_p (Nat.le_of_lt before)
    rw [actor] at turn
    exact idle j' (h.le_of_position at_n at_j' turn) _ at_j'
  refine h.ahead_drops round (List.mem_of_getElem? at_n) here ?_
  intro found
  exact idle n (Nat.le_refl n) i at_n (round.attempts found)

/-- As long as no sweep attempts the row, each one takes away some of the rows before it. -/
theorem ahead_after (at_n : sweeps[n]? = some i)
    (idle : ∀ j ≤ n, ∀ i, sweeps[j]? = some i → ¬ Attempts ms i r) :
    ∃ p q before rows, Round settings ms i p q before rows ∧
      ahead r (storeAt ms s.shared q).rows + (n + 1) * room ≤ ahead r w.subscriptions.rows := by
  induction n generalizing i with
  | zero =>
    have mine := List.mem_of_getElem? at_n
    obtain ⟨p, q, before, rows, round⟩ := h.round mine
    have drops := h.drops_of_idle round at_n idle
    have start := h.ahead_mono (Nat.zero_le p)
    rw [storeAt_zero h.run] at start
    refine ⟨p, q, before, rows, round, ?_⟩
    rw [Nat.zero_add, Nat.one_mul]
    exact Nat.le_trans drops start
  | succ n ih =>
    obtain ⟨inside, -⟩ := List.getElem?_eq_some_iff.mp at_n
    have at_prev : sweeps[n]? = some sweeps[n] :=
      List.getElem?_eq_getElem (Nat.lt_of_succ_lt inside)
    obtain ⟨p', q', before', rows', round', less⟩ :=
      ih at_prev fun j hj => idle j (Nat.le_succ_of_le hj)
    obtain ⟨p, q, before, rows, round⟩ := h.round (List.mem_of_getElem? at_n)
    have drops := h.drops_of_idle round at_n idle
    have between := h.ahead_mono (h.order round' round ?_)
    · refine ⟨p, q, before, rows, round, ?_⟩
      rw [Nat.add_mul, Nat.one_mul]
      omega
    · intro le
      have back := h.le_of_position at_prev at_n le
      omega

theorem leaves (idle : ∀ i ∈ sweeps, ¬ Attempts ms i r) :
    Waits settings r now s.shared.subscriptions ∧
      ahead r s.shared.subscriptions.rows + sweeps.length * room ≤
        ahead r w.subscriptions.rows := by
  have last : storeAt ms s.shared ms.length = s.shared.subscriptions :=
    storeAt_end _ (Nat.le_refl _)
  have ids := h.ids_at ms.length
  have here := h.stays ms.length fun n m _ _ mine => idle _ mine
  rw [last] at ids here
  refine ⟨⟨ids, here, h.retry, h.due⟩, ?_⟩
  cases count : sweeps.length with
  | zero =>
    have mono := h.ahead_mono (Nat.zero_le ms.length)
    rw [last, storeAt_zero h.run] at mono
    rw [Nat.zero_mul]
    exact mono
  | succ n =>
    obtain ⟨i, at_n⟩ : ∃ i, sweeps[n]? = some i := ⟨_, List.getElem?_eq_getElem (by omega)⟩
    obtain ⟨p, q, before, rows, round, less⟩ :=
      h.ahead_after at_n fun j _ i at_j => idle i (List.mem_of_getElem? at_j)
    obtain ⟨m, at_q, -⟩ := round.join
    have mono := h.ahead_mono (Nat.le_of_lt (List.getElem?_eq_some_iff.mp at_q).1)
    rw [last] at mono
    omega

end Rotation

/-! ## Season after season -/

/-- Seasons one after another. Each begins with the rows that the one before has left, in whatever
order the store keeps them by then; rows of one instant are tried in this order. -/
inductive Seasons (ends : Interleaving.Task Chore.Result → Prop) (settings : Settings)
    (r : Subscription) (now : Instant) (room : Nat) :
    Subscriptions → List (List (Move Chore) × List Nat) → Prop
  | nil (store : Subscriptions) : Seasons ends settings r now room store []
  | cons {store : Subscriptions} {w : Shared} {ms : List (Move Chore)}
      {s : System Chore Chore.Result} {sweeps : List Nat}
      {rest : List (List (Move Chore) × List Nat)} (same : store.rows.Perm w.subscriptions.rows)
      (season : Season ends settings r now room w ms s sweeps)
      (next : Seasons ends settings r now room s.shared.subscriptions rest) :
      Seasons ends settings r now room store ((ms, sweeps) :: rest)

/-- All sweeps in their order, each with the moves of its season. -/
def sweepsOf (seasons : List (List (Move Chore) × List Nat)) : List (List (Move Chore) × Nat) :=
  seasons.flatMap fun (ms, sweeps) => sweeps.map (ms, ·)

theorem Waits.perm {store store' : Subscriptions} (h : Waits settings r now store)
    (same : store.rows.Perm store'.rows) : Waits settings r now store' :=
  ⟨(same.map _).nodup_iff.mp h.ids, same.mem_iff.mp h.stored, h.retry, h.due⟩

theorem Seasons.mul_le {store : Subscriptions} {seasons : List (List (Move Chore) × List Nat)}
    {room : Nat} (h : Seasons Reports settings r now room store seasons)
    (waits : Waits settings r now store) (inside : n < (sweepsOf seasons).length)
    (idle : ∀ j ≤ n, ∀ ms i, (sweepsOf seasons)[j]? = some (ms, i) → ¬ Attempts ms i r) :
    (n + 1) * room ≤ ahead r store.rows := by
  -- A season takes away its part and leaves the row waiting for the next one, with what is left.
  induction h generalizing n with
  | nil => cases inside
  | @cons store w ms s sweeps rest same season next ih =>
    have rotation : Rotation settings r now room w ms s sweeps := ⟨season, waits.perm same⟩
    have start : ahead r store.rows = ahead r w.subscriptions.rows := same.countP_eq _
    have parts : sweepsOf ((ms, sweeps) :: rest) = sweeps.map (ms, ·) ++ sweepsOf rest := rfl
    rw [start]
    have first : ∀ j ≤ n, ∀ i, sweeps[j]? = some i → ¬ Attempts ms i r := by
      intro j hj i at_j
      refine idle j hj ms i ?_
      obtain ⟨hlt, -⟩ := List.getElem?_eq_some_iff.mp at_j
      rw [parts, List.getElem?_append_left (by simpa using hlt), List.getElem?_map, at_j]
      rfl
    by_cases early : n < sweeps.length
    · obtain ⟨p, q, before, rows, -, less⟩ :=
        rotation.ahead_after (List.getElem?_eq_getElem early) first
      omega
    · have vain : ∀ i ∈ sweeps, ¬ Attempts ms i r := by
        intro i mine
        obtain ⟨j, at_j⟩ := List.mem_iff_getElem?.mp mine
        obtain ⟨hlt, -⟩ := List.getElem?_eq_some_iff.mp at_j
        exact first j (by omega) i at_j
      obtain ⟨waits', less⟩ := rotation.leaves vain
      rw [parts, List.length_append, List.length_map] at inside
      have rest_le := ih waits' (n := n - sweeps.length) (by omega) ?_
      · have split : n + 1 = sweeps.length + (n - sweeps.length + 1) := by omega
        rw [split, Nat.add_mul]
        omega
      · intro j hj ms' i at_j
        refine idle (sweeps.length + j) (by omega) ms' i ?_
        rw [parts, List.getElem?_append_right (by simp), List.length_map, Nat.add_sub_cancel_left]
        exact at_j

/-- Retries rotate as long as the sweeps report: a row that failed or expired and is due is
attempted by the time that as many sweeps have reported as it takes to attempt all the others that
were changed no later, in the room that the active rows leave in each batch. Which of the rows of
one instant comes first makes no difference. -/
theorem retries_rotate {store : Subscriptions} {seasons : List (List (Move Chore) × List Nat)}
    {room : Nat} (h : Seasons Reports settings r now room store seasons)
    (waits : Waits settings r now store) (spare : 0 < room)
    (many : ahead r store.rows / room < (sweepsOf seasons).length) :
    ∃ n ≤ ahead r store.rows / room, ∃ ms i,
      (sweepsOf seasons)[n]? = some (ms, i) ∧ Attempts ms i r := by
  by_contra none
  have enough := h.mul_le waits many
    fun n hn ms i at_n attempts => none ⟨n, hn, ms, i, at_n, attempts⟩
  have more := Nat.lt_mul_div_succ (ahead r store.rows) spare
  rw [Nat.mul_comm] at more
  omega

/-! ## A row that waits for one other -/

/-- One row a sweep, and a day ahead. -/
def batchOfOne : Settings := ⟨3600, 24, 1, 1⟩

/-- The clock shows the epoch, no write fails, and no active row is due. -/
def IsCalm (m : Move Chore) : Prop :=
  match m.deed with
  | .answered ⟨.now, t⟩ => t = ⟨0⟩
  | .answered ⟨.subscriptions (.update y), a⟩ => a = (m.before.subscriptions.answer (.update y)).1
  | .answered ⟨.subscriptions (.findExpiring before _), _⟩ =>
    m.before.subscriptions.rows.countP (Store.dueActive before) = 0
  | _ => True

/-- A sweep has the system for itself, and has come this far. -/
structure Lone (w : Shared) (ms : List (Move Chore)) (v : Shared)
    (t : Interleaving.Task Chore.Result) : Prop where
  run : Run Chore.flow (.start w) ms ⟨v, [⟨.errand (.sweep batchOfOne), t⟩]⟩
  running : v.stopped = false
  moves : ∀ m ∈ ms, m.actor.thread = 0 ∧ IsCalm m

namespace Lone

variable {v v' : Shared} {t t' : Interleaving.Task Chore.Result} {place : Option Nat} {d : Deed}

theorem begin (running : w.stopped = false) :
    Lone w [] w (.begin (Chore.errand (.sweep batchOfOne)).flow) :=
  ⟨Run.start.quiet (.begin _ _), running, fun _ hm => absurd hm List.not_mem_nil⟩

theorem quiet (h : Lone w ms v t) (step : t.Quiet t') : Lone w ms v t' :=
  ⟨h.run.quiet (.quiet (i := 0) rfl step), h.running, h.moves⟩

theorem step (h : Lone w ms v t) (step : t.Step v place d v' t') (running : v'.stopped = false)
    (calm : IsCalm ⟨⟨0, place⟩, .errand (.sweep batchOfOne), v, d, v'⟩) :
    Lone w (ms ++ [⟨⟨0, place⟩, .errand (.sweep batchOfOne), v, d, v'⟩]) v' t' := by
  refine ⟨h.run.move (.move (i := 0) rfl step), running, ?_⟩
  intro m hm
  rcases List.mem_append.mp hm with hm | hm
  · exact h.moves m hm
  · rw [List.mem_singleton.mp hm]
    exact ⟨rfl, calm⟩

theorem season {ends : Interleaving.Task Chore.Result → Prop} (h : Lone w ms v t)
    (old : r.updatedAt < ⟨0⟩) (ended : ends t) :
    Season ends batchOfOne r ⟨0⟩ 1 w ms ⟨v, [⟨.errand (.sweep batchOfOne), t⟩]⟩ [0] where
  run := h.run
  turn := by
    refine List.pairwise_map.mpr (List.pairwise_of_forall_mem_list ?_)
    intro m hm m' hm'
    rw [(h.moves m hm).1, (h.moves m' hm').1]
  later := by
    rintro k t ⟨m, at_k, deed⟩
    have calm := (h.moves m (List.mem_of_getElem? at_k)).2
    unfold IsCalm at calm
    rw [deed] at calm
    rw [show t = ⟨0⟩ from calm]
    exact ⟨old, Int.le_refl _⟩
  running := h.running
  ascending := List.pairwise_singleton _ _
  ended := by
    intro i mine
    rw [List.mem_singleton.mp mine]
    exact ⟨_, rfl, rfl, ended⟩
  written := by
    intro m hm _ y a deed
    have calm := (h.moves m hm).2
    unfold IsCalm at calm
    rw [deed] at calm
    exact calm
  alone := fun m hm other => absurd (List.mem_singleton.mpr (h.moves m hm).1) other
  vacant := by
    intro m hm _ before rows deed
    have calm := (h.moves m hm).2
    unfold IsCalm at calm
    rw [deed] at calm
    rw [show _ = 0 from calm]
    exact Nat.le_refl 1

end Lone

def sharing (rows : List Subscription) : Shared :=
  ⟨.memory ⟨rows⟩, .memory {}, [], [], false, false⟩

theorem season_of_one (rows : List Subscription) {x b : Subscription} (old : r.updatedAt < ⟨0⟩)
    (listed : ((sharing rows).subscriptions.answer (.findExpiring ⟨86400000000000⟩ 1)).1 =
      some (.ok [x]))
    (idle : rows.countP (Store.dueActive ⟨86400000000000⟩) = 0)
    (wrote : ((sharing rows).subscriptions.answer (.update (x.markFailed ⟨0⟩))).1 =
      some (.ok b)) :
    ∃ ms s, Season Reports batchOfOne r ⟨0⟩ 1 (sharing rows) ms s [0] ∧
      s.shared.subscriptions.rows =
        ((sharing rows).subscriptions.answer (.update (x.markFailed ⟨0⟩))).2.rows.map
          fun y => (y.markExpired ⟨0⟩).1 := by
  have h : Lone (sharing rows) [] (sharing rows) _ := .begin rfl
  have h := h.step (.line (.answer (a := true) (by exact ⟨rfl, rfl⟩) id False.elim)) rfl
    (by exact trivial)
  have h := h.step (.line (.answer (a := Instant.mk 0) (by exact ⟨isReading_epoch, rfl⟩) id
    False.elim)) rfl (by exact rfl)
  have h := h.step (.line (.answer (a := some (Except.ok [x]))
    (by exact Or.inl ⟨listed.symm, rfl⟩) id False.elim)) rfl (by exact idle)
  -- The renewal is tried, and the row is written as failed.
  have h := h.quiet .fork
  have h := h.quiet (.begin (by exact Nat.one_pos) rfl)
  have h := h.step (.renewal (k := 0) rfl (.answer (a := false) (by exact ⟨rfl, rfl⟩) id
    False.elim)) rfl (by exact trivial)
  have h := h.step (.renewal (k := 0) rfl (.call (by exact rfl))) rfl (by exact trivial)
  have h := h.step (.renewal (k := 0) rfl (.answer (a := some (.error (.transport "down")))
    (by exact ⟨iff_of_false (Option.some_ne_none _) Bool.false_ne_true, rfl⟩) id fun _ => rfl))
    rfl (by exact trivial)
  have h := h.step (.renewal (k := 0) rfl (.answer (a := Instant.mk 0)
    (by exact ⟨isReading_epoch, rfl⟩) id False.elim)) rfl (by exact rfl)
  have h := h.step (.renewal (k := 0) rfl (.answer (a := some (.ok b))
    (by exact Or.inl ⟨wrote.symm, rfl⟩) id False.elim)) rfl (by exact wrote.symm)
  have h := h.quiet (.finish (k := 0) rfl)
  -- What has run out is marked, the renewals are counted, and the lock is given back.
  have h := h.step (.joined ⟨rfl, rfl⟩) rfl (by exact trivial)
  have h := h.step (.line (.answer (a := false) (by exact ⟨rfl, rfl⟩) id False.elim)) rfl
    (by exact trivial)
  have h := h.step (.line (.answer (a := Instant.mk 0) (by exact ⟨isReading_epoch, rfl⟩) id
    False.elim)) rfl (by exact rfl)
  have h := h.step (.line (.answer (a := some (Except.ok (((sharing rows).subscriptions.answer
      (.update (x.markFailed ⟨0⟩))).2.rows.countP (·.isLapsed ⟨0⟩))))
    (by exact Or.inl ⟨(Subscriptions.answer_markLapsed_eq _ _).symm, rfl⟩) id False.elim)) rfl
    (by exact trivial)
  have h := h.step (.line (.answer (a := ()) (by exact rfl) id False.elim)) rfl (by exact trivial)
  have h := h.step (.line (.answer (a := ()) (by exact rfl) id False.elim)) rfl (by exact trivial)
  have h := h.step (.line (.answer (a := ()) (by exact rfl) id False.elim)) rfl (by exact trivial)
  have h := h.step (.line (.answer (a := ()) (by exact rfl) id False.elim)) rfl (by exact trivial)
  have h := h.step (.line (.answer (a := ()) (by exact rfl) id False.elim)) rfl (by exact trivial)
  have h := h.step (.line (.answer (a := ()) (by exact rfl) id False.elim)) rfl (by exact trivial)
  exact ⟨_, _, h.season old ⟨_, rfl⟩, Subscriptions.answer_markLapsed _ _⟩

theorem listed_of_retries {x : Subscription}
    (retries : (x :: rows).filter (Store.dueRetry before) = x :: rows)
    (idle : (x :: rows).filter (Store.dueActive before) = [])
    (sorted : (x :: rows).Pairwise fun y z => y.updatedAt ≤ z.updatedAt) :
    ((sharing (x :: rows)).subscriptions.answer (.findExpiring before 1)).1 = some (.ok [x]) := by
  let stored : Store.MemorySubscriptions := ⟨x :: rows⟩
  have active : stored.dueActive before = [] := by
    show List.mergeSort (List.filter (Store.dueActive before) (x :: rows)) _ = _
    rw [idle]
    exact List.mergeSort_nil
  have others : stored.dueRetries before = x :: rows := by
    show List.mergeSort (List.filter (Store.dueRetry before) (x :: rows)) _ = _
    rw [retries]
    exact List.mergeSort_of_pairwise (sorted.imp decide_eq_true)
  show some (Except.ok (stored.expiring before 1)) = _
  rw [Store.MemorySubscriptions.expiring, active, others]
  rfl

/-- A row that has failed, and runs out within a minute. -/
def failedRow (id : Nat) (channelId : String) : Subscription :=
  { Errand.plainRow .failed none with
    id := .drawn id, channelId, topicUrl := topicUrl channelId, updatedAt := ⟨-1⟩ }

/-- Two rows failed at one instant, and a sweep takes one row: the second sweep takes the one that
the first has left. -/
theorem retries_rotate_twice :
    let r := failedRow 0 "a"
    let store := .memory ⟨[r, failedRow 1 "b"]⟩
    ∃ seasons, Seasons Reports batchOfOne r ⟨0⟩ 1 store seasons ∧
      Waits batchOfOne r ⟨0⟩ store ∧ ahead r store.rows = 1 ∧ (sweepsOf seasons).length = 2 ∧
      ∃ n ≤ 1, ∃ ms i, (sweepsOf seasons)[n]? = some (ms, i) ∧ Attempts ms i r := by
  intro r store
  -- The other one comes first, fails once more, and comes last.
  let x := failedRow 1 "b"
  let x' := x.markFailed ⟨0⟩
  obtain ⟨ms, s, season, left⟩ := season_of_one (r := r) [x, r] (b := x') (by decide)
    (listed_of_retries rfl rfl (by decide)) rfl rfl
  obtain ⟨ms', s', season', -⟩ := season_of_one (r := r) [r, x'] (b := r.markFailed ⟨0⟩)
    (by decide) (listed_of_retries rfl rfl (by decide)) rfl rfl
  have seasons : Seasons Reports batchOfOne r ⟨0⟩ 1 store [(ms, [0]), (ms', [0])] := by
    refine .cons (w := sharing [x, r]) (.swap _ _ _) season
      (.cons (w := sharing [r, x']) ?_ season' (.nil _))
    rw [left]
    exact .swap _ _ _
  have ids : [r.id, x.id].Nodup := by decide
  have waits : Waits batchOfOne r ⟨0⟩ store := ⟨ids, List.mem_cons_self, rfl, _, rfl, by decide⟩
  have one : ahead r store.rows = 1 := by decide
  obtain ⟨n, le, attempted⟩ :=
    retries_rotate seasons waits Nat.one_pos (by rw [one]; exact Nat.lt_succ_self 1)
  rw [one] at le
  exact ⟨_, seasons, waits, one, rfl, n, le, attempted⟩

/-! ## A row that waits in vain -/

/-- The sweep has ended in one way or another. -/
def HasEnded (t : Interleaving.Task Chore.Result) : Prop := t.result?.isSome ∨ t.rest = .crash

/-- Retries rotate whatever the sweeps come to. -/
def RotateRegardless : Prop :=
  ∀ (settings : Settings) (r : Subscription) (now : Instant) (room : Nat) (store : Subscriptions)
    (seasons : List (List (Move Chore) × List Nat)),
    Seasons HasEnded settings r now room store seasons → Waits settings r now store → 0 < room →
    ahead r store.rows / room < (sweepsOf seasons).length →
    ∃ n ≤ ahead r store.rows / room, ∃ ms i,
      (sweepsOf seasons)[n]? = some (ms, i) ∧ Attempts ms i r

/-- A row that has failed, and whose lease no instant is left for. -/
def endlessRow : Subscription := { failedRow 1 "b" with leaseSeconds := 9000000000000000 }

/-- It comes first, and another row waits behind it. -/
def behindEndless : List Subscription := [endlessRow, failedRow 0 "a"]

theorem season_of_endless :
    ∃ ms s, Season HasEnded batchOfOne (failedRow 0 "a") ⟨0⟩ 1 (sharing behindEndless) ms s [0] ∧
      s.shared.subscriptions.rows = behindEndless ∧ ¬ Attempts ms 0 (failedRow 0 "a") := by
  have listed : ((sharing behindEndless).subscriptions.answer
      (.findExpiring ⟨86400000000000⟩ 1)).1 = some (.ok [endlessRow]) :=
    listed_of_retries rfl rfl (by decide)
  have h : Lone (sharing behindEndless) [] (sharing behindEndless) _ := .begin rfl
  have h := h.step (.line (.answer (a := true) (by exact ⟨rfl, rfl⟩) id False.elim)) rfl
    (by exact trivial)
  have h := h.step (.line (.answer (a := Instant.mk 0) (by exact ⟨isReading_epoch, rfl⟩) id
    False.elim)) rfl (by exact rfl)
  have h := h.step (.line (.answer (a := some (Except.ok [endlessRow]))
    (by exact Or.inl ⟨listed.symm, rfl⟩) id False.elim)) rfl (by exact rfl)
  have h := h.quiet .fork
  have h := h.quiet (.begin (by exact Nat.one_pos) rfl)
  have h := h.step (.renewal (k := 0) rfl (.answer (a := false) (by exact ⟨rfl, rfl⟩) id
    False.elim)) rfl (by exact trivial)
  have h := h.step (.renewal (k := 0) rfl (.call (by exact rfl))) rfl (by exact trivial)
  have h := h.step (.renewal (k := 0) rfl (.answer (a := some (.ok ⟨true, 202, none⟩))
    (by exact ⟨iff_of_false (Option.some_ne_none _) Bool.false_ne_true, rfl⟩) id fun _ => rfl))
    rfl (by exact trivial)
  have h := h.step (.renewal (k := 0) rfl (.answer (a := Instant.mk 0)
    (by exact ⟨isReading_epoch, rfl⟩) id False.elim)) rfl (by exact rfl)
  -- The lease would end at no instant: nothing is written, and the row comes first again.
  have h := h.step (.broken (k := 0) rfl) rfl (by exact trivial)
  have h := h.step (.line (.answer (a := ()) (by exact rfl) id False.elim)) rfl (by exact trivial)
  refine ⟨_, _, h.season (by decide) (Or.inr rfl), rfl, ?_⟩
  rintro ⟨k, rows, before, limit, found, row, -⟩
  have found : ⟨.subscriptions (.findExpiring before limit), some (.ok rows)⟩ ∈
      ([⟨.lockSweeps, true⟩, ⟨.now, ⟨0⟩⟩,
        ⟨.subscriptions (.findExpiring ⟨86400000000000⟩ 1), some (.ok [endlessRow])⟩,
        ⟨.renewAll 1 [endlessRow], none⟩, ⟨.unlockSweeps, ()⟩] : List Exchange) := found
  have only : rows = [endlessRow] := by
    match found with
    | .tail _ (.tail _ (.head _)) => rfl
  rw [only] at row
  exact absurd (List.mem_singleton.mp (List.mem_of_getElem? row)) (by decide)

/-- However many sweeps there are, none of them attempts the row behind it. -/
theorem waits_in_vain (n : Nat) {store : Subscriptions} (start : store.rows = behindEndless) :
    ∃ seasons, Seasons HasEnded batchOfOne (failedRow 0 "a") ⟨0⟩ 1 store seasons ∧
      (sweepsOf seasons).length = n ∧
        ∀ ms i, (ms, i) ∈ sweepsOf seasons → ¬ Attempts ms i (failedRow 0 "a") := by
  obtain ⟨ms, s, season, left, vain⟩ := season_of_endless
  induction n generalizing store with
  | zero => exact ⟨[], .nil _, rfl, fun _ _ at_n => absurd at_n List.not_mem_nil⟩
  | succ n ih =>
    obtain ⟨seasons, next, length, others⟩ := ih left
    refine ⟨(ms, [0]) :: seasons, .cons (w := sharing behindEndless) ?_ season next,
      congrArg Nat.succ length, ?_⟩
    · rw [start]
      exact .refl _
    · intro ms' i at_n
      rcases List.mem_cons.mp at_n with same | at_n
      · cases same
        exact vain
      · exact others ms' i at_n

theorem rotation_stalls : ¬ RotateRegardless := by
  intro rotate
  let store : Subscriptions := .memory ⟨behindEndless⟩
  obtain ⟨seasons, sweeps, two, vain⟩ := waits_in_vain 2 (show store.rows = behindEndless from rfl)
  have ids : (behindEndless.map (·.id)).Nodup := by decide
  have waits : Waits batchOfOne (failedRow 0 "a") ⟨0⟩ store :=
    ⟨ids, List.mem_cons_of_mem _ List.mem_cons_self, rfl, _, rfl, by decide⟩
  have one : ahead (failedRow 0 "a") store.rows = 1 := by decide
  obtain ⟨n, -, ms, i, at_n, attempts⟩ :=
    rotate _ _ _ _ _ seasons sweeps waits Nat.one_pos (by rw [one, two]; decide)
  exact vain ms i (List.mem_of_getElem? at_n) attempts

end WebSub.Sweep
