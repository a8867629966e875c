import WebSub.Proofs.Store.Selection

/-!
# What a store and a row mean by being due

A batch with room for every row has all that run out by its bound, those still pending apart. A row
on its own says the same of the bound at the end of a span, except that it never calls itself due
once it has expired.
-/

namespace WebSub

namespace Subscription

variable {r : Subscription} {now before : Instant} {lookahead : Duration}

theorem needsRenewal_of_add (reach : now.add? lookahead = some before) :
    r.needsRenewal? now lookahead =
      some (decide ((r.status = .active ∨ r.status = .failed) ∧ r.expiresAt ≤ before)) := by
  rw [needsRenewal?]
  split
  case isTrue counts =>
    rw [reach, Option.map_some]
    simp only [counts, true_and]
  case isFalse other =>
    simp only [other, false_and, decide_false]

end Subscription

namespace Store

section

variable {rows page : List Subscription} {p : Subscription → Bool} {key : Subscription → Instant}
  {limit : Nat} {before : Instant} {r : Subscription}

theorem IsPage.mem_iff (h : IsPage rows p key limit 0 page) (room : rows.countP p ≤ limit) :
    r ∈ page ↔ r ∈ rows ∧ p r = true := by
  refine ⟨h.mem, ?_⟩
  rintro ⟨hr, meets⟩
  by_contra left
  have full := (h.left_out hr meets left).1
  obtain ⟨whole, perm, sub⟩ := h.sublist
  have all : whole.length = rows.countP p := by
    rw [perm.length_eq, List.countP_eq_length_filter]
  have same : page = whole := sub.eq_of_length_le (by omega)
  exact left (same ▸ perm.mem_iff.mpr (List.mem_filter.mpr ⟨hr, meets⟩))

theorem countP_due_le : rows.countP (dueActive before) + rows.countP (dueRetry before) ≤
    rows.length := by
  have apart : ∀ r ∈ rows, dueRetry before r = true →
      decide (¬ dueActive before r = true) = true := by
    intro r _ retry
    exact decide_eq_true fun active => not_active_of_dueRetry retry (dueActive_iff.mp active).1
  rw [List.length_eq_countP_add_countP (dueActive before)]
  exact Nat.add_le_add_left (List.countP_mono_left apart) _

theorem due_iff : (dueActive before r = true ∨ dueRetry before r = true) ↔
    r.status ≠ .pending ∧ r.expiresAt ≤ before := by
  rw [dueActive_iff, dueRetry_iff, ← or_and_right]
  refine and_congr_left fun _ => ?_
  cases r.status <;> decide

end

namespace Subscriptions

variable {s : Subscriptions} {before : Instant} {limit : Nat}

theorem findExpiring_whole (before : Instant) (reads : s.Reads limit)
    (room : s.rows.length ≤ limit) :
    ∃ found, (s.answer (.findExpiring before limit)).1 = some (.ok found) ∧
      ∀ r, r ∈ found ↔ r ∈ s.rows ∧ r.status ≠ .pending ∧ r.expiresAt ≤ before := by
  obtain ⟨others, answer, first, second⟩ := answer_firstDue before reads
  have apart : s.rows.countP (dueActive before) + s.rows.countP (dueRetry before) ≤
      s.rows.length := countP_due_le
  have taken := first.length_le
  refine ⟨_, answer, ?_⟩
  intro r
  rw [List.mem_append, first.mem_iff (by omega), second.mem_iff (by omega), ← and_or_left, due_iff]

/-- In either store, whatever it holds, a batch with room for every row has the row at hand just if
the row needs to be renewed, as long as it has not expired. A row that has expired is in the batch
whenever it runs out by its bound, but it never says that it needs to be renewed. -/
theorem findExpiring_needsRenewal {now : Instant} {lookahead : Duration}
    (reach : now.add? lookahead = some before) (reads : s.Reads limit)
    (room : s.rows.length ≤ limit) :
    ∃ found, (s.answer (.findExpiring before limit)).1 = some (.ok found) ∧
      (∀ r ∈ found, r ∈ s.rows) ∧
      ∀ r ∈ s.rows,
        (r.status ≠ .expired → (r ∈ found ↔ r.needsRenewal? now lookahead = some true)) ∧
        (r.status = .expired → (r ∈ found ↔ r.expiresAt ≤ before) ∧
          r.needsRenewal? now lookahead = some false) := by
  obtain ⟨found, answer, whole⟩ := findExpiring_whole before reads room
  refine ⟨found, answer, fun r hr => ((whole r).mp hr).1, ?_⟩
  intro r hr
  have inBatch : r ∈ found ↔ r.status ≠ .pending ∧ r.expiresAt ≤ before :=
    (whole r).trans (and_iff_right hr)
  rw [inBatch, Subscription.needsRenewal_of_add reach, Option.some_inj, decide_eq_true_iff,
    Option.some_inj, decide_eq_false_iff_not]
  cases r.status <;> simp

/-- One row that is active and one that has expired, an hour before both have run out. -/
theorem findExpiring_needsRenewal_hour :
    let expired : Subscription := { Stores.dueRow 1 "b" with status := .expired }
    let s : Subscriptions := .table ⟨[Stores.dueRow 0 "a", expired]⟩
    let hour : Instant := ⟨3600 * Instant.nanosPerSecond⟩
    Instant.add? ⟨0⟩ ⟨3600 * Instant.nanosPerSecond⟩ = some hour ∧ s.Reads 2 ∧ s.rows.length ≤ 2 ∧
      ∃ found, (s.answer (.findExpiring hour 2)).1 = some (.ok found) ∧
        Stores.dueRow 0 "a" ∈ found ∧ expired ∈ found := by
  intro expired s hour
  have reach : Instant.add? ⟨0⟩ ⟨3600 * Instant.nanosPerSecond⟩ = some hour := by decide
  have reads : s.Reads 2 := show SubscriptionTable.fits 2 = true by decide
  have room : s.rows.length ≤ 2 := by decide
  obtain ⟨found, answer, -, agree⟩ := findExpiring_needsRenewal reach reads room
  refine ⟨reach, reads, room, found, answer, ?active, ?expired⟩
  case active =>
    refine ((agree (Stores.dueRow 0 "a") List.mem_cons_self).1 (by decide)).mpr ?_
    decide
  case expired =>
    exact ((agree expired (by decide)).2 rfl).1.mpr (by decide)

/-- A row that has expired is in the batch and does not need to be renewed. -/
theorem expired_in_batch :
    ¬ ∀ (s : Subscriptions) (now : Instant) (lookahead : Duration) (before : Instant) (limit : Nat)
      (found : List Subscription), now.add? lookahead = some before → s.rows.length ≤ limit →
      (s.answer (.findExpiring before limit)).1 = some (.ok found) →
      ∀ r ∈ s.rows, (r ∈ found ↔ r.needsRenewal? now lookahead = some true) := by
  intro agree
  let expired : Subscription := { Stores.dueRow 0 "a" with status := .expired }
  let s : Subscriptions := .memory ⟨[expired]⟩
  have reads : s.Reads 1 := trivial
  obtain ⟨found, answer, whole⟩ :=
    findExpiring_whole (s := s) ⟨Instant.nanosPerSecond⟩ reads (by decide)
  have mem : expired ∈ found := (whole expired).mpr (by decide)
  have due := (agree s ⟨0⟩ ⟨Instant.nanosPerSecond⟩ ⟨Instant.nanosPerSecond⟩ 1 found (by decide)
    (by decide) answer expired List.mem_cons_self).mp mem
  revert due
  decide

end Subscriptions

end Store

end WebSub
