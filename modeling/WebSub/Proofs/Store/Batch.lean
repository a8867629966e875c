import WebSub.Proofs.Store.Interchange

/-!
# What a batch leaves out

Rows that run out are looked for a batch at a time. A row that failed or expired is left out only
if the batch is full, and if all the rows of that kind in it were changed no later.
-/

namespace WebSub.Store

/-- Failed or expired: to be tried again. -/
def isRetry (r : Subscription) : Bool := r.status == .failed || r.status == .expired

section

variable {rows page : List Subscription} {p : Subscription → Bool}
  {key : Subscription → Instant} {limit : Nat} {r : Subscription}

theorem IsPage.sublist (h : IsPage rows p key limit 0 page) :
    ∃ whole : List Subscription, whole.Perm (rows.filter p) ∧ page.Sublist whole := by
  obtain ⟨whole, meets, -, rfl⟩ := h
  exact ⟨whole, meets, List.take_sublist _ _⟩

theorem IsPage.sorted {offset : Nat} (h : IsPage rows p key limit offset page) :
    page.Pairwise fun a b => key a ≤ key b := by
  obtain ⟨whole, -, sorted, rfl⟩ := h
  exact sorted.sublist ((List.take_sublist _ _).trans (List.drop_sublist _ _))

theorem IsPage.length_le_limit {offset : Nat} (h : IsPage rows p key limit offset page) :
    page.length ≤ limit := by
  obtain ⟨whole, -, -, rfl⟩ := h
  exact List.length_take_le _ _

theorem IsPage.mem (h : IsPage rows p key limit 0 page) (hr : r ∈ page) :
    r ∈ rows ∧ p r = true := by
  obtain ⟨whole, meets, sub⟩ := h.sublist
  exact List.mem_filter.mp (meets.subset (sub.subset hr))

theorem IsPage.length_le (h : IsPage rows p key limit 0 page) : page.length ≤ rows.countP p := by
  obtain ⟨whole, meets, sub⟩ := h.sublist
  rw [List.countP_eq_length_filter, ← meets.length_eq]
  exact sub.length_le

theorem IsPage.left_out (h : IsPage rows p key limit 0 page) (hr : r ∈ rows) (meets : p r = true)
    (left : r ∉ page) : page.length = limit ∧ ∀ x ∈ page, key x ≤ key r := by
  obtain ⟨whole, perm, sorted, rfl⟩ := h
  have mem : r ∈ whole := perm.mem_iff.mpr (List.mem_filter.mpr ⟨hr, meets⟩)
  change r ∉ whole.take limit at left
  change (whole.take limit).length = limit ∧ ∀ x ∈ whole.take limit, key x ≤ key r
  have rest : r ∈ whole.drop limit := by
    rw [← List.take_append_drop limit whole] at mem
    exact (List.mem_append.mp mem).resolve_left left
  have longer : limit < whole.length := by
    have positive := List.length_pos_of_mem rest
    rw [List.length_drop] at positive
    omega
  rw [← List.take_append_drop limit whole] at sorted
  refine ⟨List.length_take_of_le (Nat.le_of_lt longer), ?_⟩
  intro x hx
  exact (List.pairwise_append.mp sorted).2.2 x hx r rest

end

namespace Subscriptions

variable {s : Subscriptions} {before : Instant} {limit : Nat} {found : List Subscription}
  {r : Subscription}

theorem pages_of_findExpiring (h : (s.answer (.findExpiring before limit)).1 = some (.ok found)) :
    ∃ active retries, found = active ++ retries ∧
      IsPage s.rows (dueActive before) (·.expiresAt) limit 0 active ∧
      IsPage s.rows (dueRetry before) (·.updatedAt) (limit - active.length) 0 retries := by
  cases s with
  | memory m =>
    cases h
    exact ⟨_, _, rfl, isPage_mergeSort m.rows (dueActive before) (·.expiresAt) limit 0,
      isPage_mergeSort m.rows (dueRetry before) (·.updatedAt) _ 0⟩
  | table t =>
    by_cases fits : SubscriptionTable.fits limit = true
    · obtain ⟨active, retries, answer, pages⟩ := answer_findExpiring (table t) before fits
      rw [h] at answer
      cases answer
      exact ⟨active, retries, rfl, pages⟩
    · simp [answer, SubscriptionTable.answer, fits] at h

theorem limit_le_of_left_out (h : (s.answer (.findExpiring before limit)).1 = some (.ok found))
    (hr : r ∈ s.rows) (retry : isRetry r = true) (due : r.expiresAt ≤ before) (left : r ∉ found) :
    limit ≤ s.rows.countP (dueActive before) +
      found.countP fun x => isRetry x && decide (x.updatedAt ≤ r.updatedAt) := by
  obtain ⟨active, retries, rfl, actives, others⟩ := pages_of_findExpiring h
  have dueRetry_r : dueRetry before r = true := by
    rw [dueRetry, show (r.status == .failed || r.status == .expired) = true from retry]
    exact decide_eq_true due
  obtain ⟨full, older⟩ :=
    others.left_out hr dueRetry_r fun mem => left (List.mem_append_right _ mem)
  have all : retries.countP (fun x => isRetry x && decide (x.updatedAt ≤ r.updatedAt)) =
      retries.length := by
    rw [List.countP_eq_length]
    intro x hx
    have meets := (others.mem hx).2
    rw [dueRetry, Bool.and_eq_true] at meets
    rw [Bool.and_eq_true]
    exact ⟨meets.1, decide_eq_true (older x hx)⟩
  have few := actives.length_le
  rw [List.countP_append, all]
  omega

end Subscriptions

end WebSub.Store
