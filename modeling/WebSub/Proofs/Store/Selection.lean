import WebSub.Proofs.Store.Batch

/-!
# Which rows make a batch

Of the rows that run out, active ones go into a batch first, those that run out soonest. What room
they leave is filled with failed and expired ones, those that were changed longest ago.
-/

namespace WebSub.Store

/-- What a batch of at most `limit` rows is to be. Each row is due, active ones stand before
others, and what is left out had to give way. -/
structure Selects (rows : List Subscription) (before : Instant) (limit : Nat)
    (found : List Subscription) : Prop where
  once : (found.map (·.id)).Nodup
  few : found.length ≤ limit
  stored : ∀ r ∈ found, r ∈ rows
  due : ∀ r ∈ found, r.expiresAt ≤ before
  status : ∀ r ∈ found, r.status = .active ∨ r.status = .failed ∨ r.status = .expired
  activeFirst : found.Pairwise fun a b => b.status = .active → a.status = .active
  byExpiry : found.Pairwise fun a b =>
    a.status = .active → b.status = .active → a.expiresAt ≤ b.expiresAt
  byChange : found.Pairwise fun a b =>
    a.status ≠ .active → b.status ≠ .active → a.updatedAt ≤ b.updatedAt
  /-- Others come in only once no active row is left. -/
  spare : ∀ x ∈ found, x.status ≠ .active →
    ∀ r ∈ rows, r.status = .active → r.expiresAt ≤ before → r ∈ found
  activeLeft : ∀ r ∈ rows, r.status = .active → r.expiresAt ≤ before → r ∉ found →
    found.countP (fun x => x.status == .active && decide (x.expiresAt ≤ r.expiresAt)) = limit
  otherLeft : ∀ r ∈ rows, r.status = .failed ∨ r.status = .expired → r.expiresAt ≤ before →
    r ∉ found → found.length = limit ∧
      ∀ x ∈ found, x.status = .failed ∨ x.status = .expired → x.updatedAt ≤ r.updatedAt

section

variable {before : Instant} {r : Subscription}

theorem dueActive_iff : dueActive before r = true ↔ r.status = .active ∧ r.expiresAt ≤ before := by
  rw [dueActive, Bool.and_eq_true, beq_iff_eq, decide_eq_true_iff]

theorem dueRetry_iff : dueRetry before r = true ↔
    (r.status = .failed ∨ r.status = .expired) ∧ r.expiresAt ≤ before := by
  rw [dueRetry, Bool.and_eq_true, Bool.or_eq_true, beq_iff_eq, beq_iff_eq, decide_eq_true_iff]

theorem not_active_of_dueRetry (h : dueRetry before r = true) : r.status ≠ .active := by
  intro active
  rcases (dueRetry_iff.mp h).1 with other | other
  · exact Status.noConfusion (active.symm.trans other)
  · exact Status.noConfusion (active.symm.trans other)

end

section

variable {rows active others : List Subscription} {before : Instant} {limit : Nat}

theorem selects_of_pages (ids : ((active ++ others).map (·.id)).Nodup)
    (first : IsPage rows (dueActive before) (·.expiresAt) limit 0 active)
    (second : IsPage rows (dueRetry before) (·.updatedAt) (limit - active.length) 0 others) :
    Selects rows before limit (active ++ others) := by
  have isActive : ∀ r ∈ active, r.status = .active ∧ r.expiresAt ≤ before :=
    fun r hr => dueActive_iff.mp (first.mem hr).2
  have isOther : ∀ r ∈ others, r.status ≠ .active :=
    fun r hr => not_active_of_dueRetry (second.mem hr).2
  have few := first.length_le_limit
  have room := second.length_le_limit
  refine ⟨ids, ?few, ?stored, ?due, ?status, ?activeFirst, ?byExpiry, ?byChange, ?spare,
    ?activeLeft, ?otherLeft⟩
  case few =>
    rw [List.length_append]
    omega
  case stored =>
    intro r hr
    rcases List.mem_append.mp hr with hr | hr
    · exact (first.mem hr).1
    · exact (second.mem hr).1
  case due =>
    intro r hr
    rcases List.mem_append.mp hr with hr | hr
    · exact (isActive r hr).2
    · exact (dueRetry_iff.mp (second.mem hr).2).2
  case status =>
    intro r hr
    rcases List.mem_append.mp hr with hr | hr
    · exact Or.inl (isActive r hr).1
    · exact Or.inr (dueRetry_iff.mp (second.mem hr).2).1
  case activeFirst =>
    refine List.pairwise_append.mpr ⟨?_, ?_, ?_⟩
    · exact List.pairwise_of_forall_mem_list fun a ha b _ _ => (isActive a ha).1
    · exact List.pairwise_of_forall_mem_list fun a _ b hb now => absurd now (isOther b hb)
    · exact fun a ha b hb now => absurd now (isOther b hb)
  case byExpiry =>
    refine List.pairwise_append.mpr ⟨first.sorted.imp fun le _ _ => le, ?_, ?_⟩
    · exact List.pairwise_of_forall_mem_list fun a ha b _ now => absurd now (isOther a ha)
    · exact fun a _ b hb _ now => absurd now (isOther b hb)
  case byChange =>
    refine List.pairwise_append.mpr ⟨?_, second.sorted.imp fun le _ _ => le, ?_⟩
    · exact List.pairwise_of_forall_mem_list fun a ha b _ other => absurd (isActive a ha).1 other
    · exact fun a ha b _ other => absurd (isActive a ha).1 other
  case spare =>
    intro x hx other r hr now due
    by_contra left
    have full := (first.left_out hr (dueActive_iff.mpr ⟨now, due⟩)
      fun mem => left (List.mem_append_left _ mem)).1
    rcases List.mem_append.mp hx with hx | hx
    · exact other (isActive x hx).1
    · have positive := List.length_pos_of_mem hx
      omega
  case activeLeft =>
    intro r hr now due left
    obtain ⟨full, sooner⟩ := first.left_out hr (dueActive_iff.mpr ⟨now, due⟩)
      fun mem => left (List.mem_append_left _ mem)
    have none : others = [] := List.eq_nil_of_length_eq_zero (by omega)
    rw [none, List.append_nil, ← full, List.countP_eq_length]
    intro x hx
    rw [Bool.and_eq_true, beq_iff_eq, decide_eq_true_iff]
    exact ⟨(isActive x hx).1, sooner x hx⟩
  case otherLeft =>
    intro r hr other due left
    obtain ⟨full, earlier⟩ := second.left_out hr (dueRetry_iff.mpr ⟨other, due⟩)
      fun mem => left (List.mem_append_right _ mem)
    refine ⟨by rw [List.length_append]; omega, ?_⟩
    intro x hx status
    rcases List.mem_append.mp hx with hx | hx
    · have active := (isActive x hx).1
      rw [active] at status
      rcases status with status | status <;> cases status
    · exact earlier x hx

end

namespace Subscriptions

/-- The active rows of a batch, whose number is taken off the limit. -/
def firstDue (before : Instant) (limit : Nat) : Subscriptions → List Subscription
  | memory m => (m.dueActive before).take limit
  | table t => t.selectBy (SubscriptionTable.dueActive before) (·.expiresAt) limit 0

theorem answer_firstDue {s : Subscriptions} (before : Instant) {limit : Nat}
    (reads : s.Reads limit) : ∃ others,
      (s.answer (.findExpiring before limit)).1 = some (.ok (s.firstDue before limit ++ others)) ∧
        IsPage s.rows (dueActive before) (·.expiresAt) limit 0 (s.firstDue before limit) ∧
        IsPage s.rows (dueRetry before) (·.updatedAt) (limit - (s.firstDue before limit).length) 0
          others := by
  cases s with
  | memory m =>
    exact ⟨_, rfl, isPage_mergeSort m.rows (dueActive before) (·.expiresAt) limit 0,
      isPage_mergeSort m.rows (dueRetry before) (·.updatedAt) _ 0⟩
  | table t =>
    have fits : SubscriptionTable.fits limit = true := reads
    have first := isPage_selectBy t (c := SubscriptionTable.dueActive before)
      (p := dueActive before) (fun r => rfl) (·.expiresAt) limit 0
    have others := isPage_selectBy t (c := SubscriptionTable.dueRetry before)
      (p := dueRetry before) (fun r => rfl) (·.updatedAt)
    refine ⟨_, ?_, first, others _ 0⟩
    simp only [answer, SubscriptionTable.answer, fits, if_true, SubscriptionTable.expiring]
    split
    case isTrue => rfl
    case isFalse full =>
      rw [firstDue, Nat.eq_zero_of_not_pos full]
      simp [SubscriptionTable.selectBy]

/-- Whatever either store holds, it answers with the right batch for every bound and limit that it
can be asked with. The number that is taken off the limit to find the room for failed and expired
rows is never above it. -/
theorem findExpiring_selects {s : Subscriptions} (ids : s.UniqueIds) (before : Instant)
    {limit : Nat} (reads : s.Reads limit) :
    (s.firstDue before limit).length ≤ limit ∧
      ∃ others,
        (s.answer (.findExpiring before limit)).1 = some (.ok (s.firstDue before limit ++ others)) ∧
          Selects s.rows before limit (s.firstDue before limit ++ others) := by
  obtain ⟨others, answer, first, second⟩ := answer_firstDue before reads
  exact ⟨first.length_le_limit, others, answer,
    selects_of_pages (ids.findExpiring answer) first second⟩

/-- A batch of one has no room for the failed row, though the failed row was stored first. -/
theorem findExpiring_selects_full :
    let failed : Subscription := { Stores.dueRow 0 "a" with status := .failed }
    let s : Subscriptions := .table ⟨[failed, Stores.dueRow 1 "b"]⟩
    (s.answer (.findExpiring ⟨Instant.nanosPerSecond⟩ 1)).1 = some (.ok [Stores.dueRow 1 "b"]) ∧
      Selects s.rows ⟨Instant.nanosPerSecond⟩ 1 [Stores.dueRow 1 "b"] := by
  intro failed s
  have first : s.firstDue ⟨Instant.nanosPerSecond⟩ 1 = [Stores.dueRow 1 "b"] := by
    have sorted : [Stores.dueRow 1 "b"].mergeSort (fun a b => decide (a.expiresAt ≤ b.expiresAt)) =
        [Stores.dueRow 1 "b"] := List.mergeSort_singleton _
    exact congrArg (List.take 1) sorted
  have ids : s.UniqueIds := show [Uuid.drawn 0, Uuid.drawn 1].Nodup by decide
  have reads : s.Reads 1 := show SubscriptionTable.fits 1 = true by decide
  obtain ⟨-, others, answer, selects⟩ :=
    findExpiring_selects ids ⟨Instant.nanosPerSecond⟩ reads
  rw [first] at answer selects
  have few := selects.few
  have none : others = [] := by
    rw [List.length_append, List.length_singleton] at few
    exact List.eq_nil_of_length_eq_zero (by omega)
  rw [none] at answer selects
  exact ⟨answer, selects⟩

/-- A database cannot be asked for a batch of two to the sixty-third rows or more. -/
theorem batch_not_sent :
    ¬ ∀ (s : Subscriptions) (before : Instant) (limit : Nat), s.UniqueIds → limit < Nat.pow 2 64 →
      ∃ found, (s.answer (.findExpiring before limit)).1 = some (.ok found) ∧
        Selects s.rows before limit found := by
  intro selects
  obtain ⟨found, answer, -⟩ := selects (.table {}) ⟨0⟩ 9223372036854775808
    (uniqueIds_of_blank rfl) (by decide)
  have broken :
      ((Subscriptions.table {}).answer (.findExpiring ⟨0⟩ 9223372036854775808)).1 = none := rfl
  rw [broken] at answer
  cases answer

end Subscriptions

end WebSub.Store
