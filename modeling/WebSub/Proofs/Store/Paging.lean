import WebSub.Proofs.Store.Interchange

/-!
# Lists and their pages

A row is listed under the status that readers see, so that the lists of all statuses part the rows
of a store. Pages that are read one after the other make up the whole list.
-/

namespace WebSub.Store

/-- Lists of all statuses, in which each row is found once, under the status it shows at `now`. -/
structure Parts (rows : List Subscription) (now : Instant)
    (listed : Status → List Subscription) : Prop where
  shows : ∀ status r, r ∈ listed status ↔ r ∈ rows ∧ r.effectiveStatus now = status
  once : (listed .pending ++ listed .active ++ listed .expired ++ listed .failed).Perm rows

/-- Pages that show each of the rows once, oldest first, with room in the last one only. -/
structure Covers (rows : List Subscription) (size : Nat) (pages : List (List Subscription)) :
    Prop where
  once : pages.flatten.Perm rows
  oldestFirst : pages.flatten.Pairwise fun a b => a.createdAt ≤ b.createdAt
  full : ∀ page ∈ pages.dropLast, page.length = size

theorem shown_iff {status : Status} {now : Instant} {r : Subscription} :
    shown (some status) now r = true ↔ r.effectiveStatus now = status := beq_iff_eq

theorem count_shown (rows : List Subscription) (status : Status) (now : Instant)
    (r : Subscription) :
    (rows.filter (shown (some status) now)).count r =
      if r.effectiveStatus now = status then rows.count r else 0 := by
  split
  case isTrue same => exact List.count_filter (shown_iff.mpr same)
  case isFalse other =>
    rw [List.count_eq_zero, List.mem_filter]
    exact fun mem => other (shown_iff.mp mem.2)

theorem parts_shown (rows : List Subscription) (now : Instant)
    {listed : Status → List Subscription}
    (each : ∀ status, (listed status).Perm (rows.filter (shown (some status) now))) :
    Parts rows now listed := by
  constructor
  case shows =>
    intro status r
    rw [(each status).mem_iff, List.mem_filter, shown_iff]
  case once =>
    rw [List.perm_iff_count]
    intro r
    simp only [List.count_append, (each _).count_eq, count_shown]
    cases r.effectiveStatus now <;> simp

namespace Subscriptions

variable {s : Subscriptions} {status : Option Status} {now : Instant} {limit offset : Nat}

/-! ## One page -/

/-- The rows that pages are cut from, oldest first. -/
def inOrder (status : Option Status) (now : Instant) : Subscriptions → List Subscription
  | memory m => m.listed status now
  | table t => (t.select ((status.map (Condition.shows now)).getD .always)).mergeSort
      fun a b => decide (a.createdAt ≤ b.createdAt)

theorem inOrder_perm (s : Subscriptions) (status : Option Status) (now : Instant) :
    (s.inOrder status now).Perm (s.rows.filter (shown status now)) := by
  cases s with
  | memory m => exact (List.mergeSort_perm _ _).filter _
  | table t =>
    have same : (fun r => ((status.map (Condition.shows now)).getD .always).holds r) =
        shown status now := by
      funext r
      cases status with
      | none => rfl
      | some status => exact holds_shows now status r
    rw [← same]
    exact List.mergeSort_perm _ _

theorem inOrder_sorted (s : Subscriptions) (status : Option Status) (now : Instant) :
    (s.inOrder status now).Pairwise fun a b => a.createdAt ≤ b.createdAt := by
  cases s with
  | memory m => exact (sorted_mergeSort m.rows (·.createdAt)).filter _
  | table t => exact sorted_mergeSort _ (·.createdAt)

theorem answer_page (limits : s.Reads limit) (offsets : s.Reads offset) :
    (s.answer (.list status limit offset now)).1 =
      some (.ok (MemorySubscriptions.page limit offset (s.inOrder status now))) := by
  cases s with
  | memory m => rfl
  | table t =>
    have fits : SubscriptionTable.fits limit = true := limits
    have fits' : SubscriptionTable.fits offset = true := offsets
    simp only [answer, SubscriptionTable.answer, fits, fits', Bool.and_self, if_true]
    rfl

theorem page_of_answer {page : List Subscription}
    (h : (s.answer (.list status limit offset now)).1 = some (.ok page)) :
    page = MemorySubscriptions.page limit offset (s.inOrder status now) := by
  cases s with
  | memory m =>
    cases h
    rfl
  | table t =>
    simp only [answer, SubscriptionTable.answer] at h
    split at h
    · cases h
      rfl
    · cases h

theorem answer_whole {status : Status} (limits : s.Reads limit)
    (enough : s.rows.countP (shown (some status) now) ≤ limit) :
    (s.answer (.list (some status) limit 0 now)).1 = some (.ok (s.inOrder (some status) now)) := by
  have offsets : s.Reads 0 := by
    cases s with
    | memory m => trivial
    | table t => exact (show SubscriptionTable.fits 0 = true by decide)
  rw [answer_page limits offsets, MemorySubscriptions.page, List.drop_zero, List.take_of_length_le]
  rw [(s.inOrder_perm (some status) now).length_eq, ← List.countP_eq_length_filter]
  exact enough

/-! ## One page after the other -/

/-- Pages of one size that are read from an offset on, up to the first that is empty. -/
inductive Pages (s : Subscriptions) (status : Option Status) (size : Nat) (now : Instant) :
    Nat → List (List Subscription) → Prop
  | last {offset : Nat} (h : (s.answer (.list status size offset now)).1 = some (.ok [])) :
      Pages s status size now offset []
  | more {offset : Nat} {page : List Subscription} {rest : List (List Subscription)}
      (h : (s.answer (.list status size offset now)).1 = some (.ok page)) (filled : page ≠ [])
      (next : Pages s status size now (offset + size) rest) :
      Pages s status size now offset (page :: rest)

variable {size : Nat} {pages pages' : List (List Subscription)}

theorem Pages.unique (h : Pages s status size now offset pages)
    (h' : Pages s status size now offset pages') : pages' = pages := by
  induction h generalizing pages' with
  | last empty =>
    cases h' with
    | last => rfl
    | more page filled =>
      rw [empty] at page
      cases page
      exact absurd rfl filled
  | more page filled _ ih =>
    cases h' with
    | last empty =>
      rw [empty] at page
      cases page
      exact absurd rfl filled
    | more page' _ next' =>
      rw [page] at page'
      cases page'
      rw [ih next']

theorem Pages.flatten (h : Pages s status size now offset pages) (positive : 0 < size) :
    pages.flatten = (s.inOrder status now).drop offset := by
  induction h with
  | last empty =>
    have page := page_of_answer empty
    rw [MemorySubscriptions.page, eq_comm, List.take_eq_nil_iff] at page
    rw [page.resolve_left (by omega), List.flatten_nil]
  | more page filled _ ih =>
    rw [List.flatten_cons, ih, page_of_answer page, MemorySubscriptions.page, ← List.drop_drop,
      List.take_append_drop]

theorem Pages.full (h : Pages s status size now offset pages) (positive : 0 < size) :
    ∀ page ∈ pages.dropLast, page.length = size := by
  induction h with
  | last => exact fun page hp => absurd hp List.not_mem_nil
  | @more offset first rest page filled next ih =>
    cases next with
    | last => exact fun page hp => absurd hp List.not_mem_nil
    | @more _ second rest page' filled' next' =>
      intro p hp
      rw [List.dropLast_cons_cons] at hp
      rcases List.mem_cons.mp hp with rfl | hp
      · have beyond : offset + size < (s.inOrder status now).length := by
          by_contra short
          rw [page_of_answer page', MemorySubscriptions.page,
            List.drop_eq_nil_of_le (Nat.le_of_not_lt short), List.take_nil] at filled'
          exact filled' rfl
        rw [page_of_answer page, MemorySubscriptions.page, List.length_take, List.length_drop]
        omega
      · exact ih p hp

/-- There are pages as long as the offsets at which rows can still stand are ones to ask with. -/
theorem exists_pages (positive : 0 < size) (sizes : s.Reads size)
    (offsets : ∀ k, size * k < (s.inOrder status now).length + size → s.Reads (size * k))
    (remaining : Nat) : ∀ k, size * k < (s.inOrder status now).length + size →
      (s.inOrder status now).length ≤ size * k + remaining →
      ∃ pages, Pages s status size now (size * k) pages := by
  induction remaining with
  | zero =>
    intro k near short
    rw [Nat.add_zero] at short
    refine ⟨[], .last ?_⟩
    rw [answer_page sizes (offsets k near), MemorySubscriptions.page, List.drop_eq_nil_of_le short,
      List.take_nil]
  | succ remaining ih =>
    intro k near short
    have answer : (s.answer (.list status size (size * k) now)).1 =
        some (.ok (MemorySubscriptions.page size (size * k) (s.inOrder status now))) :=
      answer_page sizes (offsets k near)
    by_cases empty :
        MemorySubscriptions.page size (size * k) (s.inOrder status now) = []
    · rw [empty] at answer
      exact ⟨[], .last answer⟩
    · have inside : size * k < (s.inOrder status now).length := by
        by_contra beyond
        apply empty
        rw [MemorySubscriptions.page, List.drop_eq_nil_of_le (Nat.le_of_not_lt beyond),
          List.take_nil]
      have step : size * (k + 1) = size * k + size := Nat.mul_succ size k
      obtain ⟨rest, next⟩ := ih (k + 1) (by omega) (by omega)
      rw [step] at next
      exact ⟨_ :: rest, .more answer empty next⟩

/-- In either store the lists of all statuses part the rows, and the pages of any list make it up,
for all numbers that the store can be asked with. Each page is a query of its own, so this rests on
the assumption that a database keeps rows created at one instant in one order from query to
query. -/
theorem list_pages (s : Subscriptions) (now : Instant) :
    (∀ limits : Status → Nat, (∀ status, s.Reads (limits status)) →
      (∀ status, s.rows.countP (shown (some status) now) ≤ limits status) →
      ∃ listed, (∀ status, (s.answer (.list (some status) (limits status) 0 now)).1 =
          some (.ok (listed status))) ∧ Parts s.rows now listed) ∧
    ∀ (status : Option Status) (size : Nat), 0 < size → s.Reads size →
      (∀ k, size * k < s.rows.countP (shown status now) + size → s.Reads (size * k)) →
      ∃ pages, Pages s status size now 0 pages ∧
        (∀ pages', Pages s status size now 0 pages' → pages' = pages) ∧
        Covers (s.rows.filter (shown status now)) size pages := by
  constructor
  · intro limits reads enough
    refine ⟨fun status => s.inOrder (some status) now, ?_, ?_⟩
    · exact fun status => answer_whole (reads status) (enough status)
    · exact parts_shown s.rows now fun status => s.inOrder_perm (some status) now
  · intro status size positive sizes offsets
    have same := s.inOrder_perm status now
    have length : (s.inOrder status now).length = s.rows.countP (shown status now) := by
      rw [same.length_eq, List.countP_eq_length_filter]
    rw [← length] at offsets
    obtain ⟨pages, read⟩ := exists_pages positive sizes offsets _ 0 (by omega)
      (Nat.le_add_left _ _)
    have whole := read.flatten positive
    rw [Nat.mul_zero, List.drop_zero] at whole
    refine ⟨pages, read, fun pages' read' => read.unique read', ?_, ?_, read.full positive⟩
    · rw [whole]
      exact same
    · rw [whole]
      exact s.inOrder_sorted status now

/-- A row whose lease has run out and one that failed, on pages of one row. -/
theorem list_pages_single :
    let s : Subscriptions :=
      .table ⟨[Stores.dueRow 0 "a", { Stores.dueRow 1 "b" with status := .failed }]⟩
    let now : Instant := ⟨2 * Instant.nanosPerSecond⟩
    (∃ listed, (∀ status, (s.answer (.list (some status) 1 0 now)).1 = some (.ok (listed status))) ∧
      Parts s.rows now listed ∧ listed .active = []) ∧
    ∃ pages, Pages s none 1 now 0 pages ∧ Covers s.rows 1 pages := by
  intro s now
  obtain ⟨parts, covers⟩ := list_pages s now
  obtain ⟨listed, answer, parted⟩ := parts (fun _ => 1)
    (fun _ => show SubscriptionTable.fits 1 = true by decide)
    (fun status => by cases status <;> decide)
  obtain ⟨pages, read, -, covered⟩ := covers none 1 (by decide)
    (show SubscriptionTable.fits 1 = true by decide) (by
      intro k near
      have few : 1 * k < 3 := near
      refine decide_eq_true (Int.le_trans (Int.ofNat_le.mpr (Nat.le_of_lt few)) ?_)
      decide)
  refine ⟨⟨listed, answer, parted, ?_⟩, pages, read, covered⟩
  refine List.eq_nil_iff_forall_not_mem.mpr fun r hr => ?_
  obtain ⟨stored, active⟩ := (parted.shows .active r).mp hr
  rcases List.mem_cons.mp stored with rfl | stored
  · exact absurd active (by decide)
  · rw [List.mem_singleton.mp stored] at active
    exact absurd active (by decide)

/-- A database cannot be asked for pages of two to the sixty-third rows or more. -/
theorem pages_not_sent :
    ¬ ∀ (s : Subscriptions) (now : Instant) (status : Option Status) (size : Nat), 0 < size →
      size < Nat.pow 2 64 → ∃ pages, Pages s status size now 0 pages ∧
        Covers (s.rows.filter (shown status now)) size pages := by
  intro covers
  obtain ⟨pages, read, -⟩ := covers (.table {}) ⟨0⟩ none 9223372036854775808 (by decide) (by decide)
  have broken : ((Subscriptions.table {}).answer (.list none 9223372036854775808 0 ⟨0⟩)).1 = none :=
    rfl
  cases read with
  | last page =>
    rw [broken] at page
    cases page
  | more page =>
    rw [broken] at page
    cases page

end Subscriptions

end WebSub.Store
