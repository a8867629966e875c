import Mathlib.Data.List.Perm.Basic
import WebSub.Proofs.Store.Paging
import WebSub.Proofs.Subscription.Changes

/-!
# Lapses written down

A lapsed subscription counts as expired before any store says so. Writing it down catches the rows
up with what is seen of them, and changes nothing that a list shows, then or later.
-/

namespace WebSub

namespace Subscription

/-! ## One row -/

/-- The row whose stored status is the one that readers see; it is dated if that is a change. -/
def caughtUp (now : Instant) (s : Subscription) : Subscription :=
  if s.effectiveStatus now = s.status then s
  else { s with status := s.effectiveStatus now, updatedAt := now }

variable {s : Subscription} {now later : Instant}

theorem isLapsed_iff_behind (s : Subscription) (now : Instant) :
    s.isLapsed now = true ↔ s.effectiveStatus now ≠ s.status := by
  rw [effectiveStatus]
  split
  case isTrue lapsed =>
    have active : s.status = .active := by
      simp only [isLapsed, Bool.and_eq_true, beq_iff_eq] at lapsed
      exact lapsed.1
    simp [lapsed, active]
  case isFalse unlapsed => simp [unlapsed]

theorem markExpired_eq_caughtUp (s : Subscription) (now : Instant) :
    (s.markExpired now).1 = s.caughtUp now := by
  rw [markExpired_eq, caughtUp]
  by_cases lapsed : s.isLapsed now = true
  · have seen : s.effectiveStatus now = .expired := if_pos lapsed
    rw [if_pos lapsed, if_neg ((s.isLapsed_iff_behind now).mp lapsed), seen]
  · have level := not_not.mp (mt (s.isLapsed_iff_behind now).mpr lapsed)
    rw [if_neg lapsed, if_pos level]

theorem status_caughtUp (s : Subscription) (now : Instant) :
    (s.caughtUp now).status = s.effectiveStatus now := by
  unfold caughtUp
  split
  case isTrue same => exact same.symm
  case isFalse => rfl

theorem isLapsed_mono (later_on : now ≤ later) (lapsed : s.isLapsed now = true) :
    s.isLapsed later = true := by
  simp only [isLapsed, Bool.and_eq_true, decide_eq_true_iff] at lapsed ⊢
  exact ⟨lapsed.1, Int.lt_of_lt_of_le lapsed.2 later_on⟩

/-- What is seen of a row does not tell whether its lapse has been written down. -/
theorem effectiveStatus_caughtUp (later_on : now ≤ later) :
    (s.caughtUp now).effectiveStatus later = s.effectiveStatus later := by
  unfold caughtUp
  split
  case isTrue => rfl
  case isFalse behind =>
    have lapsed := (s.isLapsed_iff_behind now).mpr behind
    have now_seen : s.effectiveStatus now = .expired := if_pos lapsed
    have later_seen : s.effectiveStatus later = .expired := if_pos (isLapsed_mono later_on lapsed)
    rw [now_seen, later_seen]
    rfl

theorem id_caughtUp (s : Subscription) (now : Instant) : (s.caughtUp now).id = s.id := by
  unfold caughtUp
  split <;> rfl

theorem createdAt_caughtUp (s : Subscription) (now : Instant) :
    (s.caughtUp now).createdAt = s.createdAt := by
  unfold caughtUp
  split <;> rfl

theorem caughtUp_caughtUp (s : Subscription) (now : Instant) :
    (s.caughtUp now).caughtUp now = s.caughtUp now := by
  have level : (s.caughtUp now).effectiveStatus now = (s.caughtUp now).status := by
    rw [effectiveStatus_caughtUp (Int.le_refl _), status_caughtUp]
  rw [caughtUp, if_pos level]

end Subscription

namespace Store

namespace Subscriptions

/-! ## All rows -/

/-- The store with each of its rows rewritten. -/
def mapRows (write : Subscription → Subscription) : Subscriptions → Subscriptions
  | memory m => memory ⟨m.rows.map write⟩
  | table t => table ⟨t.rows.map write⟩

theorem rows_mapRows (s : Subscriptions) (write : Subscription → Subscription) :
    (s.mapRows write).rows = s.rows.map write := by
  cases s <;> rfl

theorem answer_markLapsed_caughtUp (s : Subscriptions) (now : Instant) :
    s.answer (.markLapsed now) =
      (some (.ok (s.rows.countP fun r => decide (r.effectiveStatus now ≠ r.status))),
        s.mapRows (·.caughtUp now)) := by
  have count : s.rows.countP (·.isLapsed now) =
      s.rows.countP fun r => decide (r.effectiveStatus now ≠ r.status) := by
    refine List.countP_congr fun r _ => ?_
    rw [decide_eq_true_iff]
    exact r.isLapsed_iff_behind now
  have rows := s.answer_markLapsed now
  simp only [Subscription.markExpired_eq_caughtUp] at rows
  refine Prod.ext ?_ ?_
  · rw [answer_markLapsed_eq, count]
  · cases s with
    | memory m => exact congrArg (fun rows => memory ⟨rows⟩) rows
    | table t => exact congrArg (fun rows => table ⟨rows⟩) rows

/-! ## Lists -/

/-- What a list shows: which rows, in which order, each with the status that readers see. -/
def view (now : Instant) (rows : List Subscription) : List (Uuid × Status) :=
  rows.map fun r => (r.id, r.effectiveStatus now)

/-- The view of a list's answer; there is none if the call breaks down. -/
def listing (s : Subscriptions) (status : Option Status) (limit offset : Nat) (now : Instant) :
    Option (Except Error (List (Uuid × Status))) :=
  (s.answer (.list status limit offset now)).1.map (·.map (view now))

variable {now later : Instant}

theorem shown_caughtUp (later_on : now ≤ later) (status : Option Status) :
    shown status later ∘ (·.caughtUp now) = shown status later := by
  funext r
  cases status with
  | none => rfl
  | some status =>
    simp only [Function.comp, shown, Subscription.effectiveStatus_caughtUp later_on]

theorem view_caughtUp (later_on : now ≤ later) (rows : List Subscription) :
    view later (rows.map (·.caughtUp now)) = view later rows := by
  simp only [view, List.map_map]
  refine List.map_congr_left fun r _ => ?_
  simp only [Function.comp, Subscription.id_caughtUp,
    Subscription.effectiveStatus_caughtUp later_on]

theorem page_map (write : Subscription → Subscription) (limit offset : Nat)
    (rows : List Subscription) : MemorySubscriptions.page limit offset (rows.map write) =
      (MemorySubscriptions.page limit offset rows).map write := by
  simp only [MemorySubscriptions.page, List.map_take, List.map_drop]

theorem mergeSort_caughtUp (now : Instant) (rows : List Subscription) :
    (rows.map (·.caughtUp now)).mergeSort (fun a b => decide (a.createdAt ≤ b.createdAt)) =
      (rows.mergeSort fun a b => decide (a.createdAt ≤ b.createdAt)).map (·.caughtUp now) := by
  refine (List.map_mergeSort fun a _ b _ => ?_).symm
  simp only [Subscription.createdAt_caughtUp]

theorem inOrder_caughtUp (later_on : now ≤ later) (s : Subscriptions) (status : Option Status) :
    (s.mapRows (·.caughtUp now)).inOrder status later =
      (s.inOrder status later).map (·.caughtUp now) := by
  cases s with
  | memory m =>
    change ((m.rows.map (·.caughtUp now)).mergeSort _).filter (shown status later) =
      ((m.rows.mergeSort _).filter (shown status later)).map (·.caughtUp now)
    rw [mergeSort_caughtUp, List.filter_map, shown_caughtUp later_on]
  | table t =>
    have holds : (fun r => ((status.map (Condition.shows later)).getD .always).holds r) =
        shown status later := by
      funext r
      cases status with
      | none => rfl
      | some status => exact holds_shows later status r
    simp only [mapRows, inOrder, SubscriptionTable.select, holds]
    rw [List.filter_map, shown_caughtUp later_on, mergeSort_caughtUp]

theorem isPage_caughtUp (later_on : now ≤ later) {rows page : List Subscription}
    {status : Option Status} {limit offset : Nat} :
    IsPage (rows.map (·.caughtUp now)) (shown status later) (·.createdAt) limit offset page ↔
      ∃ page', IsPage rows (shown status later) (·.createdAt) limit offset page' ∧
        page = page'.map (·.caughtUp now) := by
  have meet : (rows.map (·.caughtUp now)).filter (shown status later) =
      (rows.filter (shown status later)).map (·.caughtUp now) := by
    rw [List.filter_map, shown_caughtUp later_on]
  have sorts (whole : List Subscription) :
      (whole.map (·.caughtUp now)).Pairwise (fun a b => a.createdAt ≤ b.createdAt) ↔
        whole.Pairwise fun a b => a.createdAt ≤ b.createdAt := by
    simp only [List.pairwise_map, Subscription.createdAt_caughtUp]
  constructor
  · rintro ⟨whole, meets, sorted, rfl⟩
    rw [meet] at meets
    have cut : Relation.Comp (· = List.map (·.caughtUp now) ·) (·.Perm ·) whole
        (rows.filter (shown status later)) := by
      rw [List.eq_map_comp_perm]
      exact meets
    obtain ⟨whole', rfl, meets'⟩ := cut
    exact ⟨_, ⟨whole', meets', (sorts whole').mp sorted, rfl⟩, page_map _ limit offset whole'⟩
  · rintro ⟨_, ⟨whole, meets, sorted, rfl⟩, rfl⟩
    refine ⟨whole.map (·.caughtUp now), ?_, (sorts whole).mpr sorted, ?_⟩
    · rw [meet]
      exact meets.map _
    · exact (page_map _ limit offset whole).symm

theorem listing_of_reads {s : Subscriptions} {limit offset : Nat} (limits : s.Reads limit)
    (offsets : s.Reads offset) (status : Option Status) (now : Instant) :
    s.listing status limit offset now =
      some (.ok (view now (MemorySubscriptions.page limit offset (s.inOrder status now)))) := by
  rw [listing, answer_page limits offsets]
  rfl

theorem listing_caughtUp (later_on : now ≤ later) (s : Subscriptions) (status : Option Status)
    (limit offset : Nat) :
    (s.mapRows (·.caughtUp now)).listing status limit offset later =
      s.listing status limit offset later := by
  have reads (n : Nat) : (s.mapRows (·.caughtUp now)).Reads n ↔ s.Reads n := by
    cases s <;> exact Iff.rfl
  by_cases sent : s.Reads limit ∧ s.Reads offset
  · rw [listing_of_reads sent.1 sent.2, listing_of_reads ((reads _).mpr sent.1)
      ((reads _).mpr sent.2), inOrder_caughtUp later_on, page_map, view_caughtUp later_on]
  · cases s with
    | memory m => exact absurd ⟨trivial, trivial⟩ sent
    | table t =>
      have unsent : ¬ (SubscriptionTable.fits limit && SubscriptionTable.fits offset) = true :=
        fun fits => sent (Bool.and_eq_true_iff.mp fits)
      simp only [listing, mapRows, answer, SubscriptionTable.answer, if_neg unsent]

/-- In either store, marking the rows that have lapsed brings each of them up to what is seen of it,
dates and counts those that this changes, and does nothing more the second time. No list, then or
later, shows other rows, another order or another status for it. -/
theorem markLapsed_unseen (s : Subscriptions) (now : Instant) :
    let marked := s.mapRows (·.caughtUp now)
    s.answer (.markLapsed now) =
        (some (.ok (s.rows.countP fun r => decide (r.effectiveStatus now ≠ r.status))), marked) ∧
      marked.answer (.markLapsed now) = (some (.ok 0), marked) ∧
      ∀ later, now ≤ later → ∀ status limit offset,
        marked.listing status limit offset later = s.listing status limit offset later ∧
        (s.Reads limit → s.Reads offset →
          ∃ seen, s.listing status limit offset later = some (.ok seen)) ∧
        ∀ seen,
          (∃ page, IsPage marked.rows (shown status later) (·.createdAt) limit offset page ∧
            view later page = seen) ↔
          ∃ page, IsPage s.rows (shown status later) (·.createdAt) limit offset page ∧
            view later page = seen := by
  intro marked
  refine ⟨s.answer_markLapsed_caughtUp now, ?_, ?_⟩
  · have level : marked.rows.countP (fun r => decide (r.effectiveStatus now ≠ r.status)) = 0 := by
      rw [rows_mapRows, List.countP_eq_zero]
      intro r hr
      obtain ⟨old, -, rfl⟩ := List.mem_map.mp hr
      rw [decide_eq_true_iff, not_not, Subscription.status_caughtUp,
        Subscription.effectiveStatus_caughtUp (Int.le_refl _)]
    have again : marked.mapRows (·.caughtUp now) = marked := by
      have twice : (·.caughtUp now) ∘ (·.caughtUp now) = (·.caughtUp now : Subscription → _) :=
        funext fun r => r.caughtUp_caughtUp now
      cases s <;> simp only [marked, mapRows, List.map_map, twice]
    rw [answer_markLapsed_caughtUp, level, again]
  · intro later later_on status limit offset
    refine ⟨listing_caughtUp later_on s status limit offset, fun limits offsets =>
      ⟨_, listing_of_reads limits offsets status later⟩, fun seen => ?_⟩
    rw [rows_mapRows]
    simp only [isPage_caughtUp later_on]
    constructor
    · rintro ⟨_, ⟨page, isPage, rfl⟩, rfl⟩
      exact ⟨page, isPage, (view_caughtUp later_on page).symm⟩
    · rintro ⟨page, isPage, rfl⟩
      exact ⟨_, ⟨page, isPage, rfl⟩, view_caughtUp later_on page⟩

/-- A row that has run out and one that has not, marked in the second second. -/
theorem markLapsed_unseen_single :
    let s : Subscriptions := .table ⟨[Stores.dueRow 0 "a",
      { Stores.dueRow 1 "b" with expiresAt := ⟨3 * Instant.nanosPerSecond⟩ }]⟩
    let now : Instant := ⟨2 * Instant.nanosPerSecond⟩
    let later : Instant := ⟨4 * Instant.nanosPerSecond⟩
    now ≤ later ∧ (s.answer (.markLapsed now)).1 = some (.ok 1) ∧
      (s.answer (.markLapsed now)).2.listing (some .expired) 2 0 later =
        s.listing (some .expired) 2 0 later ∧
      ∃ seen, s.listing (some .expired) 2 0 later = some (.ok seen) := by
  intro s now later
  obtain ⟨marks, -, unseen⟩ := markLapsed_unseen s now
  have later_on : now ≤ later := by decide
  have limits : s.Reads 2 := show SubscriptionTable.fits 2 = true by decide
  have offsets : s.Reads 0 := show SubscriptionTable.fits 0 = true by decide
  obtain ⟨same, answered, -⟩ := unseen later later_on (some .expired) 2 0
  refine ⟨later_on, ?_, ?_, answered limits offsets⟩
  · rw [marks]
    decide
  · rw [marks]
    exact same

end Subscriptions

end Store

end WebSub
