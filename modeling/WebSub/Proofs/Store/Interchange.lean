import Mathlib.Data.List.Sort
import WebSub.Proofs.Store.EventRows
import WebSub.Proofs.Store.RowOrigins

/-!
# The stores are interchangeable

Stores that were asked the same calls from the start hold the same rows and answer alike, whether
they are kept in memory or in a database. A store may keep its rows in any order it likes, and so
answers are compared up to the order that a call leaves open.
-/

namespace WebSub.Store

/-! ## What calls may differ in -/

/-- Readers see the status at `now`; every row is shown if none is asked for. -/
def shown (status : Option Status) (now : Instant) (r : Subscription) : Bool :=
  match status with
  | some status => r.effectiveStatus now == status
  | none => true

/-- Active and running out by the instant. -/
def dueActive (before : Instant) (r : Subscription) : Bool :=
  r.status == .active && decide (r.expiresAt ≤ before)

/-- Failed or expired, and run out by the instant. -/
def dueRetry (before : Instant) (r : Subscription) : Bool :=
  (r.status == .failed || r.status == .expired) && decide (r.expiresAt ≤ before)

/-- A page of the rows that meet a condition, by ascending instants. Rows of one instant stand in
any order, so that there may be several such pages. -/
def IsPage (rows : List Subscription) (p : Subscription → Bool) (key : Subscription → Instant)
    (limit offset : Nat) (page : List Subscription) : Prop :=
  ∃ whole : List Subscription, whole.Perm (rows.filter p) ∧
    whole.Pairwise (fun a b => key a ≤ key b) ∧
    page = MemorySubscriptions.page limit offset whole

/-- How answers of two stores to one call compare; `rows` are the rows of either one. -/
def Agree (rows : List Subscription) : (c : SubscriptionCall) → c.Answer → c.Answer → Prop
  | .findByTopic _, a, b => ∃ x y, a = some (.ok x) ∧ b = some (.ok y) ∧ x.Perm y
  | .list status limit offset now, a, b =>
    ∃ x y, a = some (.ok x) ∧ b = some (.ok y) ∧
      x.map (·.createdAt) = y.map (·.createdAt) ∧
      IsPage rows (shown status now) (·.createdAt) limit offset x ∧
      IsPage rows (shown status now) (·.createdAt) limit offset y
  | .findExpiring before limit, a, b =>
    ∃ x x' y y', a = some (.ok (x ++ x')) ∧ b = some (.ok (y ++ y')) ∧
      x.map (·.expiresAt) = y.map (·.expiresAt) ∧ x'.map (·.updatedAt) = y'.map (·.updatedAt) ∧
      IsPage rows (dueActive before) (·.expiresAt) limit 0 x ∧
      IsPage rows (dueActive before) (·.expiresAt) limit 0 y ∧
      IsPage rows (dueRetry before) (·.updatedAt) (limit - x.length) 0 x' ∧
      IsPage rows (dueRetry before) (·.updatedAt) (limit - x.length) 0 y'
  | _, a, b => a = b ∧ a ≠ none

/-- No two rows that a call has to sort share the instant it sorts by. -/
def KeysDiffer (rows : List Subscription) : SubscriptionCall → Prop
  | .list status _ _ now => ((rows.filter (shown status now)).map (·.createdAt)).Nodup
  | .findExpiring before _ =>
    ((rows.filter (dueActive before)).map (·.expiresAt)).Nodup ∧
      ((rows.filter (dueRetry before)).map (·.updatedAt)).Nodup
  | .findByTopic _ => False
  | _ => True

/-- A row is updated by a copy with its own origin, and numbers can be sent in a statement. -/
def Admissible (rows : List Subscription) : SubscriptionCall → Prop
  | .update y => ∀ r ∈ rows, r.id = y.id → r.origin = y.origin
  | .list _ limit offset _ => SubscriptionTable.fits limit ∧ SubscriptionTable.fits offset
  | .findExpiring _ limit => SubscriptionTable.fits limit
  | _ => True

/-! ## Pages -/

section

variable {rows rows' page page' : List Subscription} {p : Subscription → Bool}
  {key : Subscription → Instant} {limit offset : Nat}

theorem IsPage.perm (h : IsPage rows p key limit offset page) (same : rows.Perm rows') :
    IsPage rows' p key limit offset page := by
  obtain ⟨whole, meets, sorted, cut⟩ := h
  exact ⟨whole, meets.trans (same.filter p), sorted, cut⟩

theorem sorted_mergeSort (rows : List Subscription) (key : Subscription → Instant) :
    (rows.mergeSort fun a b => decide (key a ≤ key b)).Pairwise fun a b => key a ≤ key b := by
  have sorted := @List.pairwise_mergeSort _ (fun a b => decide (key a ≤ key b))
    (fun a b c hab hbc => decide_eq_true
      (Int.le_trans (of_decide_eq_true hab) (of_decide_eq_true hbc)))
    (fun a b => by
      rw [Bool.or_eq_true, decide_eq_true_iff, decide_eq_true_iff]
      exact Int.le_total _ _) rows
  exact sorted.imp of_decide_eq_true

theorem isPage_mergeSort (rows : List Subscription) (p : Subscription → Bool)
    (key : Subscription → Instant) (limit offset : Nat) :
    IsPage rows p key limit offset (MemorySubscriptions.page limit offset
      ((rows.filter p).mergeSort fun a b => decide (key a ≤ key b))) :=
  ⟨_, List.mergeSort_perm _ _, sorted_mergeSort _ _, rfl⟩

theorem isPage_selectBy (t : SubscriptionTable) {c : Condition} (meets : ∀ r, c.holds r = p r)
    (key : Subscription → Instant) (limit offset : Nat) :
    IsPage t.rows p key limit offset (t.selectBy c key limit offset) := by
  have same : (fun r => c.holds r) = p := funext meets
  have page := isPage_mergeSort t.rows p key limit offset
  rw [← same] at page ⊢
  exact page

theorem instants_eq {l l' : List Instant} (same : l.Perm l') (sorted : l.Pairwise (· ≤ ·))
    (sorted' : l'.Pairwise (· ≤ ·)) : l = l' := by
  refine List.Perm.eq_of_pairwise ?_ sorted sorted' same
  intro a b _ _ hab hba
  have nanos : a.nanos = b.nanos := Int.le_antisymm hab hba
  cases a
  cases b
  exact congrArg Instant.mk nanos

theorem IsPage.keys (h : IsPage rows p key limit offset page)
    (h' : IsPage rows p key limit offset page') : page.map key = page'.map key := by
  obtain ⟨whole, meets, sorted, rfl⟩ := h
  obtain ⟨whole', meets', sorted', rfl⟩ := h'
  have same : whole.map key = whole'.map key :=
    instants_eq ((meets.trans meets'.symm).map key) (List.pairwise_map.mpr sorted)
      (List.pairwise_map.mpr sorted')
  simp only [MemorySubscriptions.page, List.map_take, List.map_drop, same]

theorem IsPage.unique (h : IsPage rows p key limit offset page)
    (h' : IsPage rows p key limit offset page') (differ : ((rows.filter p).map key).Nodup) :
    page = page' := by
  obtain ⟨whole, meets, sorted, rfl⟩ := h
  obtain ⟨whole', meets', sorted', rfl⟩ := h'
  have same : whole = whole' := by
    refine List.Perm.eq_of_pairwise ?_ sorted sorted' (meets.trans meets'.symm)
    intro a b ha hb hab hba
    have nanos : (key a).nanos = (key b).nanos := Int.le_antisymm hab hba
    refine List.inj_on_of_nodup_map differ (meets.subset ha) (meets'.subset hb) ?_
    exact congrArg Instant.mk nanos
  rw [same]

end

/-! ## Look-ups -/

theorem find?_of_perm {α : Type} {l l' : List α} {p : α → Bool} (same : l.Perm l')
    (once : ∀ a ∈ l, ∀ b ∈ l, p a = true → p b = true → a = b) : l.find? p = l'.find? p := by
  cases found : l.find? p with
  | none =>
    symm
    rw [List.find?_eq_none] at found ⊢
    exact fun a ha => found a (same.mem_iff.mpr ha)
  | some a =>
    have meets := List.find?_some found
    have mem := List.mem_of_find?_eq_some found
    cases found' : l'.find? p with
    | none => exact absurd meets (List.find?_eq_none.mp found' a (same.mem_iff.mp mem))
    | some b =>
      have mem' := same.mem_iff.mpr (List.mem_of_find?_eq_some found')
      rw [once a mem b mem' meets (List.find?_some found')]

namespace Subscriptions

section

variable (s : Subscriptions)

def ofPair (channelId callbackUrl : String) (r : Subscription) : Bool :=
  r.channelId == channelId && r.callbackUrl == callbackUrl

theorem answer_find (id : Uuid) : (s.answer (.find id)).1 = some (.ok (s.get? id)) := by
  cases s with
  | memory m => rfl
  | table t =>
    simp only [answer, SubscriptionTable.answer, SubscriptionTable.select, List.head?_filter]
    rfl

theorem answer_findByPair (channelId callbackUrl : String) :
    (s.answer (.findByPair channelId callbackUrl)).1 =
      some (.ok (s.rows.find? (ofPair channelId callbackUrl))) := by
  cases s with
  | memory m => rfl
  | table t =>
    simp only [answer, SubscriptionTable.answer, SubscriptionTable.select, List.head?_filter]
    rfl

theorem holds_shows (now : Instant) (status : Status) (r : Subscription) :
    (Condition.shows now status).holds r = shown (some status) now r := by
  have later : decide (now ≤ r.expiresAt) = !decide (r.expiresAt < now) := by
    rw [← decide_not]
    exact decide_eq_decide.mpr Int.not_lt.symm
  by_cases past : r.expiresAt < now <;> cases status <;> cases same : r.status <;>
    simp [Condition.shows, Condition.holds, Condition.lapsed, shown,
      Subscription.effectiveStatus, Subscription.isLapsed, same, past, later]

theorem answer_list {status : Option Status} {limit offset : Nat} {now : Instant}
    (fits : SubscriptionTable.fits limit ∧ SubscriptionTable.fits offset) :
    ∃ page, (s.answer (.list status limit offset now)).1 = some (.ok page) ∧
      IsPage s.rows (shown status now) (·.createdAt) limit offset page := by
  cases s with
  | memory m =>
    refine ⟨_, rfl, _, (List.mergeSort_perm _ _).filter _, ?_, rfl⟩
    exact (sorted_mergeSort m.rows (·.createdAt)).filter _
  | table t =>
    have page := isPage_selectBy t (c := (status.map (Condition.shows now)).getD .always)
      (p := shown status now) (by
        intro r
        cases status with
        | none => rfl
        | some status => exact holds_shows now status r) (·.createdAt) limit offset
    refine ⟨_, ?_, page⟩
    simp only [answer, SubscriptionTable.answer, fits.1, fits.2, Bool.and_self, if_true]

theorem answer_findExpiring (before : Instant) {limit : Nat}
    (fits : SubscriptionTable.fits limit) :
    ∃ active retries, (s.answer (.findExpiring before limit)).1 = some (.ok (active ++ retries)) ∧
      IsPage s.rows (dueActive before) (·.expiresAt) limit 0 active ∧
      IsPage s.rows (dueRetry before) (·.updatedAt) (limit - active.length) 0 retries := by
  cases s with
  | memory m =>
    exact ⟨_, _, rfl, isPage_mergeSort m.rows (dueActive before) (·.expiresAt) limit 0,
      isPage_mergeSort m.rows (dueRetry before) (·.updatedAt) _ 0⟩
  | table t =>
    have active := isPage_selectBy t (c := SubscriptionTable.dueActive before)
      (p := dueActive before) (fun r => rfl) (·.expiresAt) limit 0
    have retries := isPage_selectBy t (c := SubscriptionTable.dueRetry before)
      (p := dueRetry before) (fun r => rfl) (·.updatedAt)
    refine ⟨_, _, ?_, active, retries _ 0⟩
    simp only [answer, SubscriptionTable.answer, fits, if_true, SubscriptionTable.expiring]
    split
    case isTrue => rfl
    case isFalse full =>
      -- With no room left the second query is not made, and a page of none is empty.
      rw [Nat.eq_zero_of_not_pos full]
      simp [SubscriptionTable.selectBy]

/-! ## Writes -/

theorem answer_create_eq (y : Subscription) :
    (s.answer (.create y)).1 =
        some (if s.rows.any (MemorySubscriptions.clash · y) then .error .duplicate else .ok y) ∧
      (s.answer (.create y)).2.rows =
        if s.rows.any (MemorySubscriptions.clash · y) then s.rows else s.rows ++ [y] := by
  cases s with
  | memory m =>
    cases clash : m.rows.any (MemorySubscriptions.clash · y) <;>
      simp [answer, MemorySubscriptions.answer, rows, clash]
  | table t =>
    have free : (t.select (SubscriptionTable.conflict y)).isEmpty =
        !t.rows.any (MemorySubscriptions.clash · y) := by
      rw [Bool.eq_iff_iff, List.isEmpty_iff, SubscriptionTable.select, List.filter_eq_nil_iff,
        Bool.not_eq_true', List.any_eq_false]
      rfl
    cases clash : t.rows.any (MemorySubscriptions.clash · y) <;>
      simp [answer, SubscriptionTable.answer, rows, clash, free]

theorem answer_update_eq {y : Subscription}
    (copy : ∀ r ∈ s.rows, r.id = y.id → r.origin = y.origin) :
    (s.answer (.update y)).1 =
        some (if s.rows.any (·.id == y.id) then .ok y else .error .notFound) ∧
      (s.answer (.update y)).2.rows = s.rows.map fun r => if r.id = y.id then y else r := by
  rcases answer_update s y with ⟨missing, same, absent⟩ | ⟨⟨a, ok⟩, rows, old, hold, hid⟩
  · have none : s.rows.any (·.id == y.id) = false := by
      rw [List.any_eq_false]
      intro r hr
      simpa using absent r hr
    refine ⟨by rw [missing, none]; rfl, ?_⟩
    rw [same]
    conv_lhs => rw [← List.map_id s.rows]
    apply List.map_congr_left
    intro r hr
    rw [if_neg (absent r hr), id_eq]
  · have found : s.rows.any (·.id == y.id) = true :=
      List.any_eq_true.mpr ⟨old, hold, by simp [hid]⟩
    constructor
    · rw [found, if_pos rfl]
      cases s with
      | memory m =>
        have there : (m.get? y.id).isSome := by
          rw [MemorySubscriptions.get?, List.find?_isSome]
          exact ⟨old, hold, by simp [hid]⟩
        simp only [answer, MemorySubscriptions.answer, there, if_true]
      | table t =>
        cases first : (t.select (.idIs y.id)).head? with
        | none => simp [answer, SubscriptionTable.answer, first] at ok
        | some r =>
          have mem := List.mem_filter.mp (List.mem_of_head? first)
          have same := copy r mem.1 (by simpa [Condition.holds] using mem.2)
          simp only [answer, SubscriptionTable.answer, first]
          rw [show SubscriptionTable.writeColumns y r = y from written_of_origin (.table t) same]
    · rw [rows]
      apply List.map_congr_left
      intro r hr
      split
      case isTrue own => exact s.written_of_origin (copy r hr own)
      case isFalse => rfl

theorem answer_markLapsed_eq (now : Instant) :
    (s.answer (.markLapsed now)).1 = some (.ok (s.rows.countP (·.isLapsed now))) := by
  cases s with
  | memory m => rfl
  | table t =>
    simp only [answer, SubscriptionTable.answer, SubscriptionTable.update, rows,
      List.countP_eq_length_filter]
    rfl

theorem answer_delete_eq (id : Uuid) :
    (s.answer (.delete id)).1 = some (.ok (s.rows.any (·.id == id))) := by
  cases s with
  | memory m =>
    simp [answer, MemorySubscriptions.answer, MemorySubscriptions.get?, rows, List.isSome_find?]
  | table t =>
    have some_row : decide (0 < (t.select (.idIs id)).length) = t.rows.any (·.id == id) := by
      rw [Bool.eq_iff_iff, decide_eq_true_iff, List.any_eq_true, List.length_pos_iff_exists_mem]
      simp [SubscriptionTable.select, Condition.holds]
    exact congrArg (fun found => some (Except.ok found)) some_row

end

/-! ## Two stores with the same rows -/

variable {s t : Subscriptions}

theorem get?_of_perm (same : s.rows.Perm t.rows) (ids : s.UniqueIds) (id : Uuid) :
    s.get? id = t.get? id := by
  refine find?_of_perm same ?_
  intro a ha b hb hida hidb
  refine List.inj_on_of_nodup_map ids ha hb ?_
  rw [eq_of_beq hida, eq_of_beq hidb]

theorem ofPair_of_perm (same : s.rows.Perm t.rows) (pairs : s.UniquePairs)
    (channelId callbackUrl : String) :
    s.rows.find? (ofPair channelId callbackUrl) = t.rows.find? (ofPair channelId callbackUrl) := by
  refine find?_of_perm same ?_
  intro a ha b hb paira pairb
  simp only [ofPair, Bool.and_eq_true, beq_iff_eq] at paira pairb
  refine List.inj_on_of_nodup_map pairs ha hb ?_
  rw [paira.1, paira.2, pairb.1, pairb.2]

/-- Stores with the same rows answer a call alike, and still have the same rows after it. -/
theorem agree_of_perm (same : s.rows.Perm t.rows) (ids : s.UniqueIds) (pairs : s.UniquePairs)
    {c : SubscriptionCall} (admissible : Admissible s.rows c) :
    Agree s.rows c (s.answer c).1 (t.answer c).1 ∧
      (s.answer c).2.rows.Perm (t.answer c).2.rows := by
  cases c with
  | create y =>
    obtain ⟨value, rows⟩ := answer_create_eq s y
    obtain ⟨value', rows'⟩ := answer_create_eq t y
    have clash := same.any_eq (f := (MemorySubscriptions.clash · y))
    rw [value, value', rows, rows', clash]
    refine ⟨⟨rfl, Option.some_ne_none _⟩, ?_⟩
    split
    case isTrue => exact same
    case isFalse => exact same.append_right [y]
  | find id =>
    rw [answer_read s (c := .find id) trivial, answer_read t (c := .find id) trivial, answer_find,
      answer_find, get?_of_perm same ids]
    exact ⟨⟨rfl, Option.some_ne_none _⟩, same⟩
  | findByPair channelId callbackUrl =>
    rw [answer_read s (c := .findByPair ..) trivial, answer_read t (c := .findByPair ..) trivial,
      answer_findByPair, answer_findByPair, ofPair_of_perm same pairs]
    exact ⟨⟨rfl, Option.some_ne_none _⟩, same⟩
  | findByTopic topicUrl =>
    rw [answer_read s (c := .findByTopic _) trivial, answer_read t (c := .findByTopic _) trivial,
      answer_findByTopic, answer_findByTopic]
    exact ⟨⟨_, _, rfl, rfl, same.filter _⟩, same⟩
  | update y =>
    obtain ⟨value, rows⟩ := answer_update_eq s admissible
    obtain ⟨value', rows'⟩ := answer_update_eq t fun r hr => admissible r (same.mem_iff.mpr hr)
    rw [value, value', rows, rows', same.any_eq]
    exact ⟨⟨rfl, Option.some_ne_none _⟩, same.map _⟩
  | list status limit offset now =>
    rw [answer_read s (c := .list ..) trivial, answer_read t (c := .list ..) trivial]
    obtain ⟨x, value, page⟩ := answer_list s admissible
    obtain ⟨y, value', page'⟩ := answer_list t admissible
    have page' := page'.perm same.symm
    exact ⟨⟨x, y, value, value', page.keys page', page, page'⟩, same⟩
  | findExpiring before limit =>
    rw [answer_read s (c := .findExpiring ..) trivial,
      answer_read t (c := .findExpiring ..) trivial]
    obtain ⟨x, x', value, active, retries⟩ := answer_findExpiring s before admissible
    obtain ⟨y, y', value', active', retries'⟩ := answer_findExpiring t before admissible
    have active' := active'.perm same.symm
    have keys := active.keys active'
    have size : y.length = x.length := by simpa using (congrArg List.length keys).symm
    rw [size] at retries'
    have retries' := retries'.perm same.symm
    exact ⟨⟨x, x', y, y', value, value', keys, retries.keys retries', active, active', retries,
      retries'⟩, same⟩
  | markLapsed now =>
    rw [answer_markLapsed_eq, answer_markLapsed_eq, answer_markLapsed, answer_markLapsed,
      same.countP_eq]
    exact ⟨⟨rfl, Option.some_ne_none _⟩, same.map _⟩
  | delete id =>
    rw [answer_delete_eq, answer_delete_eq, answer_delete, answer_delete, same.any_eq]
    exact ⟨⟨rfl, Option.some_ne_none _⟩, same.filter _⟩

end Subscriptions

theorem Agree.eq {rows : List Subscription} {c : SubscriptionCall} {a b : c.Answer}
    (h : Agree rows c a b) (differ : KeysDiffer rows c) : a = b := by
  cases c with
  | list status limit offset now =>
    obtain ⟨x, y, rfl, rfl, -, page, page'⟩ := h
    rw [page.unique page' differ]
  | findExpiring before limit =>
    obtain ⟨x, x', y, y', rfl, rfl, -, -, active, active', retries, retries'⟩ := h
    rw [active.unique active' differ.1, retries.unique retries' differ.2]
  | findByTopic topicUrl => exact differ.elim
  | _ => exact h.1

/-! ## Events -/

namespace Events

variable {s t : Events}

theorem answer_find (s : Events) (id : Uuid) :
    (s.answer (.find id)).1 = .ok (s.rows.find? (·.id == id)) := by
  cases s <;> rfl

theorem answer_findByHash (s : Events) (hash : String) :
    (s.answer (.findByHash hash)).1 = .ok (s.rows.find? (·.contentHash == hash)) := by
  cases s <;> rfl

/-- Stores with the same events answer a call alike, and still have the same events after it. -/
theorem agree_of_perm (same : s.rows.Perm t.rows) (distinct : Distinct s.rows) (c : EventCall) :
    (s.answer c).1 = (t.answer c).1 ∧ (s.answer c).2.rows.Perm (t.answer c).2.rows := by
  have distinct' : Distinct t.rows :=
    ⟨(same.map _).nodup_iff.mp distinct.1, (same.map _).nodup_iff.mp distinct.2⟩
  cases c with
  | insertNew e =>
    rcases answer_insertNew s e with ⟨refused, r, hr, clash⟩ | ⟨ok, rows, new⟩ <;>
      rcases answer_insertNew t e with ⟨refused', r', hr', clash'⟩ | ⟨ok', rows', new'⟩
    · rw [refused, refused']
      exact ⟨rfl, same⟩
    · exact absurd clash (not_or.mpr (new' r (same.mem_iff.mp hr)))
    · exact absurd clash' (not_or.mpr (new r' (same.mem_iff.mpr hr')))
    · rw [ok, ok', rows, rows']
      exact ⟨rfl, same.append_right [e]⟩
  | find id =>
    rw [rows_answer_of_find s _ rfl, rows_answer_of_find t _ rfl, answer_find, answer_find]
    refine ⟨congrArg Except.ok (find?_of_perm same ?_), same⟩
    intro a ha b hb hida hidb
    refine List.inj_on_of_nodup_map distinct.1 ha hb ?_
    rw [eq_of_beq hida, eq_of_beq hidb]
  | findByHash hash =>
    rw [rows_answer_of_find s _ rfl, rows_answer_of_find t _ rfl, answer_findByHash,
      answer_findByHash]
    refine ⟨congrArg Except.ok (find?_of_perm same ?_), same⟩
    intro a ha b hb hasha hashb
    exact distinct.eq_of_hash ha hb ((eq_of_beq hasha).trans (eq_of_beq hashb).symm)
  | recordOutcome id o =>
    rcases answer_recordOutcome distinct id o with
        ⟨ok, rows, r, hr, hid⟩ | ⟨missing, rows, absent⟩ <;>
      rcases answer_recordOutcome distinct' id o with
        ⟨ok', rows', r', hr', hid'⟩ | ⟨missing', rows', absent'⟩
    · rw [ok, ok', rows, rows']
      exact ⟨rfl, same.map _⟩
    · exact absurd hid (absent' r (same.mem_iff.mp hr))
    · exact absurd hid' (absent r' (same.mem_iff.mpr hr'))
    · rw [missing, missing', rows, rows']
      exact ⟨rfl, same⟩

end Events

/-! ## The same calls from the start -/

/-- The stores of a subscriber. -/
structure Stores where
  subscriptions : Subscriptions
  events : Events

namespace Stores

def inMemory : Stores := ⟨.memory {}, .memory {}⟩

def inDatabase : Stores := ⟨.table {}, .table {}⟩

/-- The same rows, perhaps in another order. -/
def Rearranged : Stores → Stores → Prop
  | ⟨.memory m, .memory e⟩, ⟨.memory m', .memory e'⟩ => m.rows.Perm m'.rows ∧ e.rows.Perm e'.rows
  | ⟨.table t, .table e⟩, ⟨.table t', .table e'⟩ => t.rows.Perm t'.rows ∧ e.rows.Perm e'.rows
  | _, _ => False

theorem Rearranged.rows {s s' : Stores} (h : s.Rearranged s') :
    s.subscriptions.rows.Perm s'.subscriptions.rows ∧ s.events.rows.Perm s'.events.rows := by
  obtain ⟨subscriptions, events⟩ := s
  obtain ⟨subscriptions', events'⟩ := s'
  cases subscriptions <;> cases events <;> cases subscriptions' <;> cases events' <;>
    first | exact h | exact h.elim

/-- Stores in memory and in a database that were asked the same calls, beginning with no rows. In
between either of them may bring its rows into another order. -/
inductive InStep : Stores → Stores → Prop
  | start : InStep inMemory inDatabase
  | subscriptions {s t : Stores} (c : SubscriptionCall) (h : InStep s t)
      (admissible : Admissible s.subscriptions.rows c) :
      InStep { s with subscriptions := (s.subscriptions.answer c).2 }
        { t with subscriptions := (t.subscriptions.answer c).2 }
  | events {s t : Stores} (c : EventCall) (h : InStep s t) :
      InStep { s with events := (s.events.answer c).2 } { t with events := (t.events.answer c).2 }
  | rearranged {s s' t t' : Stores} (h : InStep s t) (left : s.Rearranged s')
      (right : t.Rearranged t') : InStep s' t'

/-- What holds of stores that are in step. -/
structure Matched (s t : Stores) : Prop where
  subscriptions : s.subscriptions.rows.Perm t.subscriptions.rows
  events : s.events.rows.Perm t.events.rows
  ids : s.subscriptions.UniqueIds
  pairs : s.subscriptions.UniquePairs
  distinct : Distinct s.events.rows

theorem InStep.matched {s t : Stores} (h : InStep s t) : Matched s t := by
  induction h with
  | start => exact ⟨.nil, .nil, List.nodup_nil, List.nodup_nil, List.nodup_nil, List.nodup_nil⟩
  | @subscriptions s t c _ admissible ih =>
    have faithful : ∀ y, c = .update y → ∀ r ∈ s.subscriptions.rows, r.id = y.id →
        r.origin = y.origin := by
      rintro y rfl
      exact admissible
    exact ⟨(Subscriptions.agree_of_perm ih.subscriptions ih.ids ih.pairs admissible).2, ih.events,
      ih.ids.answer c, ih.pairs.answer c faithful, ih.distinct⟩
  | @events s t c _ ih =>
    exact ⟨ih.subscriptions, (Events.agree_of_perm ih.events ih.distinct c).2, ih.ids, ih.pairs,
      (Events.answer_appendOnly ih.distinct c).1⟩
  | @rearranged s s' t t' _ left right ih =>
    obtain ⟨subscriptions, events⟩ := left.rows
    obtain ⟨subscriptions', events'⟩ := right.rows
    exact ⟨subscriptions.symm.trans (ih.subscriptions.trans subscriptions'),
      events.symm.trans (ih.events.trans events'), (subscriptions.map _).nodup_iff.mp ih.ids,
      (subscriptions.map _).nodup_iff.mp ih.pairs, (events.map _).nodup_iff.mp ih.distinct.1,
      (events.map _).nodup_iff.mp ih.distinct.2⟩

/-- Stores that are in step hold the same rows, answer the next call alike whichever it is, and
answer it with the very same value where no two rows to be sorted share their instant. -/
theorem stores_agree {s t : Stores} (h : InStep s t) :
    s.subscriptions.rows.Perm t.subscriptions.rows ∧ s.events.rows.Perm t.events.rows ∧
      (∀ c, Admissible s.subscriptions.rows c →
        Agree s.subscriptions.rows c (s.subscriptions.answer c).1 (t.subscriptions.answer c).1 ∧
          (KeysDiffer s.subscriptions.rows c →
            (s.subscriptions.answer c).1 = (t.subscriptions.answer c).1)) ∧
      ∀ c, (s.events.answer c).1 = (t.events.answer c).1 := by
  have matched := h.matched
  refine ⟨matched.subscriptions, matched.events, ?_, ?_⟩
  · intro c admissible
    have agree := (Subscriptions.agree_of_perm matched.subscriptions matched.ids matched.pairs
      admissible).1
    exact ⟨agree, agree.eq⟩
  · exact fun c => (Events.agree_of_perm matched.events matched.distinct c).1

/-- An active row that runs out in the first second. -/
def dueRow (n : Nat) (channelId : String) : Subscription :=
  { id := .drawn n, channelId, topicUrl := "", callbackUrl := "", hubUrl := "", leaseSeconds := 1,
    expiresAt := ⟨Instant.nanosPerSecond⟩, status := .active, secret := none,
    lastVerifiedAt := none, createdAt := ⟨0⟩, updatedAt := ⟨0⟩ }

/-- Two rows run out together, and the stores keep them in different orders: for a batch of one
each store takes the row that it has first. -/
theorem stores_agree_swapped :
    ∃ s t : Stores, InStep s t ∧ s.subscriptions.rows = [dueRow 0 "a", dueRow 1 "b"] ∧
      t.subscriptions.rows = [dueRow 1 "b", dueRow 0 "a"] ∧
      Agree s.subscriptions.rows (.findExpiring ⟨Instant.nanosPerSecond⟩ 1)
        (some (.ok [dueRow 0 "a"])) (some (.ok [dueRow 1 "b"])) := by
  have created : InStep
      ⟨.memory ⟨[dueRow 0 "a", dueRow 1 "b"]⟩, .memory {}⟩
      ⟨.table ⟨[dueRow 0 "a", dueRow 1 "b"]⟩, .table {}⟩ :=
    .subscriptions (.create (dueRow 1 "b")) (.subscriptions (.create (dueRow 0 "a")) .start trivial)
      trivial
  have swapped : InStep
      ⟨.memory ⟨[dueRow 0 "a", dueRow 1 "b"]⟩, .memory {}⟩
      ⟨.table ⟨[dueRow 1 "b", dueRow 0 "a"]⟩, .table {}⟩ :=
    created.rearranged ⟨.refl _, .nil⟩ ⟨.swap .., .nil⟩
  refine ⟨_, _, swapped, rfl, rfl, ?_⟩
  have agree := ((stores_agree swapped).2.2.1 (.findExpiring ⟨Instant.nanosPerSecond⟩ 1)
    (show SubscriptionTable.fits 1 = true by decide)).1
  have left : ((Subscriptions.memory ⟨[dueRow 0 "a", dueRow 1 "b"]⟩).answer
      (.findExpiring ⟨Instant.nanosPerSecond⟩ 1)).1 = some (.ok [dueRow 0 "a"]) := by
    let m : MemorySubscriptions := ⟨[dueRow 0 "a", dueRow 1 "b"]⟩
    have active : m.dueActive ⟨Instant.nanosPerSecond⟩ = m.rows :=
      List.mergeSort_of_pairwise (by decide)
    show some (Except.ok (m.expiring ⟨Instant.nanosPerSecond⟩ 1)) = _
    rw [MemorySubscriptions.expiring, active]
    rfl
  have right : ((Subscriptions.table ⟨[dueRow 1 "b", dueRow 0 "a"]⟩).answer
      (.findExpiring ⟨Instant.nanosPerSecond⟩ 1)).1 = some (.ok [dueRow 1 "b"]) := by
    let t : SubscriptionTable := ⟨[dueRow 1 "b", dueRow 0 "a"]⟩
    have sorted : t.rows.mergeSort (fun a b => decide (a.expiresAt ≤ b.expiresAt)) = t.rows :=
      List.mergeSort_of_pairwise (by decide)
    have active : t.selectBy (SubscriptionTable.dueActive ⟨Instant.nanosPerSecond⟩)
        (·.expiresAt) 1 0 = [dueRow 1 "b"] := congrArg (List.take 1) sorted
    show some (Except.ok (t.expiring ⟨Instant.nanosPerSecond⟩ 1)) = _
    rw [SubscriptionTable.expiring, active]
    rfl
  rw [left, right] at agree
  exact agree

/-- A limit from two to the sixty-third on is read in memory but cannot be sent to the database, so
that the call breaks down there. -/
theorem findExpiring_not_sent :
    ¬ ∀ (s t : Stores) (before : Instant) (limit : Nat), InStep s t →
      Agree s.subscriptions.rows (.findExpiring before limit)
        (s.subscriptions.answer (.findExpiring before limit)).1
        (t.subscriptions.answer (.findExpiring before limit)).1 := by
  intro agree
  obtain ⟨_, _, y, y', -, sent, -⟩ := agree inMemory inDatabase ⟨0⟩ 9223372036854775808 .start
  have broken :
      (inDatabase.subscriptions.answer (.findExpiring ⟨0⟩ 9223372036854775808)).1 = none := rfl
  rw [broken] at sent
  cases sent

end Stores

end WebSub.Store
