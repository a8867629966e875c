import Mathlib.Data.List.Nodup
import WebSub.Store.Backend

/-!
# What subscription calls do to the rows

One account for both stores: where the rows after a call come from, what each call answers, and
that no two rows ever share an identity.
-/

namespace WebSub.Store

/-- The rows that a call hands out. -/
def SubscriptionCall.given : (c : SubscriptionCall) → c.Value → List Subscription
  | .create _, s => [s]
  | .find _, s | .findByPair .., s => s.toList
  | .findByTopic _, rows | .list .., rows | .findExpiring .., rows => rows
  | .update _, _ | .markLapsed _, _ | .delete _, _ => []

namespace Subscriptions

/-- What becomes of a row that another one is written over. -/
def written (y r : Subscription) : Subscriptions → Subscription
  | memory _ => y
  | table _ => SubscriptionTable.writeColumns y r

section

variable (s : Subscriptions) {y r : Subscription}

theorem written_columns :
    (s.written y r).leaseSeconds = y.leaseSeconds ∧ (s.written y r).expiresAt = y.expiresAt ∧
      (s.written y r).status = y.status ∧ (s.written y r).secret = y.secret ∧
      (s.written y r).lastVerifiedAt = y.lastVerifiedAt ∧
      (s.written y r).updatedAt = y.updatedAt := by
  cases s <;> exact ⟨rfl, rfl, rfl, rfl, rfl, rfl⟩

theorem written_id (h : r.id = y.id) : (s.written y r).id = y.id := by
  cases s with
  | memory m => rfl
  | table t => exact h

end

/-! ## Writes -/

theorem answer_update (s : Subscriptions) (y : Subscription) :
    ((s.answer (.update y)).1 = some (.error .notFound) ∧ (s.answer (.update y)).2 = s ∧
      ∀ r ∈ s.rows, r.id ≠ y.id) ∨
    ((∃ a, (s.answer (.update y)).1 = some (.ok a)) ∧
      (s.answer (.update y)).2.rows =
        s.rows.map (fun r => if r.id = y.id then s.written y r else r) ∧
      ∃ r ∈ s.rows, r.id = y.id) := by
  cases s with
  | memory m =>
    cases found : m.get? y.id with
    | none =>
      left
      refine ⟨by simp [answer, MemorySubscriptions.answer, found],
        by simp [answer, MemorySubscriptions.answer, found], ?_⟩
      intro r hr hid
      have absent := List.find?_eq_none.mp found r hr
      simp [hid] at absent
    | some old =>
      right
      refine ⟨⟨y, by simp [answer, MemorySubscriptions.answer, found]⟩,
        by simp [answer, MemorySubscriptions.answer, found, rows, MemorySubscriptions.replace,
          written], old, List.mem_of_find?_eq_some found, ?_⟩
      simpa using List.find?_some found
  | table t =>
    cases found : (t.select (.idIs y.id)).head? with
    | none =>
      left
      refine ⟨by simp [answer, SubscriptionTable.answer, found],
        by simp [answer, SubscriptionTable.answer, found], ?_⟩
      intro r hr hid
      have absent := List.filter_eq_nil_iff.mp (List.head?_eq_none_iff.mp found) r hr
      simp [Condition.holds, hid] at absent
    | some old =>
      right
      have mem := List.mem_filter.mp (List.mem_of_head? found)
      refine ⟨⟨SubscriptionTable.writeColumns y old,
        by simp [answer, SubscriptionTable.answer, found]⟩,
        by simp [answer, SubscriptionTable.answer, found, rows, SubscriptionTable.update,
          Condition.holds, written], old, mem.1, ?_⟩
      simpa [Condition.holds] using mem.2

theorem answer_create (s : Subscriptions) (y : Subscription) :
    (s.answer (.create y) = (some (.error .duplicate), s)) ∨
    ((s.answer (.create y)).1 = some (.ok y) ∧ (s.answer (.create y)).2.rows = s.rows ++ [y] ∧
      ∀ r ∈ s.rows, r.id ≠ y.id) := by
  cases s with
  | memory m =>
    by_cases h : m.rows.any (MemorySubscriptions.clash · y)
    · left
      simp [answer, MemorySubscriptions.answer, h]
    · right
      refine ⟨by simp [answer, MemorySubscriptions.answer, h],
        by simp [answer, MemorySubscriptions.answer, h, rows], ?_⟩
      intro r hr hid
      apply h
      rw [List.any_eq_true]
      exact ⟨r, hr, by simp [MemorySubscriptions.clash, hid]⟩
  | table t =>
    by_cases h : (t.select (SubscriptionTable.conflict y)).isEmpty
    · right
      refine ⟨by simp [answer, SubscriptionTable.answer, h],
        by simp [answer, SubscriptionTable.answer, h, rows], ?_⟩
      intro r hr hid
      have free := List.filter_eq_nil_iff.mp (List.isEmpty_iff.mp h) r hr
      simp [SubscriptionTable.conflict, Condition.holds, hid] at free
    · left
      simp [answer, SubscriptionTable.answer, h]

theorem answer_delete (s : Subscriptions) (id : Uuid) :
    (s.answer (.delete id)).2.rows = s.rows.filter (·.id != id) := by
  cases s with
  | memory m => rfl
  | table t => simp [answer, SubscriptionTable.answer, SubscriptionTable.delete, rows,
      Condition.holds, bne]

theorem answer_markLapsed (s : Subscriptions) (now : Instant) :
    (s.answer (.markLapsed now)).2.rows = s.rows.map fun r => (r.markExpired now).1 := by
  cases s with
  | memory m => rfl
  | table t =>
    simp only [answer, SubscriptionTable.answer, SubscriptionTable.update, rows]
    apply List.map_congr_left
    intro r _
    by_cases active : r.status = .active
    · simp [Condition.lapsed, Condition.holds, Subscription.markExpired, Subscription.isLapsed,
        Subscription.transition?, active, Status.canBecome, SubscriptionTable.writeExpired]
      split <;> rfl
    · simp [Condition.lapsed, Condition.holds, Subscription.markExpired, Subscription.isLapsed,
        active]

/-! ## Reads -/

def IsRead : SubscriptionCall → Prop
  | .find _ | .findByPair .. | .findByTopic _ | .list .. | .findExpiring .. => True
  | _ => False

theorem answer_read (s : Subscriptions) {c : SubscriptionCall} (h : IsRead c) :
    (s.answer c).2 = s := by
  cases s with
  | memory m => cases c <;> first | rfl | exact h.elim
  | table t =>
    cases c with
    | list status limit offset now =>
      simp only [answer, SubscriptionTable.answer]
      split <;> rfl
    | findExpiring before limit =>
      simp only [answer, SubscriptionTable.answer]
      split <;> rfl
    | _ => first | rfl | exact h.elim

theorem answer_findByTopic (s : Subscriptions) (topicUrl : String) :
    (s.answer (.findByTopic topicUrl)).1 =
      some (.ok (s.rows.filter (·.topicUrl == topicUrl))) := by
  cases s <;> rfl

theorem isRead_of_answer_none (s : Subscriptions) (c : SubscriptionCall)
    (h : (s.answer c).1 = none) :
    (∃ status limit offset now, c = .list status limit offset now) ∨
      ∃ before limit, c = .findExpiring before limit := by
  cases s with
  | memory m => cases c <;> cases h
  | table t =>
    cases c with
    | list status limit offset now => exact Or.inl ⟨_, _, _, _, rfl⟩
    | findExpiring before limit => exact Or.inr ⟨_, _, rfl⟩
    | create y =>
      simp only [answer, SubscriptionTable.answer] at h
      split at h <;> cases h
    | update y =>
      simp only [answer, SubscriptionTable.answer] at h
      split at h <;> cases h
    | _ => cases h

/-- Calls with which no number is sent. -/
def IsPlain : SubscriptionCall → Prop
  | .list .. | .findExpiring .. => False
  | _ => True

theorem answer_ne_none (s : Subscriptions) {c : SubscriptionCall} (plain : IsPlain c) :
    (s.answer c).1 ≠ none := by
  intro broken
  rcases isRead_of_answer_none s c broken with ⟨_, _, _, _, rfl⟩ | ⟨_, _, rfl⟩
  · exact plain
  · exact plain

/-- Numbers that a store can be asked with: any in memory, those of a statement in a database. -/
def Reads (n : Nat) : Subscriptions → Prop
  | memory _ => True
  | table _ => SubscriptionTable.fits n = true

theorem not_reads_of_findExpiring {s : Subscriptions} {before : Instant} {limit : Nat}
    (h : (s.answer (.findExpiring before limit)).1 = none) : ¬ s.Reads limit := by
  cases s with
  | memory m => cases h
  | table t =>
    intro reads
    have fits : SubscriptionTable.fits limit = true := reads
    simp [answer, SubscriptionTable.answer, fits] at h

theorem mem_selectBy {t : SubscriptionTable} {c : Condition} {key : Subscription → Instant}
    {limit offset : Nat} {r : Subscription} (h : r ∈ t.selectBy c key limit offset) :
    r ∈ t.rows := by
  have sorted := List.mem_of_mem_drop (List.mem_of_mem_take h)
  exact (List.mem_filter.mp (List.mem_mergeSort.mp sorted)).1

theorem mem_of_given_read (s : Subscriptions) {c : SubscriptionCall} (read : IsRead c) {a : c.Value}
    (h : (s.answer c).1 = some (.ok a)) {r : Subscription} (hr : r ∈ c.given a) : r ∈ s.rows := by
  cases s with
  | memory m =>
    cases c with
    | find id =>
      cases h
      exact List.mem_of_find?_eq_some (Option.mem_toList.mp hr)
    | findByPair channelId callbackUrl =>
      cases h
      exact List.mem_of_find?_eq_some (Option.mem_toList.mp hr)
    | findByTopic topicUrl =>
      cases h
      exact (List.mem_filter.mp hr).1
    | list status limit offset now =>
      cases h
      have listed := List.mem_of_mem_drop (List.mem_of_mem_take hr)
      exact List.mem_mergeSort.mp (List.mem_filter.mp listed).1
    | findExpiring before limit =>
      cases h
      rcases List.mem_append.mp hr with hr | hr
      · exact (List.mem_filter.mp (List.mem_mergeSort.mp (List.mem_of_mem_take hr))).1
      · exact (List.mem_filter.mp (List.mem_mergeSort.mp (List.mem_of_mem_take hr))).1
    | _ => exact read.elim
  | table t =>
    cases c with
    | find id =>
      cases h
      exact (List.mem_filter.mp (List.mem_of_head? (Option.mem_toList.mp hr))).1
    | findByPair channelId callbackUrl =>
      cases h
      exact (List.mem_filter.mp (List.mem_of_head? (Option.mem_toList.mp hr))).1
    | findByTopic topicUrl =>
      cases h
      exact (List.mem_filter.mp hr).1
    | list status limit offset now =>
      simp only [answer, SubscriptionTable.answer] at h
      split at h
      · cases h
        exact mem_selectBy hr
      · cases h
    | findExpiring before limit =>
      simp only [answer, SubscriptionTable.answer] at h
      split at h
      · cases h
        have expiring : r ∈ t.expiring before limit := hr
        unfold SubscriptionTable.expiring at expiring
        simp only at expiring
        split at expiring
        · rcases List.mem_append.mp expiring with hr | hr
          · exact mem_selectBy hr
          · exact mem_selectBy hr
        · exact mem_selectBy expiring
      · cases h
    | _ => exact read.elim

theorem answer_of_not_ok (s : Subscriptions) {c : SubscriptionCall}
    (failed : ∀ v, (s.answer c).1 ≠ some (.ok v)) : (s.answer c).2 = s := by
  by_cases read : IsRead c
  · exact answer_read s read
  · cases c with
    | create y =>
      rcases answer_create s y with refused | ⟨ok, -⟩
      · rw [refused]
      · exact absurd ok (failed y)
    | update y =>
      rcases answer_update s y with ⟨-, same, -⟩ | ⟨⟨a, ok⟩, -⟩
      · exact same
      · exact absurd ok (failed a)
    | markLapsed now => cases s <;> exact absurd rfl (failed _)
    | delete id => cases s <;> exact absurd rfl (failed _)
    | _ => exact absurd trivial read

/-! ## All calls -/

theorem mem_answer (s : Subscriptions) (c : SubscriptionCall) {r : Subscription}
    (hr : r ∈ (s.answer c).2.rows) :
    r ∈ s.rows ∨ c = .create r ∨
      (∃ y, ∃ old ∈ s.rows, c = .update y ∧ old.id = y.id ∧ r = s.written y old) ∨
      ∃ now, ∃ old ∈ s.rows, c = .markLapsed now ∧ r = (old.markExpired now).1 := by
  by_cases read : IsRead c
  · rw [answer_read s read] at hr
    exact Or.inl hr
  · cases c with
    | create y =>
      rcases answer_create s y with refused | ⟨-, rows, -⟩
      · rw [refused] at hr
        exact Or.inl hr
      · rw [rows, List.mem_append, List.mem_singleton] at hr
        rcases hr with hr | rfl
        · exact Or.inl hr
        · exact Or.inr (Or.inl rfl)
    | update y =>
      rcases answer_update s y with ⟨-, same, -⟩ | ⟨-, rows, -⟩
      · rw [same] at hr
        exact Or.inl hr
      · rw [rows] at hr
        obtain ⟨old, hold, rfl⟩ := List.mem_map.mp hr
        split
        case isTrue hid => exact Or.inr (Or.inr (Or.inl ⟨y, old, hold, rfl, hid, rfl⟩))
        case isFalse => exact Or.inl hold
    | markLapsed now =>
      rw [answer_markLapsed] at hr
      obtain ⟨old, hold, rfl⟩ := List.mem_map.mp hr
      exact Or.inr (Or.inr (Or.inr ⟨now, old, hold, rfl, rfl⟩))
    | delete id =>
      rw [answer_delete] at hr
      exact Or.inl (List.mem_filter.mp hr).1
    | _ => exact absurd trivial read

theorem mem_of_given (s : Subscriptions) {c : SubscriptionCall} {a : c.Value}
    (h : (s.answer c).1 = some (.ok a)) {r : Subscription} (hr : r ∈ c.given a) :
    r ∈ s.rows ∨ c = .create r := by
  by_cases read : IsRead c
  · exact Or.inl (mem_of_given_read s read h hr)
  · cases c with
    | create y =>
      rcases answer_create s y with refused | ⟨ok, -⟩
      · rw [refused] at h
        cases h
      · rw [ok] at h
        cases h
        rw [List.mem_singleton.mp hr]
        exact Or.inr rfl
    | update y => cases hr
    | markLapsed now => cases hr
    | delete id => cases hr
    | _ => exact absurd trivial read

/-! ## Identities -/

/-- No two rows share an identity. -/
def UniqueIds (s : Subscriptions) : Prop := (s.rows.map (·.id)).Nodup

theorem uniqueIds_of_blank {s : Subscriptions} (blank : s.rows = []) : s.UniqueIds := by
  unfold UniqueIds
  rw [blank]
  exact List.nodup_nil

theorem markExpired_id (r : Subscription) (now : Instant) : (r.markExpired now).1.id = r.id := by
  unfold Subscription.markExpired Subscription.transition?
  split
  · split
    case h_1 changed =>
      split at changed
      · cases changed
        rfl
      · cases changed
    case h_2 => rfl
  · rfl

theorem UniqueIds.answer {s : Subscriptions} (h : s.UniqueIds) (c : SubscriptionCall) :
    (s.answer c).2.UniqueIds := by
  unfold UniqueIds at *
  by_cases read : IsRead c
  · rw [answer_read s read]
    exact h
  · cases c with
    | create y =>
      rcases answer_create s y with refused | ⟨-, rows, new⟩
      · rw [refused]
        exact h
      · rw [rows, List.map_append, List.nodup_append]
        refine ⟨h, by simp, ?_⟩
        intro a ha b hb
        obtain ⟨r, hr, rfl⟩ := List.mem_map.mp ha
        rw [List.map_singleton, List.mem_singleton] at hb
        rw [hb]
        exact new r hr
    | update y =>
      rcases answer_update s y with ⟨-, same, -⟩ | ⟨-, rows, -⟩
      · rw [same]
        exact h
      · rw [rows, List.map_map]
        have same : s.rows.map ((·.id) ∘ fun r => if r.id = y.id then s.written y r else r) =
            s.rows.map (·.id) := by
          apply List.map_congr_left
          intro r _
          simp only [Function.comp_apply]
          split
          case isTrue hid => rw [s.written_id hid, hid]
          case isFalse => rfl
        rw [same]
        exact h
    | markLapsed now =>
      rw [answer_markLapsed, List.map_map]
      have same : s.rows.map ((·.id) ∘ fun r => (r.markExpired now).1) = s.rows.map (·.id) := by
        apply List.map_congr_left
        intro r _
        exact markExpired_id r now
      rw [same]
      exact h
    | delete id =>
      rw [answer_delete]
      exact h.sublist (List.filter_sublist.map _)
    | _ => exact absurd trivial read

theorem UniqueIds.get? {s : Subscriptions} (h : s.UniqueIds) {r : Subscription} (hr : r ∈ s.rows) :
    s.get? r.id = some r := by
  unfold Subscriptions.get?
  cases found : s.rows.find? (·.id == r.id) with
  | none =>
    have absent := List.find?_eq_none.mp found r hr
    simp at absent
  | some r' =>
    have hid := List.find?_some found
    have same : r'.id = r.id := by simpa using hid
    rw [List.inj_on_of_nodup_map h (List.mem_of_find?_eq_some found) hr same]

theorem get?_update (s : Subscriptions) (y : Subscription) (id : Uuid) :
    (s.answer (.update y)).2.get? id =
      (s.get? id).map fun r => if r.id = y.id then s.written y r else r := by
  rcases answer_update s y with ⟨-, same, absent⟩ | ⟨-, rows, -⟩
  · rw [same]
    cases found : s.get? id with
    | none => rfl
    | some r =>
      rw [Option.map_some, if_neg (absent r (List.mem_of_find?_eq_some found))]
  · unfold Subscriptions.get?
    rw [rows, List.find?_map]
    have same : ((·.id == id) ∘ fun r => if r.id = y.id then s.written y r else r) =
        fun r : Subscription => r.id == id := by
      funext r
      simp only [Function.comp_apply]
      split
      case isTrue hid => rw [s.written_id hid, hid]
      case isFalse => rfl
    rw [same]

theorem mem_after_of_given (s : Subscriptions) {c : SubscriptionCall} {a : c.Value}
    (h : (s.answer c).1 = some (.ok a)) {r : Subscription} (hr : r ∈ c.given a) :
    r ∈ (s.answer c).2.rows := by
  by_cases read : IsRead c
  · rw [answer_read s read]
    exact mem_of_given_read s read h hr
  · rcases mem_of_given s h hr with - | rfl
    · cases c with
      | create y =>
        rcases answer_create s y with refused | ⟨ok, rows, -⟩
        · rw [refused] at h
          cases h
        · rw [ok] at h
          cases h
          rw [rows, List.mem_singleton.mp hr]
          exact List.mem_concat_self
      | update y => cases hr
      | markLapsed now => cases hr
      | delete id => cases hr
      | _ => exact absurd trivial read
    · rcases answer_create s r with refused | ⟨-, rows, -⟩
      · rw [refused] at h
        cases h
      · rw [rows]
        exact List.mem_concat_self

/-- A call that may change the row with an identity, once it is there. -/
def Touches (id : Uuid) : SubscriptionCall → Prop
  | .update y => y.id = id
  | .delete i => i = id
  | .markLapsed _ => True
  | _ => False

theorem get?_id {s : Subscriptions} {id : Uuid} {r : Subscription} (h : s.get? id = some r) :
    r.id = id := by
  simpa using List.find?_some h

theorem get?_answer {s : Subscriptions} {c : SubscriptionCall} {id : Uuid} {r : Subscription}
    (h : s.get? id = some r) (untouched : ¬ Touches id c) : (s.answer c).2.get? id = some r := by
  by_cases read : IsRead c
  · rw [answer_read s read]
    exact h
  · cases c with
    | create y =>
      rcases answer_create s y with refused | ⟨-, rows, -⟩
      · rw [refused]
        exact h
      · unfold Subscriptions.get? at *
        rw [rows, List.find?_append, h]
        rfl
    | update y =>
      rw [get?_update, h, Option.map_some, if_neg]
      rw [get?_id h]
      exact Ne.symm untouched
    | delete i =>
      unfold Subscriptions.get? at *
      rw [answer_delete, List.find?_filter, ← h]
      congr 1
      funext x
      by_cases same : x.id = id
      · have other : id ≠ i := Ne.symm untouched
        simp [same, other]
      · simp [same]
    | markLapsed now => exact absurd trivial untouched
    | _ => exact absurd trivial read

theorem UniqueIds.findByTopic {s : Subscriptions} (h : s.UniqueIds) {topicUrl : String}
    {rows : List Subscription} (found : (s.answer (.findByTopic topicUrl)).1 = some (.ok rows)) :
    (rows.map (·.id)).Nodup := by
  cases s with
  | memory m =>
    cases found
    exact h.sublist (List.filter_sublist.map _)
  | table t =>
    cases found
    exact h.sublist (List.filter_sublist.map _)

theorem UniqueIds.some_rows {s : Subscriptions} (h : s.UniqueIds) {p : Subscription → Bool}
    {le : Subscription → Subscription → Bool} {rows : List Subscription}
    (sub : rows.Sublist ((s.rows.filter p).mergeSort le)) :
    (rows.map (·.id)).Nodup ∧ ∀ r ∈ rows, r ∈ s.rows ∧ p r = true := by
  constructor
  · have kept : ((s.rows.filter p).map (·.id)).Nodup := h.sublist (List.filter_sublist.map _)
    have sorted := ((List.mergeSort_perm (s.rows.filter p) le).map (·.id)).nodup_iff.mpr kept
    exact sorted.sublist (sub.map _)
  · intro r hr
    exact List.mem_filter.mp (List.mem_mergeSort.mp (sub.subset hr))

theorem UniqueIds.append_rows {s : Subscriptions} (h : s.UniqueIds) {p p' : Subscription → Bool}
    {rows rows' : List Subscription}
    (first : (rows.map (·.id)).Nodup ∧ ∀ r ∈ rows, r ∈ s.rows ∧ p r = true)
    (second : (rows'.map (·.id)).Nodup ∧ ∀ r ∈ rows', r ∈ s.rows ∧ p' r = true)
    (apart : ∀ r, p r = true → p' r ≠ true) : ((rows ++ rows').map (·.id)).Nodup := by
  rw [List.map_append, List.nodup_append]
  refine ⟨first.1, second.1, ?_⟩
  intro a ha b hb same
  obtain ⟨r, hr, rfl⟩ := List.mem_map.mp ha
  obtain ⟨r', hr', rfl⟩ := List.mem_map.mp hb
  obtain ⟨stored, meets⟩ := first.2 r hr
  obtain ⟨stored', meets'⟩ := second.2 r' hr'
  obtain rfl := List.inj_on_of_nodup_map h stored stored' same
  exact apart r meets meets'

theorem UniqueIds.findExpiring {s : Subscriptions} (h : s.UniqueIds) {before : Instant}
    {limit : Nat} {rows : List Subscription}
    (found : (s.answer (.findExpiring before limit)).1 = some (.ok rows)) :
    (rows.map (·.id)).Nodup := by
  cases s with
  | memory m =>
    cases found
    refine h.append_rows (h.some_rows (List.take_sublist _ _))
      (h.some_rows (List.take_sublist _ _)) ?_
    intro r active
    have status : r.status = .active := by
      simp at active
      exact active.1
    simp [status]
  | table t =>
    simp only [Subscriptions.answer, SubscriptionTable.answer] at found
    split at found
    case isFalse => cases found
    case isTrue =>
      cases found
      have page : ∀ c key n, ((t.selectBy c key n 0).map (·.id)).Nodup ∧
          ∀ r ∈ t.selectBy c key n 0, r ∈ t.rows ∧ c.holds r = true :=
        fun c key n => h.some_rows ((List.take_sublist _ _).trans (List.drop_sublist _ _))
      simp only [SubscriptionTable.expiring]
      split
      case isFalse => exact (page _ _ _).1
      case isTrue =>
        refine h.append_rows (page _ _ _) (page _ _ _) ?_
        intro r active
        have status : r.status = .active := by
          simp [SubscriptionTable.dueActive, Condition.holds] at active
          exact active.1
        simp [SubscriptionTable.dueRetry, Condition.holds, status]

theorem length_of_findExpiring {s : Subscriptions} {before : Instant} {limit : Nat}
    {rows : List Subscription}
    (found : (s.answer (.findExpiring before limit)).1 = some (.ok rows)) :
    rows.length ≤ limit := by
  cases s with
  | memory m =>
    cases found
    simp only [MemorySubscriptions.expiring, List.length_append, List.length_take]
    omega
  | table t =>
    simp only [Subscriptions.answer, SubscriptionTable.answer] at found
    split at found
    case isFalse => cases found
    case isTrue =>
      cases found
      have page : ∀ c key n, (t.selectBy c key n 0).length ≤ n :=
        fun c key n => List.length_take_le _ _
      simp only [SubscriptionTable.expiring]
      split
      case isFalse => exact page _ _ _
      case isTrue =>
        have first := page (SubscriptionTable.dueActive before) (·.expiresAt) limit
        have second := page (SubscriptionTable.dueRetry before) (·.updatedAt)
          (limit - (t.selectBy (SubscriptionTable.dueActive before) (·.expiresAt) limit 0).length)
        rw [List.length_append]
        omega

/-! ## A row before and after -/

/-- What a call makes of a row that was there. -/
theorem UniqueIds.row_answer {s : Subscriptions} (h : s.UniqueIds) {c : SubscriptionCall}
    {r r' : Subscription} (hr : r ∈ s.rows) (hr' : r' ∈ (s.answer c).2.rows) (same : r'.id = r.id) :
    r' = r ∨ (∃ y, c = .update y ∧ y.id = r.id ∧ r' = s.written y r) ∨
      ∃ now, c = .markLapsed now ∧ r' = (r.markExpired now).1 := by
  have only : ∀ x ∈ s.rows, x.id = r.id → x = r := fun x hx => List.inj_on_of_nodup_map h hx hr
  rcases mem_answer s c hr' with
    stored | rfl | ⟨y, old, hold, rfl, id, rfl⟩ | ⟨now, old, hold, rfl, rfl⟩
  · exact Or.inl (only r' stored same)
  · rcases answer_create s r' with refused | ⟨-, -, new⟩
    · rw [refused] at hr'
      exact Or.inl (only r' hr' same)
    · exact absurd same.symm (new r hr)
  · rw [s.written_id id, ← id] at same
    obtain rfl := only old hold same
    exact Or.inr (Or.inl ⟨y, rfl, id.symm, rfl⟩)
  · rw [markExpired_id] at same
    obtain rfl := only old hold same
    exact Or.inr (Or.inr ⟨now, rfl, rfl⟩)

end Subscriptions

end WebSub.Store
