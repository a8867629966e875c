import Mathlib.Data.List.Nodup
import WebSub.Proofs.Store.AppendOnly
import WebSub.Store.Backend

/-!
# What event calls do to the rows

The store in memory and the table answer alike as long as no two rows share an identity or a hash,
and neither ever lets two rows share one.
-/

namespace WebSub

/-- The record as it was first stored. -/
def Event.receipt (e : Event) : Event :=
  .received e.id e.rawBody e.contentHash e.receivedAt e.createdAt

@[simp] theorem Event.receipt_withOutcome (e : Event) (o : Event.Outcome) :
    (e.withOutcome o).receipt = e.receipt := rfl

@[simp] theorem Event.receipt_contentHash (e : Event) :
    e.receipt.contentHash = e.contentHash := rfl

namespace Store

/-- No two rows share an identity or a hash. -/
def Distinct (rows : List Event) : Prop :=
  (rows.map (·.id)).Nodup ∧ (rows.map (·.contentHash)).Nodup

theorem Distinct.eq_of_hash {rows : List Event} (h : Distinct rows) {a b : Event} (ha : a ∈ rows)
    (hb : b ∈ rows) (hh : a.contentHash = b.contentHash) : a = b :=
  List.inj_on_of_nodup_map h.2 ha hb hh

theorem Distinct.append {rows : List Event} {e : Event} (h : Distinct rows)
    (new : ∀ r ∈ rows, r.id ≠ e.id ∧ r.contentHash ≠ e.contentHash) : Distinct (rows ++ [e]) := by
  obtain ⟨hid, hhash⟩ := h
  constructor
  · rw [List.map_append, List.nodup_append]
    refine ⟨hid, by simp, ?_⟩
    intro a ha b hb
    obtain ⟨r, hr, rfl⟩ := List.mem_map.mp ha
    rw [List.map_singleton, List.mem_singleton] at hb
    rw [hb]
    exact (new r hr).1
  · rw [List.map_append, List.nodup_append]
    refine ⟨hhash, by simp, ?_⟩
    intro a ha b hb
    obtain ⟨r, hr, rfl⟩ := List.mem_map.mp ha
    rw [List.map_singleton, List.mem_singleton] at hb
    rw [hb]
    exact (new r hr).2

/-- A row after an outcome was recorded for an identity. -/
def recorded (id : Uuid) (o : Event.Outcome) (r : Event) : Event :=
  if r.id = id then r.withOutcome o else r

@[simp] theorem recorded_id (id : Uuid) (o : Event.Outcome) (r : Event) :
    (recorded id o r).id = r.id := by
  unfold recorded; split <;> rfl

@[simp] theorem recorded_contentHash (id : Uuid) (o : Event.Outcome) (r : Event) :
    (recorded id o r).contentHash = r.contentHash := by
  unfold recorded; split <;> rfl

@[simp] theorem recorded_receipt (id : Uuid) (o : Event.Outcome) (r : Event) :
    (recorded id o r).receipt = r.receipt := by
  unfold recorded; split <;> rfl

theorem map_recorded_of_ne {rows : List Event} {id : Uuid} {o : Event.Outcome}
    (absent : ∀ r ∈ rows, r.id ≠ id) : rows.map (recorded id o) = rows := by
  conv_rhs => rw [← List.map_id rows]
  apply List.map_congr_left
  intro r hr
  rw [recorded, if_neg (absent r hr), id_eq]

theorem Distinct.recorded {rows : List Event} (h : Distinct rows) (id : Uuid)
    (o : Event.Outcome) : Distinct (rows.map (recorded id o)) := by
  unfold Distinct
  rw [List.map_map, List.map_map]
  have hid : ((·.id) ∘ Store.recorded id o) = fun r : Event => r.id := by
    funext r; exact recorded_id id o r
  have hhash : ((·.contentHash) ∘ Store.recorded id o) = fun r : Event => r.contentHash := by
    funext r; exact recorded_contentHash id o r
  rw [hid, hhash]
  exact h

/-! ## Outcomes in the table -/

theorem Distinct.ne_of_mem {before after : List Event} {a : Event}
    (h : Distinct (before ++ a :: after)) :
    ∀ r ∈ before ++ after, a.id ≠ r.id ∧ a.contentHash ≠ r.contentHash := by
  obtain ⟨hid, hhash⟩ := h
  rw [List.map_append, List.map_cons, List.nodup_middle, ← List.map_append,
    List.nodup_cons] at hid hhash
  intro r hr
  constructor
  · intro he
    exact hid.1 (List.mem_map.mpr ⟨r, hr, he.symm⟩)
  · intro he
    exact hhash.1 (List.mem_map.mpr ⟨r, hr, he.symm⟩)

open EventTable (Permitted KeepsReceipt outcomeColumns rewritten)

theorem write_outcomeColumns (o : Event.Outcome) (e : Event) :
    (outcomeColumns o).write e = .ofEvent (e.withOutcome o) := rfl

theorem rewritten_outcomeColumns (id : Uuid) (o : Event.Outcome) :
    rewritten (·.id == id) (outcomeColumns o) = recorded id o := by
  funext r
  simp [rewritten, write_outcomeColumns, recorded]

theorem Distinct.permits_outcome {rows : List Event} (h : Distinct rows) (id : Uuid)
    (o : Event.Outcome) : Permitted (·.id == id) (outcomeColumns o) rows := by
  refine ⟨fun old _ _ => ⟨rfl, rfl, rfl, rfl⟩, ?_⟩
  rintro before old after rfl -
  refine ⟨old.withOutcome o, rfl, ?_⟩
  intro r hr
  rw [rewritten_outcomeColumns, List.mem_append] at hr
  rcases hr with earlier | later
  · obtain ⟨first, hfirst, rfl⟩ := List.mem_map.mp earlier
    rw [recorded_id, recorded_contentHash]
    exact h.ne_of_mem first (List.mem_append_left _ hfirst)
  · exact h.ne_of_mem r (List.mem_append_right _ later)

theorem Distinct.execute_outcome {t : EventTable} (h : Distinct t.rows) (id : Uuid)
    (o : Event.Outcome) :
    t.execute (.update (·.id == id) (outcomeColumns o)) =
      (.ok (t.rows.countP (·.id == id)), ⟨t.rows.map (Store.recorded id o)⟩) := by
  rw [EventTable.execute_update (h.permits_outcome id o), rewritten_outcomeColumns]

theorem execute_insert (t : EventTable) (e : Event) :
    t.execute (.insert [.ofEvent e]) =
      if t.rows.any (EventTable.clash e) then (.error .notUnique, t)
      else (.ok 1, ⟨t.rows ++ [e]⟩) := by
  simp only [EventTable.execute, EventTable.extend, EventTable.place, EventTable.row?_ofEvent]
  cases t.rows.any (EventTable.clash e) <;> rfl

/-! ## Answers of either store -/

namespace Events

theorem answer_insertNew (s : Events) (e : Event) :
    (s.answer (.insertNew e) = (.error .duplicate, s) ∧
      ∃ r ∈ s.rows, r.id = e.id ∨ r.contentHash = e.contentHash) ∨
    ((s.answer (.insertNew e)).1 = .ok e ∧ (s.answer (.insertNew e)).2.rows = s.rows ++ [e] ∧
      ∀ r ∈ s.rows, r.id ≠ e.id ∧ r.contentHash ≠ e.contentHash) := by
  cases s with
  | memory m =>
    by_cases h : m.rows.any fun r => r.contentHash == e.contentHash || r.id == e.id
    · left
      refine ⟨by simp [answer, MemoryEvents.answer, h], ?_⟩
      obtain ⟨r, hr, hc⟩ := List.any_eq_true.mp h
      exact ⟨r, hr, by simpa [or_comm] using hc⟩
    · right
      refine ⟨by simp [answer, MemoryEvents.answer, h],
        by simp [answer, MemoryEvents.answer, h, rows], ?_⟩
      intro r hr
      rw [List.any_eq_true] at h
      have hc := fun hx => h ⟨r, hr, hx⟩
      constructor
      · intro he; exact hc (by simp [he])
      · intro he; exact hc (by simp [he])
  | table t =>
    by_cases h : t.rows.any (EventTable.clash e)
    · left
      refine ⟨by simp [answer, EventTable.answer, execute_insert, h, EventTable.refused], ?_⟩
      obtain ⟨r, hr, hc⟩ := List.any_eq_true.mp h
      simp only [EventTable.clash, Bool.or_eq_true, beq_iff_eq] at hc
      exact ⟨r, hr, hc.imp Eq.symm Eq.symm⟩
    · right
      refine ⟨by simp [answer, EventTable.answer, execute_insert, h],
        by simp [answer, EventTable.answer, execute_insert, h, rows], ?_⟩
      intro r hr
      rw [List.any_eq_true] at h
      have hc := fun hx => h ⟨r, hr, hx⟩
      constructor
      · intro he; exact hc (by simp [EventTable.clash, he])
      · intro he; exact hc (by simp [EventTable.clash, he])

theorem answer_insertNew_of_hash {s : Events} {e r : Event} (hr : r ∈ s.rows)
    (h : r.contentHash = e.contentHash) : s.answer (.insertNew e) = (.error .duplicate, s) := by
  rcases answer_insertNew s e with ⟨refused, -⟩ | ⟨-, -, new⟩
  · exact refused
  · exact absurd h (new r hr).2

theorem answer_recordOutcome {s : Events} (distinct : Distinct s.rows) (id : Uuid)
    (o : Event.Outcome) :
    ((s.answer (.recordOutcome id o)).1 = .ok () ∧
      (s.answer (.recordOutcome id o)).2.rows = s.rows.map (recorded id o) ∧
      ∃ r ∈ s.rows, r.id = id) ∨
    ((s.answer (.recordOutcome id o)).1 = .error .notFound ∧
      (s.answer (.recordOutcome id o)).2.rows = s.rows ∧ ∀ r ∈ s.rows, r.id ≠ id) := by
  by_cases present : ∃ r ∈ s.rows, r.id = id
  · left
    obtain ⟨r, hr, hid⟩ := present
    cases s with
    | memory m =>
      have found : m.rows.any (·.id == id) = true :=
        List.any_eq_true.mpr ⟨r, hr, by simp [hid]⟩
      exact ⟨by simp [answer, MemoryEvents.answer, found],
        by simp [answer, MemoryEvents.answer, found, rows, recorded], r, hr, hid⟩
    | table t =>
      have written := Distinct.execute_outcome distinct id o
      have found : t.rows.countP (·.id == id) ≠ 0 := by
        rw [Ne, List.countP_eq_zero]
        intro none
        exact none r hr (by simp [hid])
      refine ⟨?_, ?_, r, hr, hid⟩
      · simp only [answer, EventTable.answer, written, if_neg found]
      · simp only [answer, EventTable.answer, written, rows]
  · right
    have absent : ∀ r ∈ s.rows, r.id ≠ id := fun r hr hid => present ⟨r, hr, hid⟩
    cases s with
    | memory m =>
      have missing : m.rows.any (·.id == id) = false := by
        rw [List.any_eq_false]
        intro r hr
        simp [absent r hr]
      exact ⟨by simp [answer, MemoryEvents.answer, missing],
        by simp [answer, MemoryEvents.answer, missing], absent⟩
    | table t =>
      have written := Distinct.execute_outcome distinct id o
      have missing : t.rows.countP (·.id == id) = 0 := by
        rw [List.countP_eq_zero]
        intro r hr
        simp [absent r hr]
      refine ⟨?_, ?_, absent⟩
      · simp only [answer, EventTable.answer, written, if_pos missing]
      · simp only [answer, EventTable.answer, written, rows]
        exact map_recorded_of_ne absent

theorem rows_answer_of_find (s : Events) (c : EventCall) (h : c.name? = none) :
    (s.answer c).2.rows = s.rows := by
  cases c with
  | insertNew e => cases h
  | recordOutcome id o => cases h
  | find id => cases s <;> rfl
  | findByHash hash => cases s <;> rfl

/-- The table is append-only, and so is the store in memory: no call takes a row away or changes
what was received. -/
theorem answer_appendOnly {s : Events} (distinct : Distinct s.rows) (c : EventCall) :
    Distinct (s.answer c).2.rows ∧
      ∀ r ∈ s.rows, ∃ r' ∈ (s.answer c).2.rows, r'.receipt = r.receipt := by
  have unchanged : ∀ rows : List Event, rows = s.rows →
      Distinct rows ∧ ∀ r ∈ s.rows, ∃ r' ∈ rows, r'.receipt = r.receipt := by
    rintro rows rfl
    exact ⟨distinct, fun r hr => ⟨r, hr, rfl⟩⟩
  cases c with
  | insertNew e =>
    rcases answer_insertNew s e with ⟨refused, -⟩ | ⟨-, rows, new⟩
    · exact unchanged _ (by rw [refused])
    · rw [rows]
      exact ⟨distinct.append new, fun r hr => ⟨r, List.mem_append_left _ hr, rfl⟩⟩
  | recordOutcome id o =>
    rcases answer_recordOutcome distinct id o with ⟨-, rows, -⟩ | ⟨-, rows, -⟩
    · rw [rows]
      refine ⟨distinct.recorded id o, ?_⟩
      intro r hr
      exact ⟨recorded id o r, List.mem_map_of_mem hr, recorded_receipt id o r⟩
    · exact unchanged _ rows
  | find id => exact unchanged _ (rows_answer_of_find s _ rfl)
  | findByHash hash => exact unchanged _ (rows_answer_of_find s _ rfl)

end Events

end Store

end WebSub
