import WebSub.Store.EventTable

/-!
# The table of events only grows

Whatever statements are run, a row that is stored stays, and what it has received stays with it. A
statement that would have it otherwise changes nothing at all, and any other one does its work.
-/

namespace WebSub.Store.EventTable

/-! ## What a row has received -/

/-- What a row is stored with and never gives up. -/
structure Receipt where
  rawBody : List UInt8
  contentHash : String
  receivedAt : Instant
  createdAt : Instant
deriving DecidableEq

def receiptOf (e : Event) : Receipt := ⟨e.rawBody, e.contentHash, e.receivedAt, e.createdAt⟩

/-- The columns of the receipt are written as they were. -/
structure KeepsReceipt (old : Event) (new : Draft) : Prop where
  rawBody : new.rawBody = some old.rawBody
  contentHash : new.contentHash = some old.contentHash
  receivedAt : new.receivedAt = some old.receivedAt
  createdAt : new.createdAt = some old.createdAt

variable {old new : Event} {draft : Draft} {condition : Event → Bool} {set : Assignments}
  {rows rows' rest : List Event}

theorem sameReceipt_iff : sameReceipt old draft = true ↔ KeepsReceipt old draft := by
  simp only [sameReceipt, Bool.and_eq_true, beq_iff_eq]
  constructor
  · rintro ⟨⟨⟨body, hash⟩, received⟩, created⟩
    exact ⟨body, hash, received, created⟩
  · rintro ⟨body, hash, received, created⟩
    exact ⟨⟨⟨body, hash⟩, received⟩, created⟩

@[simp] theorem row?_ofEvent (e : Event) : (Draft.ofEvent e).row? = some e := rfl

theorem ofEvent_of_row? (h : draft.row? = some new) : draft = .ofEvent new := by
  obtain ⟨id, body, hash, received, processed, error, video, channel, created⟩ := draft
  cases id <;> cases body <;> cases hash <;> cases received <;> cases processed <;>
    cases created <;> cases h
  rfl

theorem KeepsReceipt.receiptOf (keeps : KeepsReceipt old draft) (h : draft.row? = some new) :
    receiptOf new = receiptOf old := by
  obtain rfl := ofEvent_of_row? h
  obtain ⟨body, hash, received, created⟩ := keeps
  unfold EventTable.receiptOf
  rw [Option.some.inj body, Option.some.inj hash, Option.some.inj received,
    Option.some.inj created]

/-! ## Updates -/

/-- What an update makes of a row, once nothing stands against it. -/
def rewritten (condition : Event → Bool) (set : Assignments) (old : Event) : Event :=
  if condition old then (set.write old).row?.getD old else old

/-- The row can be written where it stands: it is complete, and it shares neither its identity nor
its hash with a row before it, as that is now, or with one after it, as that still is. -/
def Consistent (condition : Event → Bool) (set : Assignments) (before : List Event) (old : Event)
    (after : List Event) : Prop :=
  ∃ new, (set.write old).row? = some new ∧
    ∀ r ∈ before.map (rewritten condition set) ++ after,
      new.id ≠ r.id ∧ new.contentHash ≠ r.contentHash

/-- An update that keeps every receipt and violates no constraint. -/
structure Permitted (condition : Event → Bool) (set : Assignments) (rows : List Event) :
    Prop where
  keeps : ∀ old ∈ rows, condition old → KeepsReceipt old (set.write old)
  consistent : ∀ before old after, rows = before ++ old :: after → condition old →
    Consistent condition set before old after

/-- So far as the rows behind `before` are concerned. -/
def PermittedFrom (condition : Event → Bool) (set : Assignments) (before : List Event) :
    List Event → Prop
  | [] => True
  | old :: rest =>
    (condition old →
      KeepsReceipt old (set.write old) ∧ Consistent condition set before old rest) ∧
    PermittedFrom condition set (before ++ [old]) rest

theorem permittedFrom_iff {before : List Event} :
    PermittedFrom condition set before rest ↔
      ∀ between old after, rest = between ++ old :: after → condition old →
        KeepsReceipt old (set.write old) ∧
          Consistent condition set (before ++ between) old after := by
  induction rest generalizing before with
  | nil => exact iff_of_true trivial (by simp)
  | cons first rest ih =>
    unfold PermittedFrom
    rw [ih]
    constructor
    · rintro ⟨here, later⟩ between old after split
      cases between with
      | nil =>
        obtain ⟨rfl, rfl⟩ := List.cons.inj split
        rw [List.append_nil]
        exact here
      | cons _ between =>
        obtain ⟨rfl, rfl⟩ := List.cons.inj split
        simpa using later between old after rfl
    · intro all
      refine ⟨by simpa using all [] first rest rfl, ?_⟩
      rintro between old after rfl
      simpa using all (first :: between) old after rfl

theorem permitted_iff : Permitted condition set rows ↔ PermittedFrom condition set [] rows := by
  rw [permittedFrom_iff]
  constructor
  · rintro ⟨keeps, consistent⟩ between old after rfl matched
    exact ⟨keeps old (by simp) matched, consistent between old after rfl matched⟩
  · intro all
    refine ⟨?_, fun before old after split matched => (all before old after split matched).2⟩
    intro old hold matched
    obtain ⟨before, after, split⟩ := List.append_of_mem hold
    exact (all before old after split matched).1

theorem place_ok_iff {others : List Event} :
    place others draft = .ok new ↔ draft.row? = some new ∧
      ∀ r ∈ others, new.id ≠ r.id ∧ new.contentHash ≠ r.contentHash := by
  unfold place
  cases row : draft.row? with
  | none => simp
  | some new' =>
    have apart : others.any (clash new') = false ↔
        ∀ r ∈ others, new'.id ≠ r.id ∧ new'.contentHash ≠ r.contentHash := by
      simp [List.any_eq_false, clash]
    dsimp only
    cases clashes : others.any (clash new') with
    | false =>
      rw [if_neg Bool.false_ne_true, Except.ok.injEq, Option.some.injEq]
      refine ⟨?_, And.left⟩
      rintro rfl
      exact ⟨rfl, apart.mp clashes⟩
    | true =>
      rw [if_pos rfl]
      refine ⟨nofun, ?_⟩
      rintro ⟨same, free⟩
      obtain rfl := Option.some.inj same
      rw [apart.mpr free] at clashes
      cases clashes

theorem rewrite_ok_iff {others : List Event} :
    rewrite set others old = .ok new ↔
      KeepsReceipt old (set.write old) ∧ (set.write old).row? = some new ∧
        ∀ r ∈ others, new.id ≠ r.id ∧ new.contentHash ≠ r.contentHash := by
  unfold rewrite
  dsimp only
  rw [← sameReceipt_iff]
  cases sameReceipt old (set.write old) with
  | true => rw [if_pos rfl, place_ok_iff, and_iff_right rfl]
  | false => simp

/-- The rows that an update has passed, as they are held. -/
def passed (condition : Event → Bool) (set : Assignments) (before : List Event) : List Event :=
  (before.map (rewritten condition set)).reverse

@[simp] theorem passed_append (before : List Event) :
    passed condition set (before ++ [old]) =
      rewritten condition set old :: passed condition set before := by
  simp [passed]

theorem revise_cons_of_permitted {before : List Event}
    (here : condition old → KeepsReceipt old (set.write old) ∧
      Consistent condition set before old rest) :
    revise condition set (passed condition set before) (old :: rest) =
      revise condition set (passed condition set (before ++ [old])) rest := by
  rw [passed_append, revise]
  by_cases matched : condition old = true
  · obtain ⟨keeps, new, row, apart⟩ := here matched
    have written : rewritten condition set old = new := by simp [rewritten, matched, row]
    have ok : rewrite set (passed condition set before ++ rest) old = .ok new :=
      rewrite_ok_iff.mpr ⟨keeps, row, by simpa [passed] using apart⟩
    rw [if_pos matched, ok, written]
    rfl
  · rw [if_neg matched, rewritten, if_neg matched]

theorem revise_cons_of_not_permitted {before : List Event}
    (bad : ¬ (condition old → KeepsReceipt old (set.write old) ∧
      Consistent condition set before old rest)) :
    ∃ refusal, revise condition set (passed condition set before) (old :: rest) =
      .error refusal := by
  obtain ⟨matched, refused⟩ := Classical.not_imp.mp bad
  rw [revise, if_pos matched]
  cases outcome : rewrite set (passed condition set before ++ rest) old with
  | error refusal => exact ⟨refusal, rfl⟩
  | ok new =>
    obtain ⟨keeps, row, apart⟩ := rewrite_ok_iff.mp outcome
    exact absurd ⟨keeps, new, row, by simpa [passed] using apart⟩ refused

theorem revise_of_permitted (before : List Event)
    (permitted : PermittedFrom condition set before rest) :
    revise condition set (passed condition set before) rest =
      .ok ((before ++ rest).map (rewritten condition set)) := by
  -- On the rows that are left: what is held is always what the passed ones have become.
  induction rest generalizing before with
  | nil => simp [revise, passed]
  | cons old rest ih =>
    obtain ⟨here, later⟩ := permitted
    rw [revise_cons_of_permitted here, ih _ later, List.append_assoc, List.singleton_append]

theorem revise_of_not_permitted {before : List Event}
    (refused : ¬ PermittedFrom condition set before rest) :
    ∃ refusal, revise condition set (passed condition set before) rest = .error refusal := by
  induction rest generalizing before with
  | nil => exact absurd trivial refused
  | cons old rest ih =>
    by_cases here : condition old → KeepsReceipt old (set.write old) ∧
        Consistent condition set before old rest
    · rw [revise_cons_of_permitted here]
      exact ih fun later => refused ⟨here, later⟩
    · exact revise_cons_of_not_permitted here

variable {t : EventTable}

theorem execute_update (permitted : Permitted condition set t.rows) :
    t.execute (.update condition set) =
      (.ok (t.rows.countP condition), ⟨t.rows.map (rewritten condition set)⟩) := by
  have revised : revise condition set [] t.rows = .ok (t.rows.map (rewritten condition set)) :=
    revise_of_permitted [] (permitted_iff.mp permitted)
  simp only [execute, revised]

theorem execute_update_refused (refused : ¬ Permitted condition set t.rows) :
    ∃ refusal, t.execute (.update condition set) = (.error refusal, t) := by
  rw [permitted_iff] at refused
  obtain ⟨refusal, stopped⟩ := revise_of_not_permitted refused
  have revised : revise condition set [] t.rows = .error refusal := stopped
  refine ⟨refusal, ?_⟩
  simp only [execute, revised]

/-! ## All statements -/

theorem rewritten_receiptOf (permitted : Permitted condition set rows) (stored : old ∈ rows) :
    receiptOf (rewritten condition set old) = receiptOf old := by
  unfold rewritten
  split
  case isFalse => rfl
  case isTrue matched =>
    obtain ⟨before, after, split⟩ := List.append_of_mem stored
    obtain ⟨new, row, -⟩ := permitted.consistent before old after split matched
    rw [row, Option.getD_some]
    exact (permitted.keeps old stored matched).receiptOf row

theorem prefix_extend {drafts : List Draft} (h : extend rows drafts = .ok rows') :
    rows <+: rows' := by
  induction drafts generalizing rows with
  | nil =>
    cases h
    exact List.prefix_refl _
  | cons draft drafts ih =>
    unfold extend at h
    cases placed : place rows draft with
    | error refusal =>
      rw [placed] at h
      cases h
    | ok new =>
      rw [placed] at h
      exact (List.prefix_append rows [new]).trans (ih h)

theorem execute_receipts (t : EventTable) (statement : Statement) :
    t.rows.map receiptOf <+: (t.execute statement).2.rows.map receiptOf := by
  have same : t.rows.map receiptOf <+: t.rows.map receiptOf := List.prefix_refl _
  cases statement with
  | insert drafts =>
    simp only [execute]
    cases extended : extend t.rows drafts with
    | ok rows => exact (prefix_extend extended).map _
    | error refusal => exact same
  | update condition set =>
    by_cases permitted : Permitted condition set t.rows
    · have kept : (t.rows.map (rewritten condition set)).map receiptOf = t.rows.map receiptOf := by
        rw [List.map_map]
        exact List.map_congr_left fun old stored => rewritten_receiptOf permitted stored
      rw [← kept] at same
      simpa only [execute_update permitted, kept] using same
    · obtain ⟨refusal, refused⟩ := execute_update_refused permitted
      simpa only [refused] using same
  | delete condition =>
    simp only [execute]
    split
    · exact same
    · exact same

/-- Runs statements one after another; one that is refused is passed over. -/
def executeAll (t : EventTable) (statements : List Statement) : EventTable :=
  statements.foldl (fun t statement => (t.execute statement).2) t

theorem executeAll_receipts (t : EventTable) (statements : List Statement) :
    t.rows.map receiptOf <+: (t.executeAll statements).rows.map receiptOf := by
  induction statements generalizing t with
  | nil => exact List.prefix_refl _
  | cons statement statements ih =>
    exact (execute_receipts t statement).trans (ih (t.execute statement).2)

/-- What statements can do to a table. -/
structure AppendOnly (t : EventTable) : Prop where
  /-- Rows stay in their places, each with its receipt, and others come behind them. -/
  kept : ∀ statements, t.rows.map receiptOf <+: (t.executeAll statements).rows.map receiptOf
  updated : ∀ condition set, Permitted condition set t.rows →
    t.execute (.update condition set) =
      (.ok (t.rows.countP condition), ⟨t.rows.map (rewritten condition set)⟩)
  /-- Wherever the row stands that is not permitted, no row is changed. -/
  refused : ∀ condition set, ¬ Permitted condition set t.rows →
    ∃ refusal, t.execute (.update condition set) = (.error refusal, t)
  undeleted : ∀ condition, (∃ r ∈ t.rows, condition r) →
    t.execute (.delete condition) = (.error .deleted, t)
  unmatched : ∀ condition, (∀ r ∈ t.rows, ¬ condition r) →
    t.execute (.delete condition) = (.ok 0, t)

/-- **The table of events is append-only.** Whatever it holds and whatever statements are run, every
row stays with what it has received; an update that would change a receipt or violate a constraint
anywhere changes nothing, and any other one is carried out; and nothing is deleted. -/
theorem table_appendOnly (t : EventTable) : AppendOnly t where
  kept := executeAll_receipts t
  updated _ _ := execute_update
  refused _ _ := execute_update_refused
  undeleted condition some_row := by
    simp only [execute, List.any_eq_true.mpr some_row, if_true]
  unmatched condition no_row := by
    have none : ¬ t.rows.any condition = true := by
      intro found
      obtain ⟨r, hr, matched⟩ := List.any_eq_true.mp found
      exact no_row r hr matched
    simp only [execute, if_neg none]

end WebSub.Store.EventTable
