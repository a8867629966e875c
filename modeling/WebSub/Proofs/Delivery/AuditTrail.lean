import WebSub.Proofs.Delivery.Ledger
import WebSub.Proofs.Feed.FirstEntry
import WebSub.Proofs.Text.Utf8

/-!
# The audit trail

Each stored row tells what was received and what became of it: nothing yet, or what the decoder and
the handler said about just these bytes.
-/

namespace WebSub

/-- The columns that are written after the receipt. -/
def Event.columns (e : Event) : Event.Outcome :=
  ⟨e.processed, e.processingError, e.videoId, e.channelId⟩

theorem Event.columns_withOutcome (e : Event) (o : Event.Outcome) : (e.withOutcome o).columns = o :=
  rfl

theorem Event.columns_receipt (e : Event) : e.receipt.columns = ⟨false, none, none, none⟩ := rfl

namespace Delivery

open Interleaving
open Store (Distinct)

variable {w : Shared} {ms ms' : List (Move Job)} {s s' : System Job (Except Error Outcome)}
  {m : Move Job} {r : Event}

/-- The handler was called about an event, and this is what it said. -/
def Said (ms : List (Move Job)) (event : Uuid) (n : Feed.Notification)
    (a : Except (List String) Unit) : Prop :=
  ∃ m ∈ ms, m.deed = .answered ⟨.handle event n, a⟩

/-- The delivery that has stored the row is under way, or it could not record the outcome. -/
def Unsettled (ms : List (Move Job)) (s : System Job (Except Error Outcome)) (r : Event) : Prop :=
  ∃ i t a, s.threads[i]? = some t ∧ ⟨.events (.insertNew r.receipt), .ok a⟩ ∈ own ms i ∧
    (t.task.result? = none ∨ ∃ o f, ⟨.events (.recordOutcome r.id o), .error f⟩ ∈ own ms i ∧
      t.task.result? = some (.error (.persistence f)))

/-- What may have become of a stored body. -/
inductive Standing where
  | pending
  | succeeded
  | rejected
  | failed

/-- What the row says, and what is behind it. -/
def Standing.Holds (ms : List (Move Job)) (s : System Job (Except Error Outcome)) (r : Event) :
    Standing → Prop
  | pending => r.columns = ⟨false, none, none, none⟩ ∧ Unsettled ms s r
  | succeeded => ∃ n, Feed.decodeBytes r.rawBody = .ok n ∧
    r.columns = ⟨true, none, n.videoId?, n.channelId?⟩ ∧
    (n.isDeletion = true → r.videoId = none ∧ r.channelId = none) ∧
    ∀ n' a, Said ms r.id n' a ↔ n' = n ∧ a = .ok ()
  | rejected => ∃ e, Feed.decodeBytes r.rawBody = .error e ∧
    r.columns = ⟨true, some e.message, none, none⟩ ∧ ∀ n a, ¬ Said ms r.id n a
  | failed => ∃ n causes, Feed.decodeBytes r.rawBody = .ok n ∧
    r.columns = ⟨false, some (": ".intercalate causes), n.videoId?, n.channelId?⟩ ∧
    ∀ n' a, Said ms r.id n' a ↔ n' = n ∧ a = .error causes

/-! ## What the handler said -/

theorem said_iff (known : Known w) (distinct : Distinct w.events.rows)
    (run : Run Job.flow (.start w) ms s) {i : Nat} {t : Thread Job (Except Error Outcome)}
    (at_i : s.threads[i]? = some t) (row : row? (own ms i) = some r) (n : Feed.Notification)
    (a : Except (List String) Unit) :
    Said ms r.id n a ↔ Feed.decodeBytes r.rawBody = .ok n ∧ said? (own ms i) = some a := by
  have ledger := ledger known distinct run
  have sensible := sensible run at_i
  have body := (sensible.body r row).1
  constructor
  · rintro ⟨m, hm, deed⟩
    obtain ⟨pre, post, split⟩ := List.append_of_mem hm
    obtain ⟨s₁, s₂, first, step, -⟩ := run.split split
    obtain ⟨x, answered⟩ := answered_of_move (orderly first) step
    cases deed.symm.trans answered.deed
    obtain ⟨unsaid, read, e, stored, -, same⟩ := answered.asked
    have path := own_split post answered
    rw [← split] at path
    -- The call was made by the delivery that drew the identity of the row.
    have drawn : ⟨.freshId, r.id⟩ ∈ own ms m.actor.thread := by
      rw [path, ← same, List.append_assoc]
      exact List.mem_append_left _ ((Delivery.ledger known distinct first).named _ e stored)
    have mine := ledger.apart _ _ _ (ledger.named i r row) drawn
    obtain ⟨t', at_m, operation⟩ := thread_of_mem run hm
    rw [← mine, at_i] at at_m
    cases at_m
    refine ⟨by rw [body, operation]; exact read, ?_⟩
    rw [mine, path, said?, List.findSome?_append, List.findSome?_append, ← said?, unsaid]
    rfl
  · rintro ⟨read, said⟩
    obtain ⟨r', n', row', read', call⟩ := sensible.said a said
    cases row.symm.trans row'
    rw [body, read'] at read
    cases read
    obtain ⟨m, hm, -, deed⟩ := mem_past.mp call
    exact ⟨m, hm, deed⟩

/-! ## Where a row stands -/

theorem verdict?_ne_blank {body : List UInt8} {said : Option (Except (List String) Unit)}
    {o : Event.Outcome} (h : verdict? body said = some o) : o ≠ ⟨false, none, none, none⟩ := by
  unfold verdict? at h
  split at h <;> cases h <;> simp [Event.Outcome.rejected, Event.Outcome.succeeded,
    Event.Outcome.failed]

theorem unsettled_of_receipt (run : Run Job.flow (.start w) ms s) {i : Nat}
    {t : Thread Job (Except Error Outcome)} (at_i : s.threads[i]? = some t)
    (row : row? (own ms i) = some r) (blank : r.receipt = r) : Unsettled ms s r := by
  obtain ⟨a, stored⟩ := (sensible run at_i).stored r row
  refine ⟨i, t, a, at_i, stored, ?_⟩
  cases ended : t.task.result? with
  | none => exact Or.inl rfl
  | some result =>
    right
    have ends := (orderly run).ended at_i ended
    match result with
    | .error (.signature e) =>
      have passes := (sensible run at_i).passes r row
      cases passes.symm.trans ends
    | .error (.duplicate contentHash) =>
      obtain ⟨-, none, -⟩ := ends
      cases row.symm.trans none
    | .error (.persistence f) =>
      rcases ends with ⟨none, -⟩ | ⟨e, o, row', -, lost⟩
      · cases row.symm.trans none
      · cases row.symm.trans row'
        exact ⟨o, f, lost, rfl⟩
    | .ok outcome =>
      obtain ⟨e, o, row', verdict⟩ := ends
      cases row.symm.trans row'
      have columns := congrArg Event.columns blank
      rw [Event.columns_receipt, Event.columns_withOutcome] at columns
      exact absurd columns.symm (verdict?_ne_blank verdict)

theorem exists_standing (known : Known w) (distinct : Distinct w.events.rows)
    (run : Run Job.flow (.start w) ms s) {i : Nat} {t : Thread Job (Except Error Outcome)}
    (at_i : s.threads[i]? = some t) (row : row? (own ms i) = some r) :
    ∃ st : Standing, st.Holds ms s r := by
  have said := said_iff known distinct run at_i row
  obtain ⟨body, -⟩ := (sensible run at_i).body r row
  rcases (sensible run at_i).outcome r row with blank | ⟨o, verdict, outcome⟩
  · refine ⟨.pending, ?_, unsettled_of_receipt run at_i row blank⟩
    rw [← blank]
    rfl
  · have columns : r.columns = o := by rw [← outcome]; rfl
    rw [← body] at verdict
    unfold verdict? at verdict
    split at verdict
    case h_1 e read silent =>
      cases verdict
      refine ⟨.rejected, e, read, columns, ?_⟩
      intro n a call
      cases read.symm.trans ((said n a).mp call).1
    case h_2 n read heard =>
      cases verdict
      refine ⟨.succeeded, n, read, columns, ?_, ?_⟩
      · intro deletion
        cases n with
        | entry entry => cases deletion
        | deleted d =>
          exact ⟨congrArg Event.Outcome.videoId columns, congrArg Event.Outcome.channelId columns⟩
      · intro n' a
        rw [said, read, heard]
        constructor
        · rintro ⟨⟨⟩, ⟨⟩⟩
          exact ⟨rfl, rfl⟩
        · rintro ⟨rfl, rfl⟩
          exact ⟨rfl, rfl⟩
    case h_3 n causes read heard =>
      cases verdict
      refine ⟨.failed, n, causes, read, columns, ?_⟩
      intro n' a
      rw [said, read, heard]
      constructor
      · rintro ⟨⟨⟩, ⟨⟩⟩
        exact ⟨rfl, rfl⟩
      · rintro ⟨rfl, rfl⟩
        exact ⟨rfl, rfl⟩
    case h_4 => cases verdict

theorem standing_unique {st st' : Standing} (h : st.Holds ms s r) (h' : st'.Holds ms s r) :
    st = st' := by
  have told : ∀ st : Standing, st.Holds ms s r → (r.processed, r.processingError.isSome) =
      match st with
      | .pending => (false, false)
      | .succeeded => (true, false)
      | .rejected => (true, true)
      | .failed => (false, true) := by
    intro st h
    have of_columns : ∀ o, r.columns = o →
        (r.processed, r.processingError.isSome) = (o.processed, o.error.isSome) := by
      rintro o rfl
      rfl
    cases st with
    | pending => exact of_columns _ h.1
    | succeeded =>
      obtain ⟨n, -, columns, -⟩ := h
      exact of_columns _ columns
    | rejected =>
      obtain ⟨e, -, columns, -⟩ := h
      exact of_columns _ columns
    | failed =>
      obtain ⟨n, causes, -, columns, -⟩ := h
      exact of_columns _ columns
  have both := (told st h).symm.trans (told st' h')
  cases st <;> cases st' <;> first | rfl | cases both

/-! ## What is settled stays -/

theorem settled_append (run : Run Job.flow (.start w) (ms ++ ms') s) {i : Nat}
    {t : Thread Job (Except Error Outcome)} (at_i : s.threads[i]? = some t)
    (row : row? (own ms i) = some r) (settled : r.receipt ≠ r) :
    row? (own (ms ++ ms') i) = some r := by
  apply (orderly run).own_onward (P := fun past => row? past = some r) at_i _ row
    (past_append _ _ _)
  rintro past ⟨q, a⟩ ⟨-, asked⟩ here
  rw [row?_append, here]
  cases q with
  | events c =>
    cases c with
    | insertNew e =>
      obtain ⟨-, none, -⟩ := asked
      cases here.symm.trans none
    | recordOutcome id o =>
      obtain ⟨-, e, stored, new, -⟩ := asked
      cases here.symm.trans stored
      exact absurd new settled
    | find id => exact asked.elim
    | findByHash hash => exact asked.elim
  | _ => rfl

/-! ## The whole -/

/-- A row tells the truth: about what was received, about what became of it, and for good. -/
structure Truthful (ms : List (Move Job)) (s : System Job (Except Error Outcome)) (r : Event) :
    Prop where
  hash : r.contentHash = fingerprint r.rawBody
  /-- The receipt is what a delivery of these bytes has stored. -/
  received : ∃ i t a, s.threads[i]? = some t ∧ t.operation.body = r.rawBody ∧
    ⟨.events (.insertNew r.receipt), .ok a⟩ ∈ own ms i
  standing : ∃! st : Standing, st.Holds ms s r
  /-- The row is never taken away, and what was received never changes. -/
  kept : ∀ ms' s', Run Job.flow s ms' s' → ∃ r' ∈ s'.shared.events.rows, r'.receipt = r.receipt
  /-- Once something has become of the body, the row never changes. -/
  settled : ¬ Standing.pending.Holds ms s r → ∀ ms' s', Run Job.flow s ms' s' →
    r ∈ s'.shared.events.rows

/-- In every state that deliveries reach from an empty store, every row tells the truth. -/
theorem rows_truthful (blank : w.events.rows = []) (run : Run Job.flow (.start w) ms s) :
    ∀ r ∈ s.shared.events.rows, Truthful ms s r := by
  intro r hr
  have distinct : Distinct w.events.rows := by rw [blank]; exact ⟨List.nodup_nil, List.nodup_nil⟩
  have known : Known w := by
    intro r hr
    rw [blank] at hr
    cases hr
  have ledger := ledger known distinct run
  rcases (ledger.rows r).mp hr with old | ⟨i, row⟩
  · rw [blank] at old
    cases old
  · have drawn := ledger.named i r row
    obtain ⟨t, at_i⟩ := thread_of_own run drawn
    have sensible := sensible run at_i
    obtain ⟨body, hash⟩ := sensible.body r row
    obtain ⟨a, stored⟩ := sensible.stored r row
    refine ⟨by rw [hash, body], ⟨i, t, a, at_i, body.symm, stored⟩, ?_, ?_, ?_⟩
    · obtain ⟨st, holds⟩ := exists_standing known distinct run at_i row
      exact ⟨st, holds, fun st' holds' => standing_unique holds' holds⟩
    · intro ms' s' more
      exact (appendOnly more ledger.distinct).2 r hr
    · intro unpending ms' s' more
      have both := run.trans more
      have settled : r.receipt ≠ r := by
        intro blank
        refine unpending ⟨?_, unsettled_of_receipt run at_i row blank⟩
        rw [← blank]
        rfl
      have drawn' : ⟨.freshId, r.id⟩ ∈ own (ms ++ ms') i := by
        rw [own, past_append]
        exact List.mem_append_left _ drawn
      obtain ⟨t', at_i'⟩ := thread_of_own both drawn'
      exact (Delivery.ledger known distinct both).mem_rows (settled_append both at_i' row settled)

/-! ## A delivery to its end -/

theorem Job.flow_of_decoded {j : Job} {n : Feed.Notification} (passes : j.Passes)
    (read : Feed.decodeBytes j.body = .ok n) : j.flow = (do
      let e ← insert j.body
      let outcome ← handOff e.id n
      Flow.count (counter outcome.label)
      return outcome : ExceptT Error Flow Outcome).run := by
  unfold Job.flow process
  rw [show j.verifier.verifyHeader j.body j.header = _ from passes]
  simp only [digest, read]

/-- The record of a body that is the first one to come, before anything has become of it. -/
def firstRow (body : List UInt8) : Event := .received (.drawn 0) body (fingerprint body) ⟨0⟩ ⟨0⟩

/-- That record once the handler has taken what the body says. -/
def takenRow (body : List UInt8) (n : Feed.Notification) : Event :=
  (firstRow body).withOutcome ⟨true, none, n.videoId?, n.channelId?⟩

theorem Job.run_taken {body : List UInt8} {n : Feed.Notification}
    (read : Feed.decodeBytes body = .ok n) : ∃ ms s, Run Job.flow (.start .empty) ms s ∧
      s.threads.map (·.task.result?) = [some (.ok (.accepted (.drawn 0) n))] ∧
      s.shared.events.rows = [takenRow body n] := by
  have r : Run Job.flow (.start .empty) [] (.start .empty) := .start
  have r := r.quiet (.begin _ ⟨⟨none⟩, body, none⟩)
  rw [Job.flow_of_decoded (j := ⟨⟨none⟩, body, none⟩) rfl read] at r
  have r := r.move (Step.read (i := 0) rfl)
  have r := r.move (Step.draw (i := 0) rfl (.drawn 0) List.not_mem_nil)
  have r := r.move (Step.read (i := 0) rfl)
  have r : Run Job.flow (.start .empty) _
      ⟨⟨.table {}, .table ⟨[firstRow body]⟩, [.drawn 0], [], false, false⟩, _⟩ :=
    r.move (Step.answer (i := 0) rfl _ (by exact Or.inl ⟨rfl, rfl⟩) id False.elim)
  have r := r.move (Step.answer (i := 0) rfl (.ok () : Except (List String) Unit) (by exact rfl) id
    False.elim)
  have one : Distinct [firstRow body] := ⟨List.nodup_singleton _, List.nodup_singleton _⟩
  obtain ⟨answer, rows, -⟩ := (Store.Events.answer_recordOutcome (s := .table ⟨[firstRow body]⟩) one
    (.drawn 0) ⟨true, none, n.videoId?, n.channelId?⟩).resolve_right
      fun missing => missing.2.2 _ (List.mem_singleton.mpr rfl) rfl
  have r := r.move (Step.answer (i := 0) rfl (.ok () : Except Store.Error Unit)
    (by exact Or.inl ⟨answer.symm, rfl⟩) id False.elim)
  have r := r.move (Step.answer (i := 0) rfl () (by exact rfl) id False.elim)
  exact ⟨_, _, r, rfl, rows⟩

def videoBody : List UInt8 := Utf8.encode Feed.sampleVideo.write

theorem decode_videoBody : ∃ e, Feed.decodeBytes videoBody = .ok (.entry e) := by
  obtain ⟨e, told⟩ := Feed.decode_sampleVideo
  rw [Feed.decodeBytes, videoBody, Utf8.decode?_eq_some_iff.mpr rfl]
  exact ⟨e, told⟩

/-- A video is delivered, and the handler takes it. -/
theorem rows_truthful_video :
    ∃ ms s e, Run Job.flow (.start .empty) ms s ∧ Shared.empty.events.rows = [] ∧
      Feed.decodeBytes videoBody = .ok (.entry e) ∧
      s.threads.map (·.task.result?) = [some (.ok (.accepted (.drawn 0) (.entry e)))] ∧
      s.shared.events.rows = [takenRow videoBody (.entry e)] ∧
      Truthful ms s (takenRow videoBody (.entry e)) ∧
      Standing.succeeded.Holds ms s (takenRow videoBody (.entry e)) := by
  obtain ⟨e, read⟩ := decode_videoBody
  obtain ⟨ms, s, r, results, rows⟩ := Job.run_taken read
  have truthful := rows_truthful rfl r (takenRow videoBody (.entry e)) (by simp [rows])
  refine ⟨ms, s, e, r, rfl, read, results, rows, truthful, ?_⟩
  obtain ⟨st, holds, -⟩ := truthful.standing
  cases st with
  | succeeded => exact holds
  | pending => cases holds.1
  | rejected =>
    obtain ⟨error, told, -⟩ := holds
    cases read.symm.trans told
  | failed =>
    obtain ⟨n, causes, -, columns, -⟩ := holds
    cases columns

end Delivery

end WebSub
