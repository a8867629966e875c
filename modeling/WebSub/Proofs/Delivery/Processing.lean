import WebSub.Proofs.Delivery.Ledger
import WebSub.Proofs.Flow.Alone

/-!
# What processing a delivery comes to

A delivery alone, on any store of events that may fail at either of its two writes, and with any
handler: it ends, and how it ends is told by the store, the fault, the body and the handler.
-/

namespace WebSub

open Interleaving
open Store (Distinct recorded)

namespace Delivery

/-! ## Surroundings -/

/-- How the store of events fails, and what the handler says, while a delivery is processed. -/
structure Surroundings where
  insertFault : Option Store.Error
  recordFault : Option Store.Error
  handler : Uuid → Feed.Notification → Except (List String) Unit

namespace Surroundings

variable (s : Surroundings)

def fault? : Store.EventCall → Option Store.Error
  | .insertNew _ => s.insertFault
  | .recordOutcome .. => s.recordFault
  | .find _ | .findByHash _ => none

/-- A call that is to fail does so without effect, and the store answers any other one. -/
def call (w : Shared) (c : Store.EventCall) : c.Answer × Shared :=
  match s.fault? c with
  | some f => (.error f, w)
  | none => ((w.events.answer c).1, { w with events := (w.events.answer c).2 })

/-- Beside the store of events and the handler, anything may be answered that ever is. -/
def Answers (w w' : Shared) : (q : Request) → q.Answer → Prop
  | .events c, a => (a, w') = s.call w c
  | .handle event n, a =>
    (a, w') = (s.handler event n, { w with handled := w.handled ++ [(event, n)] })
  | q, a => w.Answers w' q a

/-- The body cannot be stored. -/
def Refuses : Prop := ∃ f, s.insertFault = some f ∧ f ≠ .duplicate

end Surroundings

/-- A record of the same content is stored already. -/
def Stored (w : Shared) (body : List UInt8) : Prop :=
  ∃ r ∈ w.events.rows, r.contentHash = fingerprint body

namespace Surroundings

/-- The content is known. A store that fails with the words that the record exists is believed. -/
def Repeats (s : Surroundings) (w : Shared) (body : List UInt8) : Prop :=
  Stored w body ∨ s.insertFault = some .duplicate

/-- The body cannot be stored, or it is stored and what became of it cannot be written down. -/
def Fails (s : Surroundings) (w : Shared) (body : List UInt8) : Prop :=
  s.Refuses ∨ (¬ s.Repeats w body ∧ s.recordFault ≠ none)

end Surroundings

variable {s : Surroundings} {w w' : Shared} {body : List UInt8} {e : Event}

def Untouched (w w' : Shared) : Prop := w'.events = w.events ∧ w'.handled = w.handled

/-- The record of a new body. -/
structure Records (w : Shared) (body : List UInt8) (e : Event) : Prop where
  receipt : e.receipt = e
  raw : e.rawBody = body
  hash : e.contentHash = fingerprint body
  fresh : ∀ r ∈ w.events.rows, r.id ≠ e.id
  new : ¬ Stored w body

theorem Records.unlike (h : Records w body e) :
    ∀ r ∈ w.events.rows, r.id ≠ e.id ∧ r.contentHash ≠ e.contentHash := by
  intro r hr
  refine ⟨h.fresh r hr, ?_⟩
  intro same
  exact h.new ⟨r, hr, same.trans h.hash⟩

/-! ## Single requests -/

variable {α : Type} {good : Shared → α → Prop}

theorem ensures_events {c : Store.EventCall} {next : c.Answer → Flow α}
    (h : (next (s.call w c).1).Ensures s.Answers (s.call w c).2 good) :
    (Flow.ask (.events c) next).Ensures s.Answers w good := by
  refine ⟨⟨_, _, rfl⟩, ?_⟩
  intro w' a answer
  obtain ⟨rfl, rfl⟩ := Prod.mk.inj answer
  exact h

theorem ensures_handle {id : Uuid} {n : Feed.Notification}
    {next : Except (List String) Unit → Flow α}
    (h : (next (s.handler id n)).Ensures s.Answers
      { w with handled := w.handled ++ [(id, n)] } good) :
    (Flow.ask (.handle id n) next).Ensures s.Answers w good := by
  refine ⟨⟨_, _, rfl⟩, ?_⟩
  intro w' a answer
  obtain ⟨rfl, rfl⟩ := Prod.mk.inj answer
  exact h

theorem ensures_now {next : Instant → Flow α}
    (h : ∀ t, (next t).Ensures s.Answers w good) :
    (Flow.ask .now next).Ensures s.Answers w good := by
  refine ⟨⟨w, ⟨0⟩, isReading_epoch, rfl⟩, ?_⟩
  rintro w' t ⟨-, rfl⟩
  exact h t

theorem ensures_count {m : Metric} {next : Unit → Flow α}
    (h : (next ()).Ensures s.Answers w good) :
    (Flow.ask (.count m 1) next).Ensures s.Answers w good := by
  refine ⟨⟨w, (), rfl⟩, ?_⟩
  intro w' u same
  rw [show w' = w from same]
  exact h

theorem ensures_freshId {next : Uuid → Flow α} (left : ∃ id, id ∉ w.drawn)
    (h : ∀ id, id ∉ w.drawn →
      (next id).Ensures s.Answers { w with drawn := w.drawn ++ [id] } good) :
    (Flow.ask .freshId next).Ensures s.Answers w good := by
  obtain ⟨id, new⟩ := left
  refine ⟨⟨_, id, new, rfl⟩, ?_⟩
  rintro w' id' ⟨new', rfl⟩
  exact h id' new'

/-! ## Storing a body -/

/-- What storing a body comes to. -/
inductive Inserted (s : Surroundings) (w : Shared) (body : List UInt8) (w' : Shared) :
    Except Error Event → Prop
  | refused {f : Store.Error} (fault : s.insertFault = some f) (other : f ≠ .duplicate)
      (same : Untouched w w') : Inserted s w body w' (.error (.persistence f))
  | repeated (accepted : ¬ s.Refuses) (again : s.Repeats w body) (same : Untouched w w') :
      Inserted s w body w' (.error (.duplicate (fingerprint body)))
  | stored {e : Event} (sound : s.insertFault = none) (records : Records w body e)
      (rows : w'.events.rows = w.events.rows ++ [e]) (handled : w'.handled = w.handled) :
      Inserted s w body w' (.ok e)

theorem ensures_insert (known : Known w) (left : ∃ id, id ∉ w.drawn) :
    Flow.Ensures s.Answers (insert body).run w (Inserted s w body) := by
  refine ensures_now fun receivedAt => ensures_freshId left fun id new => ?_
  refine ensures_now fun createdAt => ensures_events ?_
  have fresh : ∀ r ∈ w.events.rows, r.id ≠ id := by
    intro r hr same
    exact new (same ▸ known r hr)
  cases fault : s.insertFault with
  | some f =>
    simp only [Surroundings.call, Surroundings.fault?, fault]
    cases f with
    | duplicate =>
      have accepted : ¬ s.Refuses := by simp [Surroundings.Refuses, fault]
      exact ensures_count (.repeated accepted (.inr fault) ⟨rfl, rfl⟩)
    | notFound => exact .refused fault (by simp) ⟨rfl, rfl⟩
    | database detail => exact .refused fault (by simp) ⟨rfl, rfl⟩
  | none =>
    simp only [Surroundings.call, Surroundings.fault?, fault]
    rcases Store.Events.answer_insertNew w.events
      (.received id body (fingerprint body) receivedAt createdAt) with
      ⟨refused, r, hr, clash⟩ | ⟨answer, rows, apart⟩
    · have again : Stored w body := by
        rcases clash with same | same
        · exact absurd same (fresh r hr)
        · exact ⟨r, hr, same⟩
      have accepted : ¬ s.Refuses := by simp [Surroundings.Refuses, fault]
      rw [refused]
      exact ensures_count (.repeated accepted (.inl again) ⟨rfl, rfl⟩)
    · have new : ¬ Stored w body := fun ⟨r, hr, same⟩ => (apart r hr).2 same
      simp only [answer]
      exact .stored fault ⟨rfl, rfl, rfl, fresh, new⟩ rows rfl

/-! ## Recording what became of it -/

/-- A new body was stored, and this is written down as what became of it. -/
structure Settled (s : Surroundings) (w : Shared) (body : List UInt8) (w' : Shared) (e : Event)
    (o : Event.Outcome) : Prop where
  sound : s.insertFault = none
  recorded : s.recordFault = none
  records : Records w body e
  rows : w'.events.rows = w.events.rows ++ [e.withOutcome o]

/-- What a trusted body comes to. -/
inductive Processed (s : Surroundings) (w : Shared) (body : List UInt8) (w' : Shared) :
    Except Error Outcome → Prop
  | refused {f : Store.Error} (fault : s.insertFault = some f) (other : f ≠ .duplicate)
      (same : Untouched w w') : Processed s w body w' (.error (.persistence f))
  | repeated (accepted : ¬ s.Refuses) (again : s.Repeats w body) (same : Untouched w w') :
      Processed s w body w' (.error (.duplicate (fingerprint body)))
  | lost {f : Store.Error} (sound : s.insertFault = none) (new : ¬ Stored w body)
      (fault : s.recordFault = some f) : Processed s w body w' (.error (.persistence f))
  | malformed {e : Event} {error : Feed.DecodeError}
      (settled : Settled s w body w' e (.rejected error.message))
      (read : Feed.decodeBytes body = .error error) (handled : w'.handled = w.handled) :
      Processed s w body w' (.ok (.malformed e.id error))
  | deferred {e : Event} {n : Feed.Notification} {causes : List String}
      (settled : Settled s w body w' e
        (.failed (": ".intercalate causes) n.videoId? n.channelId?))
      (read : Feed.decodeBytes body = .ok n) (said : s.handler e.id n = .error causes)
      (handled : w'.handled = w.handled ++ [(e.id, n)]) :
      Processed s w body w' (.ok (.deferred e.id (": ".intercalate causes)))
  | accepted {e : Event} {n : Feed.Notification}
      (settled : Settled s w body w' e (.succeeded n.videoId? n.channelId?))
      (read : Feed.decodeBytes body = .ok n) (said : s.handler e.id n = .ok ())
      (handled : w'.handled = w.handled ++ [(e.id, n)]) :
      Processed s w body w' (.ok (.accepted e.id n))

theorem Settled.not_fails {o : Event.Outcome} (h : Settled s w body w' e o) :
    ¬ s.Fails w body := by
  simp [Surroundings.Fails, Surroundings.Refuses, h.sound, h.recorded]

theorem Settled.not_refuses {o : Event.Outcome} (h : Settled s w body w' e o) : ¬ s.Refuses := by
  simp [Surroundings.Refuses, h.sound]

theorem Settled.not_repeats {o : Event.Outcome} (h : Settled s w body w' e o) :
    ¬ s.Repeats w body := by
  simp [Surroundings.Repeats, h.sound, h.records.new]

theorem map_recorded (h : Records w body e) (o : Event.Outcome) :
    (w.events.rows ++ [e]).map (recorded e.id o) = w.events.rows ++ [e.withOutcome o] := by
  -- The last row is the only one with its identity.
  rw [List.map_append, Store.map_recorded_of_ne h.fresh]
  simp [recorded]

section
variable {w₀ : Shared} {o : Event.Outcome} (distinct : Distinct w₀.events.rows)
  (sound : s.insertFault = none) (records : Records w₀ body e)
  (rows : w.events.rows = w₀.events.rows ++ [e])
include distinct sound records rows

theorem ensures_record (outcome : Outcome)
    (settled : ∀ w', Settled s w₀ body w' e o → w'.handled = w.handled →
      Processed s w₀ body w' (.ok outcome)) :
    Flow.Ensures s.Answers (do
      let outcome ← (do record e.id o; return outcome : ExceptT Error Flow Outcome)
      Flow.count (counter outcome.label)
      return outcome : ExceptT Error Flow Outcome).run w (Processed s w₀ body) := by
  refine ensures_events ?_
  cases fault : s.recordFault with
  | some f =>
    simp only [Surroundings.call, Surroundings.fault?, fault]
    exact .lost sound records.new fault
  | none =>
    simp only [Surroundings.call, Surroundings.fault?, fault]
    have apart : Distinct w.events.rows := by
      rw [rows]
      exact distinct.append records.unlike
    rcases Store.Events.answer_recordOutcome apart e.id o with ⟨answer, after, -⟩ | ⟨-, -, absent⟩
    · simp only [answer]
      refine ensures_count (settled _ ⟨sound, fault, records, ?_⟩ rfl)
      rw [after, rows, map_recorded records]
    · have mem : e ∈ w.events.rows := by
        rw [rows]
        exact List.mem_concat_self
      exact absurd rfl (absent e mem)

theorem ensures_digest (handled : w.handled = w₀.handled) :
    Flow.Ensures s.Answers (do
      let outcome ← digest e.id body
      Flow.count (counter outcome.label)
      return outcome : ExceptT Error Flow Outcome).run w (Processed s w₀ body) := by
  cases read : Feed.decodeBytes body with
  | error error =>
    simp only [digest, read]
    refine ensures_record distinct sound records rows (.malformed e.id error) ?_
    intro w' settled same
    exact .malformed settled read (same.trans handled)
  | ok n =>
    simp only [digest, read]
    refine ensures_handle ?_
    have rows' : { w with handled := w.handled ++ [(e.id, n)] }.events.rows =
      w₀.events.rows ++ [e] := rows
    cases said : s.handler e.id n with
    | ok u =>
      refine ensures_record distinct sound records rows' (.accepted e.id n) ?_
      intro w' settled same
      exact .accepted settled read said (same.trans (by rw [handled]))
    | error causes =>
      refine ensures_record distinct sound records rows' (.deferred e.id _) ?_
      intro w' settled same
      exact .deferred settled read said (same.trans (by rw [handled]))

end

/-- A trusted body is stored, read, handed on and settled as far as it gets. -/
theorem ensures_process {v : Verifier} {header : Option (List UInt8)} (known : Known w)
    (distinct : Distinct w.events.rows) (left : ∃ id, id ∉ w.drawn)
    (trusted : v.verifyHeader body header = .ok ()) :
    Flow.Ensures s.Answers (process v body header).run w (Processed s w body) := by
  unfold process
  rw [trusted]
  refine (ensures_insert known left).run_bind ?_ ?_
  · intro w' error inserted
    cases inserted with
    | refused fault other same => exact .refused fault other same
    | repeated accepted again same => exact .repeated accepted again same
  · intro w' e inserted
    cases inserted with
    | stored sound records rows handled =>
      exact ensures_digest distinct sound records rows handled

end Delivery

end WebSub
