import WebSub.Delivery.Pipeline
import WebSub.Proofs.Interleaving.Conduct
import WebSub.Proofs.Store.EventRows

/-!
# The conduct of a delivery

What a delivery asks for at each point, and what it may end with, told by what it has gone through.
-/

namespace WebSub.Delivery

open Interleaving

/-- A delivery, and the verifier that checks it. -/
structure Job where
  verifier : Verifier
  body : List UInt8
  header : Option (List UInt8)

namespace Job

def bare : Job := ⟨⟨none⟩, [], none⟩

def bareRow : Event := .received (.drawn 0) [] (fingerprint []) ⟨0⟩ ⟨0⟩

/-- The delivery passes the check of its signature. -/
def Passes (j : Job) : Prop := j.verifier.verifyHeader j.body j.header = .ok ()

def flow (j : Job) : Flow (Except Error Outcome) := (process j.verifier j.body j.header).run

end Job

/-! ## What a delivery has gone through -/

def note (row : Option Event) : Exchange → Option Event
  | ⟨.events (.insertNew e), .ok _⟩ => some e
  | ⟨.events (.recordOutcome _ o), .ok _⟩ => row.map (·.withOutcome o)
  | _ => row

/-- The row that a delivery has stored, as the delivery left it. -/
def row? (own : List Exchange) : Option Event := own.foldl note none

theorem row?_append (own : List Exchange) (x : Exchange) :
    row? (own ++ [x]) = note (row? own) x := by
  rw [row?, List.foldl_append]
  rfl

def said? (own : List Exchange) : Option (Except (List String) Unit) :=
  own.findSome? fun
    | ⟨.handle _ _, a⟩ => some a
    | _ => none

theorem said?_append (own : List Exchange) (x : Exchange) :
    said? (own ++ [x]) = (said? own).or (said? [x]) :=
  List.findSome?_append

/-- What is to be recorded about a body after the handler has said something or nothing. -/
def verdict? (body : List UInt8) (said : Option (Except (List String) Unit)) :
    Option Event.Outcome :=
  match Feed.decodeBytes body, said with
  | .error e, none => some (.rejected e.message)
  | .ok n, some (.ok ()) => some (.succeeded n.videoId? n.channelId?)
  | .ok n, some (.error causes) => some (.failed (": ".intercalate causes) n.videoId? n.channelId?)
  | _, _ => none

/-! ## What a delivery does next -/

/-- What a delivery may ask for. Its row is stored once, after its identity was drawn; it is handed
on once, and it has no outcome yet when one is recorded. -/
def Job.Asks (j : Job) (own : List Exchange) : Request → Prop
  | .now | .freshId | .count .. => True
  | .events (.insertNew e) =>
    j.Passes ∧ row? own = none ∧ ⟨.freshId, e.id⟩ ∈ own ∧ e.receipt = e ∧ e.rawBody = j.body ∧
      e.contentHash = fingerprint j.body
  | .handle id n =>
    said? own = none ∧ Feed.decodeBytes j.body = .ok n ∧
      ∃ e, row? own = some e ∧ e.receipt = e ∧ e.id = id
  | .events (.recordOutcome id o) =>
    verdict? j.body (said? own) = some o ∧ ∃ e, row? own = some e ∧ e.receipt = e ∧ e.id = id
  | _ => False

/-- What a delivery may end with. -/
def Job.Ends (j : Job) (own : List Exchange) : Except Error Outcome → Prop
  | .error (.signature e) => j.verifier.verifyHeader j.body j.header = .error e
  | .error (.duplicate contentHash) =>
    contentHash = fingerprint j.body ∧ row? own = none ∧
      ∃ e, ⟨.events (.insertNew e), .error .duplicate⟩ ∈ own
  | .error (.persistence f) =>
    (row? own = none ∧ f ≠ .duplicate ∧ ∃ e, ⟨.events (.insertNew e), .error f⟩ ∈ own) ∨
    (∃ e o, row? own = some e ∧ e.receipt = e ∧
      ⟨.events (.recordOutcome e.id o), .error f⟩ ∈ own)
  | .ok _ => ∃ (e : Event) (o : Event.Outcome), row? own = some (e.withOutcome o) ∧
    verdict? j.body (said? own) = some o

def Job.conduct (j : Job) : Conduct (Except Error Outcome) where
  asks own q := own.length < 7 ∧ j.Asks own q
  ends := j.Ends
  breaks _ := False

/-! ## The flow keeps to it -/

variable {j : Job} {own : List Exchange} {e : Event}

theorem keeps_record {o : Event.Outcome} (outcome : Outcome) (stored : row? own = some e)
    (new : e.receipt = e) (verdict : verdict? j.body (said? own) = some o)
    (short : own.length < 6) :
    (do
      let outcome ← (do record e.id o; return outcome : ExceptT Error Flow Outcome)
      Flow.count (counter outcome.label)
      return outcome : ExceptT Error Flow Outcome).run.Keeps j.conduct own := by
  refine keeps_ask ⟨by omega, verdict, e, stored, new, rfl⟩ ?_
  intro a
  cases a with
  | error f =>
    refine Or.inr ⟨e, o, ?_, new, ?_⟩
    · rw [row?_append, stored]
      rfl
    · exact List.mem_append_right own (List.mem_singleton.mpr rfl)
  | ok u =>
    refine keeps_ask ⟨by simp only [List.length_append, List.length_singleton]; omega, trivial⟩ ?_
    intro u'
    refine ⟨e, o, ?_, ?_⟩
    · rw [row?_append, row?_append, stored]
      rfl
    · rw [said?_append, said?_append]
      simpa [said?] using verdict

theorem keeps_digest (stored : row? own = some e) (new : e.receipt = e)
    (silent : said? own = none) (short : own.length < 5) :
    (do
      let outcome ← digest e.id j.body
      Flow.count (counter outcome.label)
      return outcome : ExceptT Error Flow Outcome).run.Keeps j.conduct own := by
  cases read : Feed.decodeBytes j.body with
  | error error =>
    simp only [digest, read]
    refine keeps_record (.malformed e.id error) stored new ?_ (by omega)
    simp only [verdict?, read, silent]
  | ok n =>
    simp only [digest, read]
    refine keeps_ask ⟨by omega, silent, read, e, stored, new, rfl⟩ ?_
    intro a
    have said : said? (own ++ [⟨.handle e.id n, a⟩]) = some a := by
      rw [said?_append, silent]
      rfl
    have kept : row? (own ++ [⟨.handle e.id n, a⟩]) = some e := by
      rw [row?_append, stored]
      rfl
    have short' : (own ++ [(⟨.handle e.id n, a⟩ : Exchange)]).length < 6 := by
      rw [List.length_append, List.length_singleton]
      omega
    cases a with
    | ok u =>
      refine keeps_record (.accepted e.id n) kept new ?_ short'
      simp only [verdict?, read, said]
    | error causes =>
      refine keeps_record (.deferred e.id (": ".intercalate causes)) kept new ?_ short'
      simp only [verdict?, read, said]

theorem Job.keeps (j : Job) : j.flow.Keeps j.conduct [] := by
  unfold Job.flow process
  cases check : j.verifier.verifyHeader j.body j.header with
  | error e =>
    refine keeps_ask ⟨by simp, trivial⟩ ?_
    intro _
    exact check
  | ok u =>
    refine keeps_ask ⟨by simp, trivial⟩ fun t => ?_
    refine keeps_ask ⟨by simp, trivial⟩ fun id => ?_
    refine keeps_ask ⟨by simp, trivial⟩ fun t' => ?_
    refine keeps_ask ⟨by simp, check, rfl, by simp [Event.received], rfl, rfl, rfl⟩ fun a => ?_
    match a with
    | .ok _ => exact keeps_digest rfl rfl rfl (by simp)
    | .error .duplicate =>
      refine keeps_ask ⟨by simp, trivial⟩ fun _ => ?_
      exact ⟨rfl, rfl, .received id j.body (fingerprint j.body) t t', by simp⟩
    | .error .notFound =>
      exact Or.inl ⟨rfl, by simp, .received id j.body (fingerprint j.body) t t', by simp⟩
    | .error (.database detail) =>
      exact Or.inl ⟨rfl, by simp, .received id j.body (fingerprint j.body) t t', by simp⟩

/-! ## What a past tells -/

/-- What holds of all that a delivery can have gone through. -/
structure Job.Sensible (j : Job) (own : List Exchange) : Prop where
  passes : ∀ r, row? own = some r → j.Passes
  body : ∀ r, row? own = some r → r.rawBody = j.body ∧ r.contentHash = fingerprint j.body
  stored : ∀ r, row? own = some r → ∃ a, ⟨.events (.insertNew r.receipt), .ok a⟩ ∈ own
  outcome : ∀ r, row? own = some r → r.receipt = r ∨
    ∃ o, verdict? j.body (said? own) = some o ∧ r.receipt.withOutcome o = r
  said : ∀ a, said? own = some a → ∃ r n, row? own = some r ∧
    Feed.decodeBytes j.body = .ok n ∧ ⟨.handle r.id n, a⟩ ∈ own

theorem sensible_nil (j : Job) : j.Sensible [] := by
  refine ⟨?_, ?_, ?_, ?_, ?_⟩ <;> intro _ h <;> cases h

theorem Job.Sensible.keep {x : Exchange} (h : j.Sensible own) (row : row? (own ++ [x]) = row? own)
    (said : said? (own ++ [x]) = said? own) : j.Sensible (own ++ [x]) where
  passes := by rw [row]; exact h.passes
  body := by rw [row]; exact h.body
  stored := by
    rw [row]
    intro r hr
    obtain ⟨a, ha⟩ := h.stored r hr
    exact ⟨a, List.mem_append_left _ ha⟩
  outcome := by rw [row, said]; exact h.outcome
  said := by
    rw [row, said]
    intro a ha
    obtain ⟨r, n, hr, hn, hx⟩ := h.said a ha
    exact ⟨r, n, hr, hn, List.mem_append_left _ hx⟩

theorem said?_append_other {x : Exchange} (h : ∀ id n a, x ≠ ⟨.handle id n, a⟩) :
    said? (own ++ [x]) = said? own := by
  have none : said? [x] = none := by
    obtain ⟨q, a⟩ := x
    cases q with
    | handle id n => exact absurd rfl (h id n a)
    | _ => rfl
  rw [said?_append, none, Option.or_none]

namespace Job.Sensible

theorem handed {n : Feed.Notification} {a : Except (List String) Unit} (h : j.Sensible own)
    (unsaid : said? own = none) (read : Feed.decodeBytes j.body = .ok n)
    (stored : row? own = some e) (new : e.receipt = e) :
    j.Sensible (own ++ [⟨.handle e.id n, a⟩]) := by
  have row : row? (own ++ [⟨.handle e.id n, a⟩]) = some e := (row?_append _ _).trans stored
  have said : said? (own ++ [⟨.handle e.id n, a⟩]) = some a := by
    rw [said?_append, unsaid]
    rfl
  refine ⟨?_, ?_, ?_, ?_, ?_⟩
  · exact fun _ _ => h.passes e stored
  · intro r hr
    cases row.symm.trans hr
    exact h.body e stored
  · intro r hr
    cases row.symm.trans hr
    obtain ⟨b, hb⟩ := h.stored e stored
    exact ⟨b, List.mem_append_left _ hb⟩
  · intro r hr
    cases row.symm.trans hr
    exact Or.inl new
  · intro b hb
    cases said.symm.trans hb
    exact ⟨e, n, row, read, List.mem_concat_self⟩

theorem inserted {answer : Event} (h : j.Sensible own) (check : j.Passes)
    (none : row? own = none) (new : e.receipt = e) (body : e.rawBody = j.body)
    (hash : e.contentHash = fingerprint j.body) :
    j.Sensible (own ++ [⟨.events (.insertNew e), .ok answer⟩]) := by
  have row : row? (own ++ [⟨.events (.insertNew e), .ok answer⟩]) = some e := row?_append _ _
  refine ⟨?_, ?_, ?_, ?_, ?_⟩
  · exact fun _ _ => check
  · intro r hr
    cases row.symm.trans hr
    exact ⟨body, hash⟩
  · intro r hr
    cases row.symm.trans hr
    rw [new]
    exact ⟨answer, List.mem_concat_self⟩
  · intro r hr
    cases row.symm.trans hr
    exact Or.inl new
  · intro b hb
    rw [said?_append_other (by simp)] at hb
    obtain ⟨r, -, hr, -⟩ := h.said b hb
    cases none.symm.trans hr

theorem recorded {o : Event.Outcome} (h : j.Sensible own)
    (verdict : verdict? j.body (said? own) = some o) (stored : row? own = some e)
    (new : e.receipt = e) : j.Sensible (own ++ [⟨.events (.recordOutcome e.id o), .ok ()⟩]) := by
  have row : row? (own ++ [⟨.events (.recordOutcome e.id o), .ok ()⟩]) =
      some (e.withOutcome o) := by
    rw [row?_append, stored]
    rfl
  have said : said? (own ++ [⟨.events (.recordOutcome e.id o), .ok ()⟩]) = said? own :=
    said?_append_other (by simp)
  refine ⟨?_, ?_, ?_, ?_, ?_⟩
  · exact fun _ _ => h.passes e stored
  · intro r hr
    cases row.symm.trans hr
    exact h.body e stored
  · intro r hr
    cases row.symm.trans hr
    obtain ⟨b, hb⟩ := h.stored e stored
    exact ⟨b, List.mem_append_left _ hb⟩
  · intro r hr
    cases row.symm.trans hr
    rw [said]
    exact Or.inr ⟨o, verdict, by rw [Event.receipt_withOutcome, new]⟩
  · intro b hb
    rw [said] at hb
    obtain ⟨r, n, hr, hn, hx⟩ := h.said b hb
    cases stored.symm.trans hr
    exact ⟨e.withOutcome o, n, row, hn, List.mem_append_left _ hx⟩

theorem step {x : Exchange} (asked : j.Asks own x.request) (h : j.Sensible own) :
    j.Sensible (own ++ [x]) := by
  obtain ⟨q, a⟩ := x
  cases q with
  | now => exact h.keep (row?_append _ _) (said?_append_other (by simp))
  | freshId => exact h.keep (row?_append _ _) (said?_append_other (by simp))
  | count => exact h.keep (row?_append _ _) (said?_append_other (by simp))
  | handle id n =>
    obtain ⟨unsaid, read, e, stored, new, rfl⟩ := asked
    exact h.handed unsaid read stored new
  | events c =>
    cases c with
    | insertNew e =>
      cases a with
      | error f => exact h.keep (row?_append _ _) (said?_append_other (by simp))
      | ok answer =>
        obtain ⟨check, none, -, new, body, hash⟩ := asked
        exact h.inserted check none new body hash
    | recordOutcome id o =>
      cases a with
      | error f => exact h.keep (row?_append _ _) (said?_append_other (by simp))
      | ok u =>
        obtain ⟨verdict, e, stored, new, rfl⟩ := asked
        exact h.recorded verdict stored new
    | find id => exact asked.elim
    | findByHash hash => exact asked.elim
  | subscriptions c => exact asked.elim
  | hub mode r => exact asked.elim
  | hubUnlessStopped r => exact asked.elim
  | stopped => exact asked.elim
  | lockSweeps => exact asked.elim
  | unlockSweeps => exact asked.elim
  | renewAll limit rows => exact asked.elim

end Job.Sensible

theorem row?_isSome_append (own rest : List Exchange) (h : (row? own).isSome) :
    (row? (own ++ rest)).isSome := by
  induction rest generalizing own with
  | nil => rwa [List.append_nil]
  | cons x rest ih =>
    rw [← List.singleton_append, ← List.append_assoc]
    apply ih
    rw [row?_append]
    unfold note
    split
    · rfl
    · rw [Option.isSome_map]
      exact h
    · exact h

end WebSub.Delivery
