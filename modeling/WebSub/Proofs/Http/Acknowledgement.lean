import WebSub.Http.Endpoint
import WebSub.Proofs.Delivery.AuditTrail
import WebSub.Proofs.Delivery.Processing

/-!
# How deliveries are acknowledged

The answer to a delivery tells what became of it: whether it was trusted, whether it could be
recorded, whether its content was new, whether it could be read, and whether it was handed on.
-/

namespace WebSub

open Interleaving
open Store (Distinct)

namespace Http

open Delivery (Surroundings Stored Untouched Processed Settled Known)

/-- What an answer calls the outcome of a delivery. -/
def Response.outcome? (a : Response) : Option String :=
  match a.body with
  | .json (.object members) =>
    match members.lookup "status" with
    | some (.str outcome) => some outcome
    | _ => none
  | _ => none

/-- What is answered to a body whose record is the new row. -/
def Describes (s : Surroundings) (body : List UInt8) (w w' : Shared) (row : Event)
    (a : Response) : Prop :=
  match Feed.decodeBytes body with
  | .error e =>
    w'.handled = w.handled ∧
    a = .json 200 (.object [("status", .str "malformed"), ("event_id", .str row.id.toText),
      ("error", .str e.message), ("field", Json.optional (fun f => .str f.name) e.field?)])
  | .ok n =>
    w'.handled = w.handled ++ [(row.id, n)] ∧
    match s.handler row.id n with
    | .error _ =>
      a = .json 200 (.object [("status", .str "deferred"), ("event_id", .str row.id.toText)])
    | .ok () =>
      a = .json 200 (.object [("status", .str "accepted"), ("event_id", .str row.id.toText)])

/-- The handler was given the body's content and could not do anything with it. -/
def HandlerFailed (s : Surroundings) (w w' : Shared) : Prop :=
  ∃ id n causes, w'.handled = w.handled ++ [(id, n)] ∧ s.handler id n = .error causes

/-- The answer to a delivery tells what became of it. -/
structure Reported (s : Surroundings) (v : Verifier) (body : List UInt8)
    (header : Option (List UInt8)) (w w' : Shared) (a : Response) : Prop where
  unauthorized : a.status = 401 ↔ ∃ e, v.verifyHeader body header = .error e
  /-- A body that is not trusted is neither read nor stored. -/
  untouched : ∀ e, v.verifyHeader body header = .error e →
    a = .problem 401 (Delivery.Error.signature e).message ∧ w' = w
  failed : a.status = 500 ↔ v.verifyHeader body header = .ok () ∧ s.Fails w body
  refused : v.verifyHeader body header = .ok () → s.Refuses → Untouched w w'
  /-- Neither what cannot be read nor what cannot be handed on nor what is known is a failure. -/
  acknowledged : a.status = 200 ↔ v.verifyHeader body header = .ok () ∧ ¬ s.Fails w body
  duplicate : a.outcome? = some "duplicate" ↔ a.status = 200 ∧ s.Repeats w body
  repeated : a.outcome? = some "duplicate" → Untouched w w'
  malformed : a.outcome? = some "malformed" ↔ a.status = 200 ∧ ¬ s.Repeats w body ∧
    ∃ e, Feed.decodeBytes body = .error e
  deferred : a.outcome? = some "deferred" ↔ a.status = 200 ∧ ¬ s.Repeats w body ∧
    (∃ n, Feed.decodeBytes body = .ok n) ∧ HandlerFailed s w w'
  accepted : a.outcome? = some "accepted" ↔ a.status = 200 ∧ ¬ s.Repeats w body ∧
    (∃ n, Feed.decodeBytes body = .ok n) ∧ ¬ HandlerFailed s w w'
  /-- A new body has one new row, and the answer names it. -/
  new : a.status = 200 → ¬ s.Repeats w body → ∃ row, w'.events.rows = w.events.rows ++ [row] ∧
    row.rawBody = body ∧ row.contentHash = fingerprint body ∧ Describes s body w w' row a

/-! ## Reading the answers -/

@[simp] theorem status_json (n : Nat) (v : Json) : (Response.json n v).status = n := rfl

@[simp] theorem status_problem (n : Nat) (message : String) :
    (Response.problem n message).status = n := rfl

@[simp] theorem outcome?_problem (n : Nat) (message : String) :
    (Response.problem n message).outcome? = none := rfl

@[simp] theorem outcome?_json (n : Nat) (outcome : String) (rest : List (String × Json)) :
    (Response.json n (.object (("status", .str outcome) :: rest))).outcome? = some outcome := by
  simp [Response.outcome?, Response.json]

@[simp] theorem outcome?_outcomeJson (n : Nat) (outcome : Delivery.Outcome) :
    (Response.json n (outcomeJson outcome)).outcome? = some outcome.label := by
  cases outcome <;> exact outcome?_json ..

section
variable {s : Surroundings} {v : Verifier} {body : List UInt8} {header : Option (List UInt8)}
  {w w' : Shared} {e : Event} {o : Event.Outcome}

theorem reported_untrusted {error : SignatureError}
    (check : v.verifyHeader body header = .error error) :
    Reported s v body header w w (.problem 401 (Delivery.Error.signature error).message) := by
  constructor <;> simp [check]

theorem exists_row {a : Response} (settled : Settled s w body w' e o)
    (describes : Describes s body w w' (e.withOutcome o) a) :
    ∃ row, w'.events.rows = w.events.rows ++ [row] ∧ row.rawBody = body ∧
      row.contentHash = fingerprint body ∧ Describes s body w w' row a :=
  ⟨e.withOutcome o, settled.rows, settled.records.raw, settled.records.hash, describes⟩

variable (trusted : v.verifyHeader body header = .ok ())
include trusted

theorem reported_failure {f : Store.Error} (fails : s.Fails w body)
    (refused : s.Refuses → Untouched w w') :
    Reported s v body header w w' (.problem 500 (Delivery.Error.persistence f).message) := by
  constructor <;> simp [trusted, fails]
  exact refused

theorem reported_duplicate (accepted : ¬ s.Refuses) (again : s.Repeats w body)
    (same : Untouched w w') :
    Reported s v body header w w' (.json 200 (.object [("status", .str "duplicate")])) := by
  have sound : ¬ s.Fails w body := by simp [Surroundings.Fails, accepted, again]
  constructor <;> simp [trusted, sound, again, same]

theorem reported_malformed {error : Feed.DecodeError}
    (settled : Settled s w body w' e (.rejected error.message))
    (read : Feed.decodeBytes body = .error error) (handled : w'.handled = w.handled) :
    Reported s v body header w w' (.json 200 (outcomeJson (.malformed e.id error))) := by
  have row := exists_row settled (a := .json 200 (outcomeJson (.malformed e.id error)))
    (by simp only [Describes, read]; exact ⟨handled, rfl⟩)
  constructor <;> simp [trusted, settled.not_fails, settled.not_repeats, settled.not_refuses, read,
    Delivery.Outcome.label, row]

theorem reported_deferred {n : Feed.Notification} {causes : List String} {why : String}
    (settled : Settled s w body w' e (.failed why n.videoId? n.channelId?))
    (read : Feed.decodeBytes body = .ok n) (said : s.handler e.id n = .error causes)
    (handled : w'.handled = w.handled ++ [(e.id, n)]) :
    Reported s v body header w w' (.json 200 (outcomeJson (.deferred e.id why))) := by
  have failed : HandlerFailed s w w' := ⟨e.id, n, causes, handled, said⟩
  have row := exists_row settled (a := .json 200 (outcomeJson (.deferred e.id why)))
    (by simp only [Describes, read]; exact ⟨handled, by simp only [Event.withOutcome, said]; rfl⟩)
  constructor <;> simp [trusted, settled.not_fails, settled.not_repeats, settled.not_refuses, read,
    Delivery.Outcome.label, failed, row]

theorem reported_accepted {n : Feed.Notification}
    (settled : Settled s w body w' e (.succeeded n.videoId? n.channelId?))
    (read : Feed.decodeBytes body = .ok n) (said : s.handler e.id n = .ok ())
    (handled : w'.handled = w.handled ++ [(e.id, n)]) :
    Reported s v body header w w' (.json 200 (outcomeJson (.accepted e.id n))) := by
  have handedOn : ¬ HandlerFailed s w w' := by
    rintro ⟨id, n', causes, handled', said'⟩
    cases List.append_cancel_left (handled.symm.trans handled')
    cases said.symm.trans said'
  have row := exists_row settled (a := .json 200 (outcomeJson (.accepted e.id n)))
    (by simp only [Describes, read]; exact ⟨handled, by simp only [Event.withOutcome, said]; rfl⟩)
  constructor <;> simp [trusted, settled.not_fails, settled.not_repeats, settled.not_refuses, read,
    Delivery.Outcome.label, handedOn, row]

end

/-- The answer to a delivery reports exactly what happened, for every secret and header, every
content of the store that it can have, every way in which the store fails, and every handler: it is
unauthorized exactly if the signature is refused, and then nothing is read, stored or handed on; it
is a failure exactly if the body or what became of it cannot be written down; and else it is an
acknowledgement that tells whether the content was known, unreadable, not handed on or accepted. -/
theorem receive_reports (app : App) (r : Request) (s : Surroundings) (w : Shared)
    (fits : r.body.length ≤ maxBody) (known : Known w) (distinct : Distinct w.events.rows)
    (left : ∃ id, id ∉ w.drawn) :
    (receive app r).Ensures s.Answers w
      (Reported s app.verifier r.body (r.header? signatureHeader) w) := by
  unfold receive
  rw [if_neg (Nat.not_lt.mpr fits)]
  cases check : app.verifier.verifyHeader r.body (r.header? signatureHeader) with
  | error e =>
    unfold Delivery.process
    rw [check]
    exact Delivery.ensures_count (reported_untrusted check)
  | ok u =>
    refine (Delivery.ensures_process known distinct left check).bind ?_
    intro w' x processed
    cases processed with
    | refused fault other same =>
      exact reported_failure check (.inl ⟨_, fault, other⟩) fun _ => same
    | repeated accepted again same => exact reported_duplicate check accepted again same
    | lost sound new fault =>
      refine reported_failure check (.inr ⟨?_, ?_⟩) ?_
      · simp [Surroundings.Repeats, sound, new]
      · simp [fault]
      · simp [Surroundings.Refuses, sound]
    | malformed settled read handled => exact reported_malformed check settled read handled
    | deferred settled read said handled =>
      exact reported_deferred check settled read said handled
    | accepted settled read said handled =>
      exact reported_accepted check settled read said handled

/-- A video that is known already, delivered to a service that checks no signature while the store
can write down no outcome and the handler fails. -/
theorem receive_reports_known :
    let app : App := ⟨⟨"https://hub", "https://me/websub", none, 432000, 864000⟩, ⟨none⟩,
      ⟨3600, 24, 10, 2⟩, "/websub"⟩
    let r : Request := ⟨"POST", "/websub", [("X-Hub-Signature", [0x73])], Delivery.videoBody⟩
    let s : Surroundings := ⟨none, some (.database "disk"), fun _ _ => .error ["queue full"]⟩
    let w : Shared := { Shared.empty with
      events := .table ⟨[Delivery.firstRow Delivery.videoBody]⟩, drawn := [.drawn 0] }
    r.body.length ≤ maxBody ∧ Known w ∧ Distinct w.events.rows ∧ (∃ id, id ∉ w.drawn) ∧
      (receive app r).Ensures s.Answers w fun w' a =>
        Reported s app.verifier r.body (r.header? signatureHeader) w w' a ∧
        a.status = 200 ∧ a.outcome? = some "duplicate" ∧ w'.events.rows = w.events.rows := by
  have fits : Delivery.videoBody.length ≤ maxBody := by decide +kernel
  -- From here on the body is any that is short enough.
  generalize Delivery.videoBody = body at fits ⊢
  intro app r s w
  have known : Known w := by
    intro row hrow
    rw [List.mem_singleton.mp hrow]
    exact List.mem_singleton.mpr rfl
  have distinct : Distinct w.events.rows := ⟨List.nodup_singleton _, List.nodup_singleton _⟩
  have left : ∃ id, id ∉ w.drawn := ⟨.drawn 1, fun drawn => by cases List.mem_singleton.mp drawn⟩
  have stored : s.Repeats w body := .inl ⟨_, List.mem_singleton.mpr rfl, rfl⟩
  have sound : ¬ s.Fails w body := by
    rintro (⟨f, fault, -⟩ | ⟨new, -⟩)
    · cases fault
    · exact new stored
  refine ⟨fits, known, distinct, left, ?_⟩
  have reports := receive_reports app r s w fits known distinct left
  refine Flow.Ensures.weaken reports fun w' a reported => ?_
  have status : a.status = 200 := reported.acknowledged.mpr ⟨rfl, sound⟩
  have outcome : a.outcome? = some "duplicate" := reported.duplicate.mpr ⟨status, stored⟩
  exact ⟨reported, status, outcome, congrArg _ (reported.repeated outcome).1⟩

end Http

end WebSub
