import Mathlib.Control.Monad.Basic
import WebSub.Proofs.Http.Redirects
import WebSub.Proofs.Hub.Client
import WebSub.Proofs.Text.Charset

/-!
# What comes of a request to a hub

A lease out of bounds is refused without a request. Any other one is answered in the end or not, and
that alone, with the status of the answer, decides what the caller is told and what is counted; the
body of the answer may name a lease, and nothing more.
-/

namespace WebSub

namespace Http.Answer

variable {a : Answer}

theorem isSuccess_iff : a.isSuccess = true ↔ 200 ≤ a.status ∧ a.status ≤ 299 := by
  rw [isSuccess, Bool.and_eq_true, decide_eq_true_iff, decide_eq_true_iff]

theorem text_of_unread (charsets : Charset.Library) (unread : a.received? = none) :
    a.text charsets = [] := by
  rw [text, unread]

/-- The body arrives, in UTF-8 as far as is announced, and is the text without a mark before it. -/
structure Says (charsets : Charset.Library) (a : Answer) (text : List Char) : Prop where
  charset : a.charset charsets = .utf8
  received : a.received? = some (Utf8.encode text)
  unmarked : text.head? ≠ some '\uFEFF'

theorem Says.text_eq {charsets : Charset.Library} {text : List Char} (h : a.Says charsets text) :
    a.text charsets = text := by
  rw [Answer.text, h.received, h.charset]
  exact Charset.utf8_decode_encode h.unmarked

end Http.Answer

namespace Hub.Client

variable {max : Int} {net : Http.Network} {mode : Mode} {r : Request}

/-! ## The lease that a body names -/

/-- The first field of the trimmed body with the name of the lease holds this number. -/
def NamesLease (body : List Char) (lease : Int) : Prop :=
  ∃ before text after, Form.read (Utf8.encode (Blank.trim body)) =
      before ++ ("hub.lease_seconds", text) :: after ∧
    (∀ field ∈ before, field.1 ≠ "hub.lease_seconds") ∧ Decimal.int64? text.toList = some lease

theorem negotiatedLease_eq_some_iff {body : List Char} {lease : Int} :
    negotiatedLease body = some lease ↔ NamesLease body lease := by
  unfold negotiatedLease NamesLease
  rw [Option.bind_eq_some_iff]
  constructor
  · rintro ⟨text, found, number⟩
    obtain ⟨before, after, fields, first⟩ := List.lookup_eq_some_iff.mp found
    exact ⟨before, text, after, fields, fun field mem => (bne_iff_ne.mp (first field mem)).symm,
      number⟩
  · rintro ⟨before, text, after, fields, first, number⟩
    refine ⟨text, List.lookup_eq_some_iff.mpr ⟨before, after, fields, fun field mem => ?_⟩, number⟩
    exact bne_iff_ne.mpr (first field mem).symm

theorem negotiatedLease_nil : negotiatedLease [] = none := rfl

/-! ## What the caller is told -/

/-- The lease is between a second and what the client asks for at most, which is ten days. -/
def InRange (max : Int) (r : Request) : Prop :=
  1 ≤ r.leaseSeconds ∧ r.leaseSeconds ≤ min max 864000

theorem inRange_iff : InRange max r ↔ Admits max r.leaseSeconds := admits_iff.symm

/-- What a request whose lease is in range comes to. -/
structure Told (net : Http.Network) (mode : Mode) (r : Request)
    (result : Except Error Response) : Prop where
  accepted : ∀ response, result = .ok response ↔
    ∃ a, Http.Answered net r.hubUrl (form mode r) a ∧ (200 ≤ a.status ∧ a.status ≤ 299) ∧
      response.accepted = true ∧ response.statusCode = a.status ∧
        ∀ lease, response.leaseSeconds = some lease ↔ NamesLease (a.text net.charsets) lease
  rejected : ∀ status body, result = .error (.subscriptionFailed status body) ↔
    ∃ a, Http.Answered net r.hubUrl (form mode r) a ∧ ¬ (200 ≤ a.status ∧ a.status ≤ 299) ∧
      a.status = status ∧ String.ofList (a.text net.charsets) = body
  failed : (∃ detail, result = .error (.transport detail)) ↔
    Http.Unanswered net r.hubUrl (form mode r)
  valid : ∀ asked most, result ≠ .error (.invalidLease asked most)
  /-- Whatever would have been in it, a body that does not arrive names nothing. -/
  unread : ∀ a, Http.Answered net r.hubUrl (form mode r) a → a.received? = none →
    result = if 200 ≤ a.status ∧ a.status ≤ 299 then .ok ⟨true, a.status, none⟩
      else .error (.subscriptionFailed a.status "")
  plain : ∀ a text, Http.Answered net r.hubUrl (form mode r) a → a.Says net.charsets text →
    result = if 200 ≤ a.status ∧ a.status ≤ 299 then .ok ⟨true, a.status, negotiatedLease text⟩
      else .error (.subscriptionFailed a.status (String.ofList text))

theorem understand_eq (charsets : Charset.Library) (a : Http.Answer) : understand charsets a =
    if 200 ≤ a.status ∧ a.status ≤ 299 then
      .ok ⟨true, a.status, negotiatedLease (a.text charsets)⟩
    else .error (.subscriptionFailed a.status (String.ofList (a.text charsets))) := by
  simp only [understand, Http.Answer.isSuccess_iff]

theorem told_of_answered {a : Http.Answer}
    (answered : Http.Answered net r.hubUrl (form mode r) a) :
    Told net mode r (understand net.charsets a) := by
  have only (p : Http.Answer → Prop) :
      (∃ b, Http.Answered net r.hubUrl (form mode r) b ∧ p b) ↔ p a :=
    ⟨fun ⟨b, answered', holds⟩ => answered.unique answered' ▸ holds,
      fun holds => ⟨a, answered, holds⟩⟩
  have heard : ¬ Http.Unanswered net r.hubUrl (form mode r) :=
    fun unanswered => Http.unanswered_iff.mp unanswered a answered
  rw [understand_eq]
  constructor
  case accepted =>
    intro response
    rw [only]
    split
    case isTrue success =>
      constructor
      · rintro ⟨⟩
        exact ⟨success, rfl, rfl, fun lease => negotiatedLease_eq_some_iff⟩
      · rintro ⟨-, accepted, status, named⟩
        have lease : response.leaseSeconds = negotiatedLease (a.text net.charsets) :=
          Option.ext fun lease => (named lease).trans negotiatedLease_eq_some_iff.symm
        rw [← accepted, ← status, ← lease]
    case isFalse refusal => exact iff_of_false nofun fun told => refusal told.1
  case rejected =>
    intro status body
    rw [only]
    split
    case isTrue success => exact iff_of_false nofun fun told => told.1 success
    case isFalse refusal =>
      constructor
      · rintro ⟨⟩
        exact ⟨refusal, rfl, rfl⟩
      · rintro ⟨-, rfl, rfl⟩
        rfl
  case failed => split <;> exact iff_of_false nofun heard
  case valid => intros; split <;> exact nofun
  case unread =>
    intro b answered' unread
    obtain rfl := answered.unique answered'
    rw [Http.Answer.text_of_unread _ unread, negotiatedLease_nil, String.ofList_nil]
  case plain =>
    intro b text answered' told
    obtain rfl := answered.unique answered'
    rw [told.text_eq]

theorem told_of_unanswered (unanswered : Http.Unanswered net r.hubUrl (form mode r))
    (detail : String) : Told net mode r (.error (.transport detail)) := by
  have none := Http.unanswered_iff.mp unanswered
  refine ⟨fun response => ?_, fun status body => ?_, ?_, fun _ _ => nofun, fun a answered => ?_,
    fun a text answered => ?_⟩
  · exact iff_of_false nofun fun ⟨a, answered, _⟩ => none a answered
  · exact iff_of_false nofun fun ⟨a, answered, _⟩ => none a answered
  · exact iff_of_true ⟨detail, rfl⟩ unanswered
  · exact absurd answered (none a)
  · exact absurd answered (none a)

/-! ## What is counted -/

def requestsTotal (mode : Mode) (result : String) : Metric :=
  ⟨"hub_requests_total", [("mode", mode.name), ("result", result)]⟩

def requestDuration (mode : Mode) : Metric :=
  ⟨"hub_request_duration_seconds", [("mode", mode.name)]⟩

/-- One counter moves, that of the mode and the result, and the time until an answer is noted. A
lease out of bounds is not counted. -/
inductive Counts (mode : Mode) : Except Error Response → List Metric → Prop
  | accepted (response : Response) :
    Counts mode (.ok response) [requestDuration mode, requestsTotal mode "accepted"]
  | rejected (status : Nat) (body : String) :
    Counts mode (.error (.subscriptionFailed status body))
      [requestDuration mode, requestsTotal mode "rejected"]
  | failed (detail : String) :
    Counts mode (.error (.transport detail)) [requestsTotal mode "transport_error"]
  | refused (asked most : Int) : Counts mode (.error (.invalidLease asked most)) []

theorem counts_of_answer (a : Http.Answer) :
    Counts mode (understand net.charsets a) (counted mode (.ok a)) := by
  simp only [understand, counted]
  split
  · exact .accepted _
  · exact .rejected _ _

/-! ## The whole -/

theorem send_of_not_inRange (outside : ¬ InRange max r) : send max net mode r =
    ⟨.error (.invalidLease r.leaseSeconds (min max 864000)), [], []⟩ := by
  have refused : checkLease r.leaseSeconds (limit max) =
      .error (.invalidLease r.leaseSeconds (limit max)) := by
    rw [inRange_iff, admits_iff] at outside
    rw [checkLease, if_pos (by omega)]
  rw [send, refused]
  rfl

theorem told_of_inRange (inside : InRange max r) :
    Told net mode r (send max net mode r).result ∧
      Counts mode (send max net mode r).result (send max net mode r).metrics := by
  have admitted : checkLease r.leaseSeconds (limit max) = .ok () := inRange_iff.mp inside
  rw [send, admitted]
  simp only
  cases outcome : (Http.post net r.hubUrl (form mode r)).outcome with
  | ok a =>
    exact ⟨told_of_answered (Http.post_ok_iff.mp outcome), counts_of_answer a⟩
  | error failure =>
    have unanswered := Http.post_error_iff.mp ⟨failure, outcome⟩
    exact ⟨told_of_unanswered unanswered _, .failed _⟩

/-- Whatever the client's limit, the mode, the request and what comes of it on the network: a lease
out of bounds is refused with the limit, and no request is sent; any other one is told and counted
by its answer. -/
theorem send_outcome (max : Int) (net : Http.Network) (mode : Mode) (r : Request) :
    (¬ InRange max r →
      (send max net mode r).result = .error (.invalidLease r.leaseSeconds (min max 864000)) ∧
        (send max net mode r).requests = [] ∧ (send max net mode r).metrics = []) ∧
    (InRange max r → Told net mode r (send max net mode r).result ∧
      Counts mode (send max net mode r).result (send max net mode r).metrics) := by
  refine ⟨fun outside => ?_, told_of_inRange⟩
  rw [send_of_not_inRange outside]
  exact ⟨rfl, rfl, rfl⟩

/-- One second more than the client asks for, and just what it does, of a hub that sends it on to
another host, where less is granted. -/
theorem send_outcome_hour :
    let net : Http.Network :=
      { reply? := fun _ origin =>
          if origin = ⟨"https", some (.name "hub.example"), some 443⟩ then
            some (.answer ⟨307, [("Location", "https://other.example:8443/push")], [], none⟩)
          else if origin = ⟨"https", some (.name "other.example"), some 8443⟩ then
            some (.answer ⟨202, [], Utf8.encode "hub.lease_seconds=1800".toList, none⟩)
          else none
        charsets := fun _ => none }
    let request (lease : Int) : Request :=
      ⟨"https://hub.example/subscribe", "t", "c", lease, some "s"⟩
    ¬ InRange 3600 (request 3601) ∧
      send 3600 net .subscribe (request 3601) = ⟨.error (.invalidLease 3601 3600), [], []⟩ ∧
      InRange 3600 (request 3600) ∧
      Told net .subscribe (request 3600) (.ok ⟨true, 202, some 1800⟩) ∧
      (send 3600 net .subscribe (request 3600)).result = .ok ⟨true, 202, some 1800⟩ ∧
      (send 3600 net .subscribe (request 3600)).metrics =
        [requestDuration .subscribe, requestsTotal .subscribe "accepted"] := by
  intro net request
  have outside : ¬ InRange 3600 (request 3601) := by
    unfold InRange
    decide
  have inside : InRange 3600 (request 3600) := by
    unfold InRange
    decide
  have refused := (send_outcome 3600 net .subscribe (request 3601)).1 outside
  have told := (send_outcome 3600 net .subscribe (request 3600)).2 inside
  have granted : (send 3600 net .subscribe (request 3600)).result =
      .ok ⟨true, 202, some 1800⟩ := by
    decide +kernel
  rw [granted] at told
  refine ⟨outside, ?_, inside, told.1, granted, ?_⟩
  · obtain ⟨result, requests, metrics⟩ := refused
    cases sent : send 3600 net .subscribe (request 3601)
    simp only [sent] at result requests metrics
    rw [result, requests, metrics]
    rfl
  · generalize (send 3600 net .subscribe (request 3600)).metrics = metrics at told
    cases told.2
    rfl

end Hub.Client

end WebSub
