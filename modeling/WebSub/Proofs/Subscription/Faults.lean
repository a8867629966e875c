import WebSub.Http.Endpoint
import WebSub.Proofs.Interleaving.Position
import WebSub.Proofs.Subscription.Subscribing

/-!
# What the caller is told

Subscribing and renewing ask the hub once at most. Whatever fails and whoever has a turn in between,
an error of the hub is what the caller is told, whether or not it could be written; an error of the
store is told where the hub was not asked, or has accepted.
-/

namespace WebSub

open Interleaving
open WebSub.Flow (Turn)
open Errand (lease granted)

namespace Service

variable {α β : Type} {w : Shared} {past turns : List Turn} {drafts : Option Int}

/-! ## What a course tells -/

/-- What the hub has answered. -/
def heard (turns : List Turn) : List Hub.Result := turns.filterMap (·.exchange.heard?)

/-- A call to the store has failed and changed no row. -/
def Failed (x : Turn) (e : Store.Error) : Prop :=
  (∃ c, x.exchange = ⟨.subscriptions c, some (.error e)⟩) ∧
    x.after.subscriptions = x.before.subscriptions

/-- The store is asked to write a row that the hub has accepted, and answers. -/
def Writes (turns : List Turn) (x : Turn) (y : Subscription)
    (a : Except Store.Error Subscription) : Prop :=
  ∃ first rest response, turns = first ++ x :: rest ∧ .ok response ∈ heard first ∧
    x.exchange = ⟨.subscriptions (.update y), some a⟩

/-- The row is stored, and is written over. -/
def Stored (x : Turn) (y : Subscription) : Prop :=
  ∃ old, x.before.subscriptions.get? y.id = some old ∧
    x.after.subscriptions.get? y.id = some (x.before.subscriptions.written y old)

/-- From the time that was read, the end of a lease cannot be represented: that of a new row, or
that of a row which the hub has accepted. -/
def OutOfRange (drafts : Option Int) (turns : List Turn) : Prop :=
  ∃ t l, (∃ x ∈ turns, x.exchange = ⟨.now, t⟩) ∧ t.addSeconds? l = none ∧
    (drafts = some l ∨ ∃ x ∈ turns, ∃ request response,
      x.exchange = ⟨.hub .subscribe request, .ok response⟩ ∧
        l = granted request.leaseSeconds response.leaseSeconds)

theorem heard_append (turns rest : List Turn) :
    heard (turns ++ rest) = heard turns ++ heard rest :=
  List.filterMap_append

theorem heard_of_silent (silent : ∀ x ∈ turns, x.isCall = false) : heard turns = [] := by
  refine List.filterMap_eq_nil_iff.mpr fun x hx => ?_
  have aside := silent x hx
  obtain ⟨before, ⟨q, a⟩, after⟩ := x
  cases q with
  | hub mode r => cases aside
  | hubUnlessStopped r => cases aside
  | _ => rfl

/-! ## Before the hub is asked -/

/-- What comes before the hub is asked, and how it ends. -/
structure Unasked (drafts : Option Int) (turns : List Turn) (outcome : Option (Except Error α)) :
    Prop where
  silent : ∀ x ∈ turns, x.isCall = false
  hub : ∀ e, outcome ≠ some (.error (.hub e))
  persistence : ∀ e, outcome = some (.error (.persistence e)) → ∃ x ∈ turns, Failed x e
  broken : outcome = none → ∃ t l, (∃ x ∈ turns, x.exchange = ⟨.now, t⟩) ∧
    t.addSeconds? l = none ∧ drafts = some l

theorem Unasked.of_silent (silent : ∀ x ∈ turns, x.isCall = false) (a : α) :
    Unasked drafts turns (some (.ok a)) :=
  ⟨silent, nofun, nofun, nofun⟩

theorem Unasked.of_error {e : Error} (h : Unasked none turns (some (.error e : Except Error α))) :
    Unasked drafts turns (some (.error e : Except Error β)) := by
  refine ⟨h.silent, ?_, ?_, nofun⟩
  · rintro e' ⟨⟩
    exact h.hub e' rfl
  · rintro e' ⟨⟩
    exact h.persistence e' rfl

theorem Unasked.unbroken (h : Unasked none turns (none : Option (Except Error α))) : False := by
  obtain ⟨t, l, -, -, drafts⟩ := h.broken rfl
  cases drafts

theorem forall_mem_concat {p : Turn → Prop} {x : Turn} (h : ∀ y ∈ past, p y) (hx : p x) :
    ∀ y ∈ past ++ [x], p y := by
  intro y hy
  rcases List.mem_append.mp hy with hy | hy
  · exact h y hy
  · rw [List.mem_singleton.mp hy]
    exact hx

theorem leads_call (c : Store.SubscriptionCall) (plain : Store.Subscriptions.IsPlain c)
    (silent : ∀ x ∈ past, x.isCall = false) :
    Flow.Leads .anything Shared.Answers (call c).run past w
      fun turns _ outcome => Unasked none turns outcome := by
  refine Flow.leads_amid fun w₁ w₂ a answers => ?_
  have silent' := forall_mem_concat (x := ⟨w₁, ⟨.subscriptions c, a⟩, w₂⟩) silent rfl
  match a, answers with
  | some (.ok v), _ => exact Unasked.of_silent silent' v
  | some (.error e), answers =>
    refine ⟨silent', nofun, ?_, nofun⟩
    rintro _ ⟨⟩
    exact ⟨_, List.mem_concat_self, ⟨c, rfl⟩, answers.failed (by simp)⟩
  | none, answers => exact absurd rfl (answers.ne_none plain)

theorem leads_prepare (d : Defaults) (channelId : String) (l : Int) :
    Flow.Leads .anything Shared.Answers (prepare d channelId l).run [] w
      fun turns _ outcome => Unasked (some l) turns outcome := by
  refine (leads_call (.findByPair channelId d.callbackUrl) trivial
    (List.forall_mem_nil _)).run_bind (fun _ _ h => h.unbroken.elim)
    (fun _ _ _ h => h.of_error) ?_
  intro past w found h
  cases found with
  | some s => exact Unasked.of_silent h.silent _
  | none =>
    refine Flow.leads_amid fun w₁ w₂ id _ => Flow.leads_amid fun w₃ w₄ t _ => ?_
    have silent := forall_mem_concat (x := ⟨w₃, ⟨.now, t⟩, w₄⟩)
      (forall_mem_concat (x := ⟨w₁, ⟨.freshId, id⟩, w₂⟩) h.silent rfl) rfl
    show Flow.Leads _ _ (((Flow.ofOption (Subscription.new? id channelId d.callbackUrl d.hubUrl
      l d.secret t)).bind _).bind _) _ _ _
    cases draft : Subscription.new? id channelId d.callbackUrl d.hubUrl l d.secret t with
    | none =>
      exact ⟨silent, nofun, nofun, fun _ => ⟨t, l, ⟨_, List.mem_concat_self, rfl⟩,
        Option.map_eq_none_iff.mp draft, rfl⟩⟩
    | some y =>
      refine Flow.Leads.weaken (leads_call (.create y) trivial silent) ?_
      intro turns _ outcome h
      match outcome, h with
      | none, h => exact h.unbroken.elim
      | some (.error e), h => exact h.of_error
      | some (.ok s), h => exact Unasked.of_silent h.silent s

theorem leads_get (id : Uuid) :
    Flow.Leads .anything Shared.Answers (get id).run [] w
      fun turns _ outcome => Unasked none turns outcome := by
  refine (leads_call (.find id) trivial (List.forall_mem_nil _)).run_bind
    (fun _ _ h => h.unbroken.elim) (fun _ _ _ h => h.of_error) ?_
  intro past w found h
  cases found with
  | some s => exact Unasked.of_silent h.silent s
  | none => exact ⟨h.silent, nofun, nofun, nofun⟩

/-! ## The handshake -/

/-- What the caller is told: an error of the hub before one of the store. -/
def concluded (y : Subscription) :
    Hub.Result → Except Store.Error Subscription → Except Error Subscription
  | .error e, _ => .error (.hub e)
  | .ok _, .error e => .error (.persistence e)
  | .ok _, .ok _ => .ok y

/-- The hub is asked, the clock is read, and what the answer makes of the row is written. -/
inductive Negotiated (s : Subscription) (past : List Turn) :
    List Turn → Option (Except Error Subscription) → Prop
  | overflow {asked clock : Turn} {answer : Hub.Result} {t : Instant} {y : Subscription}
      (ask : asked.exchange = ⟨.hub .subscribe s.hubRequest, answer⟩)
      (read : clock.exchange = ⟨.now, t⟩) (change : s.settled answer t = .error y) :
      Negotiated s past (past ++ [asked, clock]) none
  | written {asked clock wrote : Turn} {answer : Hub.Result} {t : Instant} {y : Subscription}
      {a : Except Store.Error Subscription}
      (ask : asked.exchange = ⟨.hub .subscribe s.hubRequest, answer⟩)
      (read : clock.exchange = ⟨.now, t⟩) (change : s.settled answer t = .ok y)
      (write : wrote.exchange = ⟨.subscriptions (.update y), some a⟩)
      (answers : wrote.before.Answers wrote.after (.subscriptions (.update y)) (some a)) :
      Negotiated s past (past ++ [asked, clock, wrote]) (some (concluded y answer a))

theorem leads_handshake (s : Subscription) :
    Flow.Leads .anything Shared.Answers (handshake s).run past w
      fun turns _ outcome => Negotiated s past turns outcome := by
  refine Flow.leads_amid fun w₁ w₂ answer _ => Flow.leads_amid fun w₃ w₄ t _ => ?_
  have writes : ∀ y (next : Option (Except Store.Error Subscription) →
      Flow (Except Error Subscription)), s.settled answer t = .ok y →
      (∀ a, next (some a) = .done (concluded y answer a)) →
      (Flow.ask (.subscriptions (.update y)) next).Leads .anything Shared.Answers
        (past ++ [⟨w₁, ⟨.hub .subscribe s.hubRequest, answer⟩, w₂⟩] ++ [⟨w₃, ⟨.now, t⟩, w₄⟩]) w₄
        fun turns _ outcome => Negotiated s past turns outcome := by
    intro y next change ends
    refine Flow.leads_amid fun w₅ w₆ a answers => ?_
    match a, answers with
    | some a, answers =>
      rw [ends a]
      show Negotiated s past _ (some _)
      simp only [List.append_assoc, List.cons_append, List.nil_append]
      exact .written rfl rfl change rfl answers
    | none, answers => exact absurd rfl (answers.ne_none trivial)
  cases answer with
  | error e =>
    refine writes (s.markFailed t) _ rfl fun a => ?_
    cases a <;> rfl
  | ok response =>
    show Flow.Leads _ _ ((((Flow.ofChange (s.markActive t response.leaseSeconds)).bind _).bind _)) _
      _ _
    cases change : s.markActive t response.leaseSeconds with
    | error y =>
      have settled : s.settled (.ok response) t = .error y := change
      show Negotiated s past _ none
      simp only [List.append_assoc, List.cons_append, List.nil_append]
      exact .overflow rfl rfl settled
    | ok y =>
      refine writes y _ change fun a => ?_
      cases a <;> rfl

/-! ## The whole -/

/-- What an operation that asks the hub tells its caller; `drafts` is the lease of the row that it
may create. -/
structure Candid (drafts : Option Int) (turns : List Turn)
    (outcome : Option (Except Error Subscription)) : Prop where
  /-- The hub is asked at most once. -/
  once : turns.countP (·.isCall) ≤ 1
  /-- An error of the hub is told, -/
  refused : ∀ e, .error e ∈ heard turns → outcome = some (.error (.hub e))
  /-- and none that it did not give. -/
  hub : ∀ e, outcome = some (.error (.hub e)) → .error e ∈ heard turns
  /-- An error of the store came before the hub was asked, or from the write after it accepted. -/
  persistence : ∀ e, outcome = some (.error (.persistence e)) →
    ((∀ x ∈ turns, x.isCall = false) ∧ ∃ x ∈ turns, Failed x e) ∨
      ∃ x y, Failed x e ∧ Writes turns x y (.error e)
  /-- A success means that the hub has accepted and the row is written. -/
  success : ∀ y, outcome = some (.ok y) → ∃ x a, Writes turns x y (.ok a) ∧ Stored x y
  broken : outcome = none → OutOfRange drafts turns

theorem Unasked.candid {outcome : Option (Except Error Subscription)}
    (h : Unasked drafts turns outcome) (ended : ∀ y, outcome ≠ some (.ok y)) :
    Candid drafts turns outcome where
  once := by
    rw [List.countP_eq_zero.mpr fun x hx => by simp [h.silent x hx]]
    exact Nat.zero_le 1
  refused := by
    intro e told
    rw [heard_of_silent h.silent] at told
    cases told
  hub := fun e told => absurd told (h.hub e)
  persistence := fun e told => Or.inl ⟨h.silent, h.persistence e told⟩
  success := fun y told => absurd told (ended y)
  broken := by
    intro none
    obtain ⟨t, l, read, far, drafts⟩ := h.broken none
    exact ⟨t, l, read, far, Or.inl drafts⟩

theorem Unasked.candid_of_none
    (h : Unasked drafts turns (none : Option (Except Error Subscription))) :
    Candid drafts turns none :=
  h.candid fun _ => (Option.some_ne_none _).symm

theorem Unasked.candid_of_error {e : Error}
    (h : Unasked drafts turns (some (.error e : Except Error Subscription))) :
    Candid drafts turns (some (.error e)) := by
  refine h.candid fun y same => ?_
  cases same

theorem stored_of_answers {x : Turn} {y a : Subscription}
    (answers : x.before.Answers x.after (.subscriptions (.update y)) (some (.ok a))) :
    Stored x y := by
  rcases answers with ⟨answer, after⟩ | ⟨⟨e, fault⟩, -⟩
  · rcases x.before.subscriptions.answer_update y with ⟨missing, -⟩ | ⟨-, -, r, hr, id⟩
    · rw [missing] at answer
      cases answer
    · obtain ⟨old, found⟩ : ∃ old, x.before.subscriptions.get? y.id = some old :=
        Option.isSome_iff_exists.mp (List.find?_isSome.mpr ⟨r, hr, beq_iff_eq.mpr id⟩)
      refine ⟨old, found, ?_⟩
      rw [after, Store.Subscriptions.get?_update, found, Option.map_some,
        if_pos (by simpa using List.find?_some found)]
  · cases fault

theorem addSeconds?_of_settled {s y : Subscription} {answer : Hub.Result} {t : Instant}
    (change : s.settled answer t = .error y) : ∃ response, answer = .ok response ∧
      t.addSeconds? (granted s.leaseSeconds response.leaseSeconds) = none := by
  cases answer with
  | error e => cases change
  | ok response =>
    have change : s.markActive t response.leaseSeconds = .error y := change
    rw [Errand.markActive_eq] at change
    have far := Subscription.restartLease_error change
    exact ⟨response, rfl, far⟩

theorem Negotiated.candid {s : Subscription} {outcome : Option (Except Error Subscription)}
    (silent : ∀ x ∈ past, x.isCall = false) (h : Negotiated s past turns outcome) :
    Candid drafts turns outcome := by
  have unheard := heard_of_silent silent
  have uncalled : past.countP (·.isCall) = 0 :=
    List.countP_eq_zero.mpr fun x hx => by simp [silent x hx]
  cases h with
  | @overflow asked clock answer t y ask read change =>
    obtain ⟨response, rfl, far⟩ := addSeconds?_of_settled change
    have told : heard (past ++ [asked, clock]) = [.ok response] := by
      rw [heard_append, unheard]
      simp [heard, ask, read, Exchange.heard?]
    refine ⟨?_, ?_, by simp, by simp, by simp, fun _ => ⟨t, _, ⟨clock, by simp, read⟩, far,
      Or.inr ⟨asked, by simp, _, _, ask, rfl⟩⟩⟩
    · rw [List.countP_append, uncalled]
      simp [Turn.isCall, ask, read]
    · intro e mem
      rw [told] at mem
      simp at mem
  | @written asked clock wrote answer t y a ask read change write answers =>
    have told : heard (past ++ [asked, clock, wrote]) = [answer] := by
      rw [heard_append, unheard]
      simp [heard, ask, read, write, Exchange.heard?]
    have writes : ∀ response, answer = .ok response →
        Writes (past ++ [asked, clock, wrote]) wrote y a := by
      rintro response rfl
      refine ⟨past ++ [asked, clock], [], response, by simp, ?_, write⟩
      rw [heard_append, unheard]
      simp [heard, ask, read, Exchange.heard?]
    refine ⟨?_, ?_, ?_, ?_, ?_, by simp⟩
    · rw [List.countP_append, uncalled]
      simp [Turn.isCall, ask, read, write]
    · intro e mem
      rw [told, List.mem_singleton] at mem
      rw [← mem]
      rfl
    · intro e same
      rw [told, List.mem_singleton]
      cases answer <;> cases a <;> cases same <;> rfl
    · intro e same
      cases answer with
      | error e' => cases same
      | ok response =>
        cases a with
        | ok b => cases same
        | error e' =>
          cases same
          exact Or.inr ⟨wrote, y, ⟨⟨_, write⟩, answers.failed (by simp)⟩, writes response rfl⟩
    · intro y' same
      cases answer with
      | error e' => cases same
      | ok response =>
        cases a with
        | error e' => cases same
        | ok b =>
          cases same
          exact ⟨wrote, b, writes response rfl, stored_of_answers answers⟩

theorem leads_subscribe (d : Defaults) (r : CreateRequest) :
    Flow.Leads .anything Shared.Answers (subscribe d r).run [] w
      fun turns _ outcome => Candid (some (lease d r)) turns outcome := by
  have refused : ∀ detail, Candid (some (lease d r)) [] (some (.error (.invalidRequest detail))) :=
    fun detail => Unasked.candid_of_error ⟨List.forall_mem_nil _, by simp, by simp, by simp⟩
  rw [Errand.subscribe_eq]
  split
  case isFalse => exact refused _
  case isTrue =>
    cases Hub.checkLease (lease d r) d.maxLeaseSeconds with
    | error e => exact refused _
    | ok u =>
      refine (leads_prepare d r.channelId (lease d r)).run_bind (fun _ _ h => h.candid_of_none)
        (fun _ _ _ h => h.candid_of_error) ?_
      exact fun _ _ s h => (leads_handshake s).weaken fun _ _ _ h' => h'.candid h.silent

theorem leads_renew (id : Uuid) :
    Flow.Leads .anything Shared.Answers (renew id).run [] w
      fun turns _ outcome => Candid none turns outcome := by
  refine (leads_get id).run_bind (fun _ _ h => h.candid_of_none)
    (fun _ _ _ h => h.candid_of_error) ?_
  exact fun _ _ s h => (leads_handshake s).weaken fun _ _ _ h' => h'.candid h.silent

end Service

/-! ## Over HTTP -/

namespace Http

open Service (Candid Stored Writes heard)

variable {w : Shared} {turns : List Turn} {drafts : Option Int}

/-- What a client is answered to a request by which the hub may be asked. -/
structure Relayed (turns : List Turn) (outcome : Option Response) : Prop where
  once : turns.countP (·.isCall) ≤ 1
  /-- An error of the hub is told: it could not be reached, or it did not agree. -/
  refused : ∀ e, .error e ∈ heard turns →
    outcome = some (.problem (if e.isTransient then 502 else 400) e.message)
  /-- A success means that the hub has accepted and the row is written. -/
  success : ∀ response, outcome = some response → response.status < 400 →
    ∃ x y a, Writes turns x y (.ok a) ∧ Stored x y

theorem ofService_fails (e : Service.Error) : 400 ≤ Status.ofService e := by
  cases e with
  | invalidRequest detail => exact Nat.le_refl 400
  | notFound => decide
  | hub e => cases e <;> exact Nat.le_of_ble_eq_true rfl
  | persistence e => cases e <;> exact Nat.le_of_ble_eq_true rfl

theorem relayed_of_error {e : Service.Error} (h : Candid drafts turns (some (.error e))) :
    Relayed turns (some (.problem (Status.ofService e) e.message)) where
  once := h.once
  refused := by
    intro e' told
    cases h.refused e' told
    cases e' <;> rfl
  success := by
    rintro _ ⟨⟩ low
    have high := ofService_fails e
    exact absurd low (Nat.not_lt.mpr high)

theorem relayed_of_ok {y : Subscription} {x : Turn} (clock : ∃ t, x.exchange = ⟨.now, t⟩)
    (h : Candid drafts turns (some (.ok y))) (response : Response) :
    Relayed (turns ++ [x]) (some response) := by
  obtain ⟨t, read⟩ := clock
  have told : heard (turns ++ [x]) = heard turns := by
    rw [Service.heard_append]
    simp [heard, read, Exchange.heard?]
  refine ⟨?_, ?_, ?_⟩
  · rw [List.countP_append]
    simpa [Turn.isCall, read] using h.once
  · intro e mem
    rw [told] at mem
    cases h.refused e mem
  · rintro _ - -
    obtain ⟨x', a, ⟨first, rest, accepted, rfl, mem, write⟩, stored⟩ := h.success y rfl
    exact ⟨x', y, a, ⟨first, rest ++ [x], accepted, by simp, mem, write⟩, stored⟩

theorem leads_answering {operation : Service.Operation Subscription}
    (h : Flow.Leads .anything Shared.Answers operation.run [] w
      fun turns _ outcome => Candid drafts turns outcome) (status : Nat) :
    Flow.Leads .anything Shared.Answers (answering operation (showing status)) [] w
      fun turns _ outcome => Relayed turns outcome := by
  refine h.bind ?_ ?_
  · intro turns w told
    refine ⟨told.once, fun e mem => ?_, nofun⟩
    cases told.refused e mem
  · intro turns w outcome told
    cases outcome with
    | error e => exact relayed_of_error told
    | ok y => exact Flow.leads_amid fun w₁ w₂ t _ => relayed_of_ok ⟨t, rfl⟩ told _

theorem relayed_of_complaint {status : Nat} (failing : 400 ≤ status) :
    Relayed [] (some (.complaint status)) := by
  refine ⟨Nat.zero_le 1, nofun, ?_⟩
  rintro _ ⟨⟩ low
  exact absurd low (Nat.not_lt.mpr failing)

theorem leads_create (app : App) (r : Request) :
    Flow.Leads .anything Shared.Answers (create app r) [] w
      fun turns _ outcome => Relayed turns outcome := by
  unfold create
  split
  · exact relayed_of_complaint (by decide)
  · split
    · exact relayed_of_complaint (by decide)
    · split
      · exact relayed_of_complaint (by decide)
      · exact relayed_of_complaint (by decide)
      · exact leads_answering (Service.leads_subscribe app.defaults _) 201

theorem leads_renew (id : Uuid) :
    Flow.Leads .anything Shared.Answers (renew id) [] w
      fun turns _ outcome => Relayed turns outcome :=
  leads_answering (Service.leads_renew id) 200

end Http

end WebSub
