import WebSub.Http.Endpoint
import WebSub.Proofs.Subscription.Verification

/-!
# The hub's handshake

The answer to a verification is made of the query alone. The store of subscriptions leaves no trace
in it, whatever it holds and however it fails.
-/

namespace WebSub

open Interleaving

/-! ## Any store -/

/-- The store of subscriptions holds, answers and writes anything at all, so long as each call ends.
From what the clock shows, the longest lease has room. -/
def AnyStore (w w' : Shared) : (q : Request) → q.Answer → Prop
  | .now, t => (IsReading t ∧ t.HasRoom) ∧ w' = w
  | .subscriptions _, a => a ≠ none ∧ Within w w'
  | q, a => w.Answers w' q a

namespace AnyStore

variable {α : Type} {w w' : Shared} {good : Shared → α → Prop}

theorem of_answers {c : Store.SubscriptionCall} {a : c.Answer}
    (h : w.Answers w' (.subscriptions c) a)
    (small : (∀ status limit offset now, c ≠ .list status limit offset now) ∧
      ∀ before limit, c ≠ .findExpiring before limit) :
    AnyStore w w' (.subscriptions c) a := by
  rcases h with ⟨rfl, rfl⟩ | ⟨⟨e, rfl⟩, rfl⟩
  · refine ⟨fun broken => ?_, rfl⟩
    rcases w.subscriptions.isRead_of_answer_none c broken with
      ⟨status, limit, offset, now, same⟩ | ⟨before, limit, same⟩
    · exact small.1 _ _ _ _ same
    · exact small.2 _ _ same
  · exact ⟨Option.some_ne_none _, rfl⟩

theorem ensures_now {next : Instant → Flow α}
    (h : ∀ t, IsReading t → t.HasRoom → (next t).Ensures AnyStore w good) :
    (Flow.ask .now next).Ensures AnyStore w good := by
  refine ⟨⟨w, ⟨0⟩, ⟨isReading_epoch, by unfold Instant.HasRoom; decide⟩, rfl⟩, ?_⟩
  rintro w' t ⟨⟨reading, room⟩, rfl⟩
  exact h t reading room

theorem ensures_call (c : Store.SubscriptionCall) :
    Flow.Ensures AnyStore (Service.call c).run w fun w' _ => Within w w' := by
  refine ⟨⟨w, some (.error .notFound), Option.some_ne_none _, rfl⟩, ?_⟩
  rintro w' a ⟨ended, same⟩
  cases a with
  | none => exact absurd rfl ended
  | some x => exact same

end AnyStore

/-! ## What is recorded -/

namespace Service

variable {w : Shared}

theorem within_recordAll {t : Instant} (reading : IsReading t) (room : t.HasRoom)
    (v : Verification) (todo : List Subscription) :
    Flow.Ensures AnyStore (recordAll v t todo).run w fun w' _ => Within w w' := by
  induction todo generalizing w with
  | nil => exact rfl
  | cons r todo ih =>
    unfold recordAll
    cases change : v.change? t r with
    | none => exact ih
    | some change' =>
      obtain rfl := Verification.change?_ok (v.fits_of_hasRoom reading.1 room r) change
      refine (AnyStore.ensures_call _).run_bind (fun _ _ within => within) ?_
      intro w' _ within
      exact ih.weaken fun _ _ later => within.trans later

theorem within_confirm (v : Verification) :
    Flow.Ensures AnyStore (confirm v).run w fun w' _ => Within w w' := by
  refine AnyStore.ensures_now fun t reading room => ?_
  refine (AnyStore.ensures_call _).run_bind (fun _ _ within => within) ?_
  intro w' rows within
  refine (within_recordAll reading room v rows).run_bind
    (fun _ _ later => within.trans later) ?_
  intro w'' _ later
  exact within.trans later

end Service

/-! ## What is answered -/

namespace Http

/-- There is no challenge to send back. -/
def Handshake.Unchallenged (h : Handshake) : Prop := h.challenge = none ∨ h.challenge = some ""

/-- The hub denies a topic that it names. -/
def Handshake.Denies (h : Handshake) : Prop := h.mode = some "denied" ∧ h.topic ≠ none

theorem Handshake.challenge?_none {h : Handshake} : h.challenge? = none ↔ h.Unchallenged := by
  unfold challenge? Unchallenged
  cases h.challenge with
  | none => simp
  | some c => simp [Option.filter]

theorem Handshake.verification?_denied {h : Handshake} :
    (∃ topic reason, h.verification? = some (.denied topic reason)) ↔ h.Denies := by
  obtain ⟨mode, topic, challenge, lease, reason⟩ := h
  unfold verification? Denies
  cases topic with
  | none => simp
  | some topic =>
    cases mode with
    | none => simp
    | some mode =>
      by_cases denied : mode = "denied"
      · subst denied
        simp
      · simp only [Option.bind_eq_bind, Option.bind_some, Option.some.injEq, denied, false_and,
          iff_false]
        rintro ⟨topic', reason', same⟩
        split at same
        case h_3 => exact absurd rfl denied
        all_goals cases same

theorem Handshake.isDenied_iff {h : Handshake} : h.isDenied = true ↔ h.Denies := by
  rw [← verification?_denied]
  unfold isDenied
  cases h.verification? with
  | none => simp
  | some v => cases v <;> simp

/-- How a handshake is answered. -/
structure Echoes (h : Handshake) (a : Response) : Prop where
  refused : a.status = 400 ↔ h.Unchallenged ∧ ¬ h.Denies
  accepted : a.status = 200 ↔ ¬ (h.Unchallenged ∧ ¬ h.Denies)
  /-- A challenge is sent back as it came. -/
  echoed : ∀ c, h.challenge = some c → c ≠ "" → a = ⟨200, some "text/plain", .text c⟩
  silent : h.Unchallenged → h.Denies → a = .empty 200

theorem echoes_refusal {h : Handshake} (unchallenged : h.Unchallenged) (other : ¬ h.Denies) :
    Echoes h (.text 400 "missing hub.challenge") := by
  refine ⟨iff_of_true rfl ⟨unchallenged, other⟩, ?_, ?_, fun _ denies => absurd denies other⟩
  · exact iff_of_false (by decide) (not_not_intro ⟨unchallenged, other⟩)
  · rintro c given present
    rcases unchallenged with absent | empty
    · rw [absent] at given
      cases given
    · rw [empty] at given
      exact absurd (Option.some.inj given).symm present

theorem echoes_challenge {h : Handshake} {c : String} (challenge : h.challenge? = some c) :
    Echoes h ⟨200, some "text/plain", .text c⟩ := by
  have challenged : ¬ h.Unchallenged := by
    rw [← Handshake.challenge?_none, challenge]
    exact nofun
  refine ⟨iff_of_false nofun fun refused => challenged refused.1,
    iff_of_true rfl fun refused => challenged refused.1, ?_, fun none => absurd none challenged⟩
  intro c' given _
  have sent := (Option.filter_eq_some_iff.mp challenge).1
  rw [given] at sent
  rw [Option.some.inj sent]

theorem echoes_silence {h : Handshake} (unchallenged : h.Unchallenged) (denies : h.Denies) :
    Echoes h (.empty 200) := by
  refine ⟨iff_of_false (by decide) fun refused => refused.2 denies,
    iff_of_true rfl fun refused => refused.2 denies, ?_, fun _ _ => rfl⟩
  intro c given present
  rcases unchallenged with absent | empty
  · rw [absent] at given
    cases given
  · rw [empty] at given
    exact absurd (Option.some.inj given).symm present

theorem echoes_echo {h : Handshake} (accepted : ¬ (h.Unchallenged ∧ ¬ h.Denies)) :
    Echoes h h.echo := by
  unfold Handshake.echo
  cases challenge : h.challenge? with
  | some c => exact echoes_challenge challenge
  | none =>
    have unchallenged := Handshake.challenge?_none.mp challenge
    exact echoes_silence unchallenged (not_not.mp fun other => accepted ⟨unchallenged, other⟩)

theorem acknowledge_of_refused {h : Handshake} (unchallenged : h.Unchallenged)
    (other : ¬ h.Denies) : h.acknowledge = .done (.text 400 "missing hub.challenge") := by
  have undenied : h.isDenied = false := by
    rw [← Handshake.isDenied_iff] at other
    exact Bool.eq_false_iff.mpr other
  unfold Handshake.acknowledge
  rw [Handshake.challenge?_none.mpr unchallenged, undenied]
  rfl

theorem ensures_echo {h : Handshake} (accepted : ¬ (h.Unchallenged ∧ ¬ h.Denies)) (w : Shared) :
    h.acknowledge.Ensures AnyStore w fun w' a => a = h.echo ∧ Within w w' := by
  have passes : (h.challenge?.isNone && !h.isDenied) = false := by
    rw [Bool.eq_false_iff]
    intro refused
    simp only [Bool.and_eq_true, Option.isNone_iff_eq_none, Bool.not_eq_true',
      Bool.eq_false_iff] at refused
    exact accepted ⟨Handshake.challenge?_none.mp refused.1,
      fun denies => refused.2 (Handshake.isDenied_iff.mpr denies)⟩
  unfold Handshake.acknowledge
  rw [passes, if_neg Bool.false_ne_true]
  cases h.verification? with
  | none => exact ⟨rfl, rfl⟩
  | some v => exact (Service.within_confirm v).bind fun w' _ within => ⟨rfl, within⟩

/-- **The handshake does not depend on the store.** For every query there is one answer, and every
store leads to it: it is refused exactly if there is no challenge and no denial of a topic, and else
the challenge is sent back as it came. Events stay as they are, and behind a refusal all does. -/
theorem handshake_independent (h : Handshake) :
    ∃ a, Echoes h a ∧ ∀ w, h.acknowledge.Ensures AnyStore w fun w' a' =>
      a' = a ∧ Within w w' ∧ (a.status = 400 → w' = w) := by
  by_cases refused : h.Unchallenged ∧ ¬ h.Denies
  · refine ⟨_, echoes_refusal refused.1 refused.2, fun w => ?_⟩
    rw [acknowledge_of_refused refused.1 refused.2]
    exact ⟨rfl, rfl, fun _ => rfl⟩
  · have echoes := echoes_echo refused
    refine ⟨_, echoes, fun w => (ensures_echo refused w).weaken ?_⟩
    rintro w' _ ⟨rfl, within⟩
    exact ⟨rfl, within, fun status => absurd (echoes.refused.mp status) refused⟩

end Http

end WebSub
