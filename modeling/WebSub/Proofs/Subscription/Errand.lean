import WebSub.Proofs.Interleaving.Conduct
import WebSub.Proofs.Store.SubscriptionRows
import WebSub.Proofs.Subscription.Changes
import WebSub.Service.Subscriptions
import WebSub.Settings.Basic

/-!
# The conduct of operations on subscriptions

The operations that write subscriptions, as they run side by side: what each may ask for at each
point, and when it may break down.
-/

namespace WebSub

open Interleaving
open Service (Verification)

/-- An operation that may write subscriptions. -/
inductive Errand where
  | subscribe (d : Defaults) (r : CreateRequest)
  | renew (id : Uuid)
  | unsubscribe (id : Uuid)
  | confirm (v : Verification)
  | sweep (settings : Sweep.Settings)

namespace Errand

inductive Result where
  | subscribed (r : Except Service.Error Subscription)
  | unsubscribed (r : Except Service.Error Service.Unsubscribed)
  | confirmed (r : Except Service.Error Nat)
  | swept (r : Except Sweep.Error Sweep.Report)

def flow : Errand → Flow Result
  | subscribe d r => (Service.subscribe d r).run.bind (.done <| .subscribed ·)
  | renew id => (Service.renew id).run.bind (.done <| .subscribed ·)
  | unsubscribe id => (Service.unsubscribe id).run.bind (.done <| .unsubscribed ·)
  | confirm v => (Service.confirm v).run.bind (.done <| .confirmed ·)
  | sweep settings => (Sweep.sweep settings).bind (.done <| .swept ·)

/-- Subscriptions are asked for with the parameters that some settings give. -/
def IsConfigured (e : Errand) : Prop :=
  ∀ d r, e = .subscribe d r → ∃ h : Settings.HubAccess, d = h.defaults

def plainAccess : Settings.HubAccess := ⟨"h", "c", "", 60, 60, 10⟩

def plain : Errand := .subscribe plainAccess.defaults ⟨"a", none⟩

theorem plain_isConfigured : plain.IsConfigured := by
  intro d r same
  cases same
  exact ⟨plainAccess, rfl⟩

def plainRow (status : Status) (verified : Option Instant) : Subscription where
  id := .drawn 0
  channelId := "a"
  topicUrl := topicUrl "a"
  callbackUrl := "c"
  hubUrl := "h"
  leaseSeconds := 60
  expiresAt := ⟨60000000000⟩
  status
  secret := none
  lastVerifiedAt := verified
  createdAt := ⟨0⟩
  updatedAt := ⟨0⟩

end Errand

/-! ## Handshakes -/

/-- What the hub answered to a request for a subscription. -/
def Interleaving.Exchange.heard? : Exchange → Option Hub.Result
  | ⟨.hub .subscribe _, result⟩ => some result
  | ⟨.hubUnlessStopped _, result⟩ => result
  | _ => none

/-- The hub has answered to some request for a subscription. -/
def Heard (own : List Exchange) : Prop := ∃ x ∈ own, ∃ result, x.heard? = some result

theorem keeps_applyHubResult {α : Type} {c : Conduct α} {own : List Exchange} {s : Subscription}
    {result : Hub.Result} {now : Instant}
    {next : Subscription × Except Service.HandshakeError Hub.Response → Flow α}
    (write : ∀ y, s.settled result now = .ok y → c.asks own (.subscriptions (.update y)))
    (overflow : ∀ y, s.settled result now = .error y → c.breaks own)
    (broken : ∀ y, c.breaks (own ++ [⟨.subscriptions (.update y), none⟩]))
    (rest : ∀ y a outcome, s.settled result now = .ok y →
      (next (y, outcome)).Keeps c (own ++ [⟨.subscriptions (.update y), some a⟩])) :
    ((Service.applyHubResult s result now).bind next).Keeps c own := by
  cases result with
  | ok response =>
    cases change : s.markActive now response.leaseSeconds with
    | error y =>
      simp only [Service.applyHubResult, change]
      exact overflow y change
    | ok y =>
      simp only [Service.applyHubResult, change]
      refine keeps_ask (write y change) fun a => ?_
      match a with
      | none => exact broken y
      | some (.ok b) => exact rest y (.ok b) _ change
      | some (.error e) => exact rest y (.error e) _ change
  | error e =>
    simp only [Service.applyHubResult]
    refine keeps_ask (write _ rfl) fun a => ?_
    match a with
    | none => exact broken _
    | some a => exact rest _ a _ rfl

/-! ## What an operation has gone through -/

namespace Errand

/-- The lease that a new or repeated subscription asks for. -/
def lease (d : Defaults) (r : CreateRequest) : Int := r.leaseSeconds.getD d.leaseSeconds

def Admits (d : Defaults) (r : CreateRequest) : Prop :=
  Hub.checkLease (lease d r) d.maxLeaseSeconds = .ok ()

/-- There is no row to subscribe with, and this is the one to create. -/
inductive Drafts : Errand → List Exchange → Subscription → Prop
  | draft {d : Defaults} {r : CreateRequest} {id : Uuid} {t : Instant} {y : Subscription}
      (admitted : Admits d r)
      (new : Subscription.new? id r.channelId d.callbackUrl d.hubUrl (lease d r) d.secret t =
        some y) :
      Drafts (subscribe d r)
        [⟨.subscriptions (.findByPair r.channelId d.callbackUrl), some (.ok none)⟩,
          ⟨.freshId, id⟩, ⟨.now, t⟩] y

/-- The copy of a row with which an operation goes to the hub. -/
inductive Takes : Errand → List Exchange → Subscription → Prop
  | again {d : Defaults} {r : CreateRequest} {s : Subscription} (admitted : Admits d r) :
      Takes (subscribe d r)
        [⟨.subscriptions (.findByPair r.channelId d.callbackUrl), some (.ok (some s))⟩]
        { s with leaseSeconds := lease d r, secret := d.secret }
  | anew {e : Errand} {own : List Exchange} {y s : Subscription} (draft : Drafts e own y) :
      Takes e (own ++ [⟨.subscriptions (.create y), some (.ok s)⟩]) s
  | stored {id : Uuid} {s : Subscription} :
      Takes (renew id) [⟨.subscriptions (.find id), some (.ok (some s))⟩] s

theorem Takes.operation {e : Errand} {own : List Exchange} {s : Subscription}
    (h : e.Takes own s) : (∃ d r, e = subscribe d r) ∨ ∃ id, e = renew id := by
  cases h with
  | again admitted => exact Or.inl ⟨_, _, rfl⟩
  | stored => exact Or.inr ⟨_, rfl⟩
  | anew draft =>
    cases draft with
    | draft admitted new => exact Or.inl ⟨_, _, rfl⟩

theorem Takes.copied {e : Errand} {own : List Exchange} {s : Subscription} (h : e.Takes own s) :
    ∃ c v, ∃ copy ∈ Store.SubscriptionCall.given c v,
      ⟨.subscriptions c, some (.ok v)⟩ ∈ own ∧
        ∃ lease secret, s = { copy with leaseSeconds := lease, secret := secret } := by
  cases h with
  | @again d q s admitted =>
    exact ⟨.findByPair q.channelId d.callbackUrl, some s, s, List.mem_singleton.mpr rfl,
      List.mem_singleton.mpr rfl, _, _, rfl⟩
  | @anew e own y s draft =>
    exact ⟨.create y, s, s, List.mem_singleton.mpr rfl, List.mem_concat_self, _, _, rfl⟩
  | @stored id s =>
    exact ⟨.find id, some s, s, List.mem_singleton.mpr rfl, List.mem_singleton.mpr rfl, _, _, rfl⟩

/-- The hub has answered about a copy, and the clock was read. -/
def Hears (e : Errand) (own : List Exchange) (s : Subscription) (result : Hub.Result)
    (now : Instant) : Prop :=
  ∃ before, e.Takes before s ∧
    own = before ++ [⟨.hub .subscribe s.hubRequest, result⟩, ⟨.now, now⟩]

/-- Of the rows to a topic, some are done: each has been written that the callback changes. -/
def Confirms (v : Verification) (own : List Exchange) (now : Instant)
    (rows done : List Subscription) : Prop :=
  ∃ writes,
    own = [⟨.now, now⟩, ⟨.subscriptions (.findByTopic v.topicUrl), some (.ok rows)⟩] ++ writes ∧
    (∀ x ∈ writes, ∃ s ∈ done, ∃ y a, v.change? now s = some (.ok y) ∧
      x = ⟨.subscriptions (.update y), some (.ok a)⟩) ∧
    ∀ s ∈ done, ∀ change, v.change? now s = some change →
      ∃ y a, change = .ok y ∧ ⟨.subscriptions (.update y), some (.ok a)⟩ ∈ writes

/-- Why a row may be written as it is. -/
inductive Writes : Errand → List Exchange → Subscription → Prop
  | handshake {e : Errand} {own : List Exchange} {s y : Subscription} {result : Hub.Result}
      {now : Instant} (heard : e.Hears own s result now) (change : s.settled result now = .ok y) :
      Writes e own y
  | verification {v : Verification} {own : List Exchange} {now : Instant}
      {done todo : List Subscription} {s y : Subscription}
      (confirms : Confirms v own now (done ++ s :: todo) done)
      (change : v.change? now s = some (.ok y)) : Writes (confirm v) own y

def Asks (e : Errand) (own : List Exchange) : Request → Prop
  | .now | .freshId | .count .. | .stopped | .lockSweeps | .unlockSweeps => True
  | .hub .subscribe q => ∃ s, e.Takes own s ∧ q = s.hubRequest
  | .hub .unsubscribe _ => True
  | .subscriptions (.create y) => e.Drafts own y
  | .subscriptions (.update y) => e.Writes own y
  | .subscriptions (.findExpiring _ limit) => ∃ settings, e = sweep settings ∧
    limit = settings.batchSize
  | .subscriptions (.markLapsed _) => ∃ settings, e = sweep settings
  | .subscriptions (.delete id) => e = unsubscribe id
  | .subscriptions (.list ..) => False
  | .subscriptions _ => True
  | .renewAll _ rows => Unjoined own ∧ (∃ settings, e = sweep settings) ∧ ∃ before limit,
    ⟨.subscriptions (.findExpiring before limit), some (.ok rows)⟩ ∈ own
  | .hubUnlessStopped _ | .events _ | .handle .. => False

/-- An instant that is needed is out of range. -/
inductive Overflows : Errand → List Exchange → Prop
  | lease {d : Defaults} {r : CreateRequest} {own : List Exchange} {t : Instant}
      (admitted : Admits d r) (reading : ⟨.now, t⟩ ∈ own) (far : t.addSeconds? (lease d r) = none) :
      Overflows (subscribe d r) own
  | handshake {e : Errand} {own : List Exchange} {s y : Subscription} {result : Hub.Result}
      {now : Instant} (heard : e.Hears own s result now)
      (change : s.settled result now = .error y) : Overflows e own
  | verification {v : Verification} {own : List Exchange} {now : Instant}
      {done todo : List Subscription} {s y : Subscription}
      (confirms : Confirms v own now (done ++ s :: todo) done)
      (change : v.change? now s = some (.error y)) : Overflows (confirm v) own
  | lookahead {settings : Sweep.Settings} {own : List Exchange} {t : Instant}
      (reading : ⟨.now, t⟩ ∈ own) (far : settings.lookahead?.bind t.add? = none) :
      Overflows (sweep settings) own

/-- An operation breaks down with a call that breaks down, with a renewal, or for an instant that
is out of range. -/
def Breaks (e : Errand) (own : List Exchange) : Prop :=
  (∃ c, ⟨.subscriptions c, none⟩ ∈ own) ∨ (∃ limit rows, ⟨.renewAll limit rows, none⟩ ∈ own) ∨
    e.Overflows own

/-- A handshake that was answered ends with a write, and a callback that was applied has written
all rows. -/
def Ends (e : Errand) (own : List Exchange) : Result → Prop
  | .subscribed _ => Heard own → ∃ before s y a result now,
    own = before ++ [⟨.subscriptions (.update y), some a⟩] ∧ e.Hears before s result now ∧
      s.settled result now = .ok y
  | .confirmed (.ok _) => ∃ v now rows, e = confirm v ∧ Confirms v own now rows rows
  | _ => True

def conduct (e : Errand) : Conduct Result where
  asks := e.Asks
  ends := e.Ends
  breaks := e.Breaks

/-! ## The flows keep to it -/

variable {e : Errand} {own : List Exchange} {s : Subscription}

theorem keeps_unheard {r : Except Service.Error Subscription}
    (silent : ∀ x ∈ own, x.heard? = none) :
    (Flow.done (.subscribed r)).Keeps e.conduct own := by
  rintro ⟨x, hx, result, heard⟩
  rw [silent x hx] at heard
  cases heard

theorem keeps_handshake (takes : e.Takes own s) :
    ((Service.handshake s).run.bind (.done <| .subscribed ·)).Keeps e.conduct own := by
  refine keeps_ask ⟨s, takes, rfl⟩ fun result => ?_
  refine keeps_ask trivial fun now => ?_
  have heard : e.Hears (own ++ [⟨.hub .subscribe s.hubRequest, result⟩] ++ [⟨.now, now⟩]) s result
      now := ⟨own, takes, by rw [List.append_assoc]; rfl⟩
  show Flow.Keeps _ (((Service.applyHubResult s result now).bind _).bind _) _
  rw [bind_assoc]
  refine keeps_applyHubResult ?_ ?_ ?_ ?_
  · intro y change
    exact .handshake heard change
  · intro y change
    exact Or.inr (Or.inr (.handshake heard change))
  · intro y
    exact Or.inl ⟨_, List.mem_concat_self⟩
  · intro y a outcome change
    have ends : ∀ r, e.Ends (_ ++ [⟨.subscriptions (.update y), some a⟩]) (.subscribed r) :=
      fun _ _ => ⟨_, s, y, a, result, now, rfl, heard, change⟩
    match outcome with
    | .ok response => exact ends (.ok y)
    | .error (.hub e) => exact ends (.error (.hub e))
    | .error (.persistence e) => exact ends (.error (.persistence e))

theorem subscribe_eq (d : Defaults) (r : CreateRequest) :
    Service.subscribe d r =
      if r.violations.isEmpty then
        match Hub.checkLease (lease d r) d.maxLeaseSeconds with
        | .error e => throw (.invalidRequest e.message)
        | .ok () => Service.prepare d r.channelId (lease d r) >>= Service.handshake
      else throw (.invalidRequest r.violations.message) := by
  unfold Service.subscribe Service.validate
  split <;> rfl

theorem keeps_subscribe (d : Defaults) (r : CreateRequest) :
    (subscribe d r).flow.Keeps (subscribe d r).conduct [] := by
  unfold flow
  simp only [subscribe_eq]
  split
  case isFalse => exact keeps_unheard (List.forall_mem_nil _)
  case isTrue =>
    cases check : Hub.checkLease (lease d r) d.maxLeaseSeconds with
    | error e => exact keeps_unheard (List.forall_mem_nil _)
    | ok u =>
      simp only
      have admitted : Admits d r := check
      refine keeps_ask trivial fun found => ?_
      match found with
      | none => exact Or.inl ⟨_, List.mem_concat_self⟩
      | some (.error _) => exact keeps_unheard (by simp [Exchange.heard?])
      | some (.ok (some s)) => exact keeps_handshake (.again admitted)
      | some (.ok none) =>
        refine keeps_ask trivial fun id => ?_
        refine keeps_ask trivial fun t => ?_
        show Flow.Keeps _ (((((Flow.ofOption (Subscription.new? id r.channelId d.callbackUrl
          d.hubUrl (lease d r) d.secret t)).bind _).bind _).bind _).bind _) _
        cases new : Subscription.new? id r.channelId d.callbackUrl d.hubUrl (lease d r)
            d.secret t with
        | none =>
          have far : t.addSeconds? (lease d r) = none := Option.map_eq_none_iff.mp new
          exact Or.inr (Or.inr (.lease admitted List.mem_concat_self far))
        | some y =>
          have draft := Drafts.draft admitted new
          refine keeps_ask draft fun created => ?_
          match created with
          | none => exact Or.inl ⟨_, List.mem_concat_self⟩
          | some (.error _) => exact keeps_unheard (by simp [Exchange.heard?])
          | some (.ok s) => exact keeps_handshake (.anew draft)

theorem keeps_renew (id : Uuid) : (renew id).flow.Keeps (renew id).conduct [] := by
  refine keeps_ask trivial fun found => ?_
  match found with
  | none => exact Or.inl ⟨_, List.mem_concat_self⟩
  | some (.error _) => exact keeps_unheard (by simp [Exchange.heard?])
  | some (.ok none) => exact keeps_unheard (by simp [Exchange.heard?])
  | some (.ok (some s)) => exact keeps_handshake .stored

theorem keeps_unsubscribe (id : Uuid) :
    (unsubscribe id).flow.Keeps (unsubscribe id).conduct [] := by
  refine keeps_ask trivial fun found => ?_
  match found with
  | none => exact Or.inl ⟨_, List.mem_concat_self⟩
  | some (.error _) => trivial
  | some (.ok none) => trivial
  | some (.ok (some s)) =>
    refine keeps_ask trivial fun result => ?_
    refine keeps_ask rfl fun deleted => ?_
    match deleted with
    | none => exact Or.inl ⟨_, List.mem_concat_self⟩
    | some (.error _) => trivial
    | some (.ok _) => trivial

theorem Confirms.skip {v : Verification} {now : Instant} {done todo : List Subscription}
    (h : Confirms v own now (done ++ s :: todo) done) (same : v.change? now s = none) :
    Confirms v own now (done ++ [s] ++ todo) (done ++ [s]) := by
  obtain ⟨writes, split, why, all⟩ := h
  refine ⟨writes, by rw [List.append_assoc, List.singleton_append]; exact split, ?_, ?_⟩
  · intro x hx
    obtain ⟨r, hr, rest⟩ := why x hx
    exact ⟨r, List.mem_append_left _ hr, rest⟩
  · intro r hr c change
    rcases List.mem_append.mp hr with hr | hr
    · exact all r hr c change
    · rw [List.mem_singleton.mp hr, same] at change
      cases change

theorem Confirms.write {v : Verification} {now : Instant} {done todo : List Subscription}
    {y a : Subscription} (h : Confirms v own now (done ++ s :: todo) done)
    (change : v.change? now s = some (.ok y)) :
    Confirms v (own ++ [⟨.subscriptions (.update y), some (.ok a)⟩]) now (done ++ [s] ++ todo)
      (done ++ [s]) := by
  obtain ⟨writes, split, why, all⟩ := h
  refine ⟨writes ++ [⟨.subscriptions (.update y), some (.ok a)⟩], ?_, ?_, ?_⟩
  · rw [split, List.append_assoc, List.append_assoc]
    rfl
  · intro x hx
    rcases List.mem_append.mp hx with hx | hx
    · obtain ⟨r, hr, rest⟩ := why x hx
      exact ⟨r, List.mem_append_left _ hr, rest⟩
    · exact ⟨s, List.mem_concat_self, y, a, change,
        List.mem_singleton.mp hx⟩
  · intro r hr c changed
    rcases List.mem_append.mp hr with hr | hr
    · obtain ⟨z, b, ok, hb⟩ := all r hr c changed
      exact ⟨z, b, ok, List.mem_append_left _ hb⟩
    · rw [List.mem_singleton.mp hr, change] at changed
      cases changed
      exact ⟨y, a, rfl, List.mem_concat_self⟩

theorem keeps_recordAll {v : Verification} {own : List Exchange} {now : Instant}
    {todo : List Subscription} {next : Unit → ExceptT Service.Error Flow Nat}
    (done : List Subscription) (confirms : Confirms v own now (done ++ todo) done)
    (rest : ∀ own, Confirms v own now (done ++ todo) (done ++ todo) →
      ((next ()).run.bind (.done <| .confirmed ·)).Keeps (confirm v).conduct own) :
    ((Service.recordAll v now todo >>= next).run.bind (.done <| .confirmed ·)).Keeps
      (confirm v).conduct own := by
  induction todo generalizing done own with
  | nil =>
    apply rest own
    rw [List.append_nil] at *
    exact confirms
  | cons s todo ih =>
    have shift : done ++ s :: todo = done ++ [s] ++ todo := by
      rw [List.append_assoc, List.singleton_append]
    rw [shift] at rest
    cases change : v.change? now s with
    | none =>
      simp only [Service.recordAll, change]
      exact ih (done ++ [s]) (confirms.skip change) rest
    | some changed =>
      simp only [Service.recordAll, change]
      cases changed with
      | error y => exact Or.inr (Or.inr (.verification confirms change))
      | ok y =>
        refine keeps_ask (.verification confirms change) fun written => ?_
        match written with
        | none => exact Or.inl ⟨_, List.mem_concat_self⟩
        | some (.error _) => trivial
        | some (.ok _) => exact ih (done ++ [s]) (confirms.write change) rest

theorem keeps_confirm (v : Verification) : (confirm v).flow.Keeps (confirm v).conduct [] := by
  refine keeps_ask trivial fun now => ?_
  refine keeps_ask trivial fun found => ?_
  match found with
  | none => exact Or.inl ⟨_, List.mem_concat_self⟩
  | some (.error _) => trivial
  | some (.ok rows) =>
    refine keeps_recordAll [] ⟨[], rfl, ?_, ?_⟩ fun own all => ⟨v, now, rows, rfl, all⟩
    · intro x hx
      cases hx
    · intro s hs
      cases hs

/-! ## The flow of a sweep -/

theorem Breaks.sweep_append {settings : Sweep.Settings} (h : (sweep settings).Breaks own)
    (x : Exchange) : (sweep settings).Breaks (own ++ [x]) := by
  rcases h with ⟨c, h⟩ | ⟨limit, rows, h⟩ | h
  · exact Or.inl ⟨c, List.mem_append_left _ h⟩
  · exact Or.inr (Or.inl ⟨limit, rows, List.mem_append_left _ h⟩)
  · cases h with
    | lookahead reading far =>
      exact Or.inr (Or.inr (.lookahead (List.mem_append_left _ reading) far))
    | handshake heard change =>
      obtain ⟨before, takes, -⟩ := heard
      rcases takes.operation with ⟨d, r, other⟩ | ⟨id, other⟩
      · cases other
      · cases other

def sweeping (settings : Sweep.Settings) : Conduct (Except Sweep.Error Sweep.Report) where
  asks := (sweep settings).Asks
  ends _ _ := True
  breaks := (sweep settings).Breaks

theorem keeps_countReport {settings : Sweep.Settings} (r : Sweep.Report) (own : List Exchange) :
    ((Sweep.countReport r).bind fun _ => .done (.ok r)).Keeps (sweeping settings) own := by
  refine keeps_ask trivial fun _ => ?_
  refine keeps_ask trivial fun _ => ?_
  refine keeps_ask trivial fun _ => ?_
  refine keeps_ask trivial fun _ => ?_
  exact keeps_ask trivial fun _ => trivial

theorem keeps_sweepLocked (settings : Sweep.Settings) (own : List Exchange)
    (unjoined : Unjoined own) :
    (Sweep.sweepLocked settings).Keeps (sweeping settings) own := by
  refine keeps_ask trivial fun now => ?_
  show Flow.Keeps _ ((Flow.bind (Flow.ofOption (settings.lookahead?.bind now.add?)) _).bind _) _
  cases reach : settings.lookahead?.bind now.add? with
  | none =>
    exact Or.inr (Or.inr (.lookahead List.mem_concat_self reach))
  | some before =>
    refine keeps_ask ⟨settings, rfl, rfl⟩ fun found => ?_
    match found with
    | none => exact Or.inl ⟨_, List.mem_concat_self⟩
    | some (.error _) => exact keeps_ask trivial fun _ => trivial
    | some (.ok rows) =>
      refine keeps_ask ⟨?_, ⟨settings, rfl⟩, before, settings.batchSize, ?_⟩ fun renewals => ?_
      · intro x hx
        rcases List.mem_append.mp hx with hx | hx
        · rcases List.mem_append.mp hx with hx | hx
          · exact unjoined x hx
          · rw [List.mem_singleton.mp hx]
            exact id
        · rw [List.mem_singleton.mp hx]
          exact id
      · exact List.mem_concat_self
      match renewals with
      | none =>
        exact Or.inr (Or.inl ⟨_, _, List.mem_concat_self⟩)
      | some renewals =>
        refine keeps_ask trivial fun stopped => ?_
        cases stopped with
        | true => exact keeps_countReport _ _
        | false =>
          refine keeps_ask trivial fun now' => ?_
          refine keeps_ask ⟨settings, rfl⟩ fun marked => ?_
          match marked with
          | none => exact Or.inl ⟨_, List.mem_concat_self⟩
          | some (.error _) => exact keeps_countReport _ _
          | some (.ok _) => exact keeps_countReport _ _

theorem keeps_sweep (settings : Sweep.Settings) :
    (sweep settings).flow.Keeps (sweep settings).conduct [] := by
  refine keeps_ask trivial fun free => ?_
  cases free with
  | false => trivial
  | true =>
    have unjoined : Unjoined [⟨.lockSweeps, true⟩] := by
      intro x hx
      rw [List.mem_singleton.mp hx]
      exact id
    have locked : ((Sweep.sweepLocked settings).ensuring (Flow.request .unlockSweeps)).Keeps
        (sweeping settings) [⟨.lockSweeps, true⟩] := by
      refine keeps_ensuring (fun _ _ h => h) ?_ ?_ (keeps_sweepLocked settings _ unjoined)
      · intro own broken
        exact keeps_ask trivial fun _ => broken.sweep_append _
      · intro own r _
        exact keeps_ask trivial fun _ => trivial
    exact keeps_bind (fun _ _ h => h) (fun _ h => h) (fun _ _ _ => trivial) locked

/-- Every operation keeps to its conduct. -/
theorem keeps (e : Errand) : e.flow.Keeps e.conduct [] := by
  cases e with
  | subscribe d r => exact keeps_subscribe d r
  | renew id => exact keeps_renew id
  | unsubscribe id => exact keeps_unsubscribe id
  | confirm v => exact keeps_confirm v
  | sweep settings => exact keeps_sweep settings

end Errand

/-! ## Renewals -/

namespace Sweep

/-- The hub has answered about the row of a renewal, and the clock was read. -/
def Hears (own : List Exchange) (s : Subscription) (result : Hub.Result) (now : Instant) : Prop :=
  own = [⟨.stopped, false⟩, ⟨.hubUnlessStopped s.hubRequest, some result⟩, ⟨.now, now⟩]

/-- What the renewal of a row may ask for. -/
def Asks (s : Subscription) (own : List Exchange) : Request → Prop
  | .stopped | .now => True
  | .hubUnlessStopped q => q = s.hubRequest
  | .subscriptions (.update y) =>
    ∃ result now, Hears own s result now ∧ s.settled result now = .ok y
  | _ => False

def Breaks (s : Subscription) (own : List Exchange) : Prop :=
  (∃ c, ⟨.subscriptions c, none⟩ ∈ own) ∨
    ∃ result now y, Hears own s result now ∧ s.settled result now = .error y

/-- A renewal that was not skipped ends with a write. -/
def Ends (s : Subscription) (own : List Exchange) (outcome : Renewal) : Prop :=
  outcome ≠ .skipped → ∃ before y a result now,
    own = before ++ [⟨.subscriptions (.update y), some a⟩] ∧ Hears before s result now ∧
      s.settled result now = .ok y

def conduct (s : Subscription) : Conduct Renewal where
  asks := Asks s
  ends := Ends s
  breaks := Breaks s

theorem keeps_renewOne (s : Subscription) : (renewOne s).Keeps (conduct s) [] := by
  refine keeps_ask trivial fun stopped => ?_
  cases stopped with
  | true => exact fun tried => absurd rfl tried
  | false =>
    refine keeps_ask rfl fun heard => ?_
    match heard with
    | none => exact fun tried => absurd rfl tried
    | some result =>
      refine keeps_ask trivial fun now => ?_
      show Flow.Keeps _ ((Service.applyHubResult s result now).bind _) _
      refine keeps_applyHubResult ?_ ?_ ?_ ?_
      · intro y change
        exact ⟨result, now, rfl, change⟩
      · intro y change
        exact Or.inr ⟨result, now, y, rfl, change⟩
      · intro y
        exact Or.inl ⟨_, List.mem_concat_self⟩
      · intro y a outcome change
        have ends : ∀ o, Ends s (_ ++ [⟨.subscriptions (.update y), some a⟩]) o :=
          fun _ _ => ⟨_, y, a, result, now, rfl, rfl, change⟩
        cases outcome with
        | ok response => exact ends .renewed
        | error e => exact ends .failed

end Sweep

/-- A move in the renewal of a row that its sweep has found. -/
structure Errand.Renews (pre : List (Move Errand)) (m : Move Errand) (r : Subscription) : Prop where
  within : m.actor.renewal ≠ none
  found : ∃ before limit rows, r ∈ rows ∧
    ⟨.subscriptions (.findExpiring before limit), some (.ok rows)⟩ ∈
      past ⟨m.actor.thread, none⟩ pre

theorem Errand.calls {pre : List (Move Errand)} {m : Move Errand} {c : Store.SubscriptionCall}
    (conforms : Conforms Errand.conduct Sweep.conduct pre m)
    (request : m.deed.request = .subscriptions c) :
    (m.actor.renewal = none ∧ m.operation.Asks (past m.actor pre) (.subscriptions c)) ∨
      ∃ r, Errand.Renews pre m r ∧ Sweep.Asks r (past m.actor pre) (.subscriptions c) := by
  unfold Conforms at conforms
  rw [request] at conforms
  cases alone : m.actor.renewal with
  | none =>
    rw [alone] at conforms
    exact Or.inl ⟨rfl, conforms⟩
  | some k =>
    rw [alone] at conforms
    obtain ⟨limit, rows, r, own, ⟨unjoined, -, before, n, found⟩, row, -, whole, asked⟩ := conforms
    have within : m.actor.renewal ≠ none := by
      rw [alone]
      exact Option.some_ne_none k
    rw [whole unjoined] at asked
    exact Or.inr ⟨r, ⟨within, before, n, rows, List.mem_of_getElem? row, found⟩, asked⟩

theorem Errand.orderly {w : Shared} {ms : List (Move Errand)} {s : System Errand Errand.Result}
    (run : Run Errand.flow (.start w) ms s) : Orderly Errand.conduct Sweep.conduct ms s :=
  run.orderly Errand.keeps Sweep.keeps_renewOne

end WebSub
