import WebSub.Proofs.Interleaving.Endings
import WebSub.Proofs.Store.Interchange
import WebSub.Proofs.Sweep.Progress
import WebSub.Proofs.Sweep.Shutdown

/-!
# Each row on its own

A sweep under given circumstances: what the clock shows, what the hub answers about each due row
and which writes fail. However its renewals are interleaved, each row becomes what its own answer
makes of it, and the report counts these.
-/

namespace WebSub.Sweep

open Interleaving
open Store (Subscriptions)

/-! ## Circumstances -/

/-- What a sweep meets; the due rows are told apart by their places. -/
structure Circumstances where
  /-- What the clock shows all the time. -/
  now : Instant
  answer : Nat → Hub.Result
  /-- Why the write of a row fails, if it does. -/
  unwritten : Nat → Option Store.Error
  /-- Why the marking of what has run out fails, if it does. -/
  unmarked : Option Store.Error

namespace Circumstances

variable (c : Circumstances) (due : List Subscription)

def fault? : Option Nat → Store.SubscriptionCall → Option Store.Error
  | some k, .update _ => c.unwritten k
  | none, .markLapsed _ => c.unmarked
  | _, _ => none

/-- A call to the store fails, or is answered by the store. -/
def stored (w : Shared) (place : Option Nat) (call : Store.SubscriptionCall) : call.Answer :=
  match c.fault? place call with
  | some e => some (.error e)
  | none => (w.subscriptions.answer call).1

/-- A move of the sweep or of one of its renewals is answered as the circumstances tell. -/
def Meets (m : Move Errand) : Prop :=
  match m.deed with
  | .answered ⟨.now, t⟩ => t = c.now
  | .answered ⟨.hubUnlessStopped _, a⟩ =>
    ∀ k result, m.actor.renewal = some k → a = some result → result = c.answer k
  | .answered ⟨.subscriptions call, a⟩ => a = c.stored m.before m.actor.renewal call
  | _ => True

theorem Meets.stored {c : Circumstances} {m : Move Errand} (h : c.Meets m)
    {call : Store.SubscriptionCall} {a : call.Answer}
    (deed : m.deed = .answered ⟨.subscriptions call, a⟩) :
    a = c.stored m.before m.actor.renewal call := by
  unfold Meets at h
  rw [deed] at h
  exact h

theorem stored_update (w : Shared) (k : Nat) (y : Subscription) :
    c.stored w (some k) (.update y) = match c.unwritten k with
      | some e => some (.error e)
      | none => (w.subscriptions.answer (.update y)).1 := rfl

theorem stored_markLapsed (w : Shared) (t : Instant) :
    c.stored w none (.markLapsed t) = match c.unmarked with
      | some e => some (.error e)
      | none => some (.ok (w.subscriptions.rows.countP (·.isLapsed t))) := by
  rw [← Subscriptions.answer_markLapsed_eq]
  rfl

/-- The hub accepts the row at a place, and the row is written. -/
def persists (k : Nat) : Bool := (c.answer k).isOk && (c.unwritten k).isNone

def outcome (k : Nat) : Renewal := if c.persists k then .renewed else .failed

/-- What the renewals make of a row: if it is due, what its own answer makes of it, unless its
write fails. -/
def made (r : Subscription) : Subscription :=
  match due.findIdx? (·.id == r.id) with
  | none => r
  | some k =>
    match c.unwritten k, r.settled (c.answer k) c.now with
    | none, .ok y => y
    | _, _ => r

theorem made_of_due {c : Circumstances} {due : List Subscription} {k : Nat} {r : Subscription}
    (nodup : (due.map (·.id)).Nodup) (at_k : due[k]? = some r) :
    c.made due r = match c.unwritten k, r.settled (c.answer k) c.now with
      | none, .ok y => y
      | _, _ => r := by
  unfold made
  rw [findIdx?_of_nodup nodup at_k]

/-- What a sweep makes of the rows. -/
def leaves (rows : List Subscription) : List Subscription :=
  match c.unmarked with
  | none => (rows.map (c.made due)).map fun r => (r.markExpired c.now).1
  | some _ => rows.map (c.made due)

def lapsed (rows : List Subscription) : Nat :=
  match c.unmarked with
  | none => (rows.map (c.made due)).countP (·.isLapsed c.now)
  | some _ => 0

def report (rows : List Subscription) : Report :=
  .ofRenewals ((List.range due.length).map c.outcome) (c.lapsed due rows)

end Circumstances

theorem Circumstances.answerable (c : Circumstances) {v : Shared} (running : v.stopped = false)
    (reading : IsReading c.now) (a : Actor) (o : Errand) (q : Request) (known : q ≠ .freshId) :
    ∃ x v', v.Answers v' q x ∧ c.Meets ⟨a, o, v, .answered ⟨q, x⟩, v'⟩ := by
  cases q with
  | now => exact ⟨c.now, v, ⟨reading, rfl⟩, rfl⟩
  | freshId => exact absurd rfl known
  | subscriptions call =>
    cases fault : c.fault? a.renewal call with
    | some e =>
      refine ⟨some (.error e), v, Or.inr ⟨⟨e, rfl⟩, rfl⟩, ?_⟩
      show _ = c.stored v a.renewal call
      rw [Circumstances.stored, fault]
    | none =>
      refine ⟨_, _, Or.inl ⟨rfl, rfl⟩, ?_⟩
      show _ = c.stored v a.renewal call
      rw [Circumstances.stored, fault]
  | events call => exact ⟨_, _, Or.inl ⟨rfl, rfl⟩, trivial⟩
  | hub mode p => exact ⟨c.answer 0, v, rfl, trivial⟩
  | hubUnlessStopped p =>
    refine ⟨some (c.answer (a.renewal.getD 0)), v, ⟨by simp [running], rfl⟩, ?_⟩
    intro k result place same
    simp only at place
    rw [place] at same
    exact (Option.some.inj same).symm
  | stopped => exact ⟨v.stopped, v, ⟨rfl, rfl⟩, trivial⟩
  | handle id n => exact ⟨.ok (), _, rfl, trivial⟩
  | lockSweeps => exact ⟨!v.sweeping, _, ⟨rfl, rfl⟩, trivial⟩
  | unlockSweeps => exact ⟨(), _, rfl, trivial⟩
  | renewAll n rows => exact ⟨none, v, rfl, trivial⟩
  | count metric n => exact ⟨(), v, rfl, trivial⟩

/-- The rows that are due are found, and none of them is granted a lease that ends out of range. -/
structure Feasible (settings : Settings) (c : Circumstances) (w : Shared)
    (due : List Subscription) : Prop where
  reading : IsReading c.now
  listed : ∃ before, settings.lookahead?.bind c.now.add? = some before ∧
    (w.subscriptions.answer (.findExpiring before settings.batchSize)).1 = some (.ok due)
  settles : ∀ (k : Nat) r, due[k]? = some r → ∃ y, r.settled (c.answer k) c.now = .ok y

/-- A sweep that meets its circumstances, without a shutdown, while no other one takes the lock and
nobody else changes the subscriptions. -/
structure Undisturbed (settings : Settings) (c : Circumstances) (w : Shared)
    (ms : List (Move Errand)) (s : System Errand Errand.Result) (i : Nat) : Prop where
  solo : Solo settings w ms s i
  running : s.shared.stopped = false
  free : w.sweeping = false
  unlocked : ∀ m ∈ ms, m.actor.thread ≠ i → m.after.sweeping = m.before.sweeping
  meets : ∀ m ∈ ms, m.actor.thread = i → c.Meets m

variable {settings : Settings} {c : Circumstances} {w : Shared} {ms pre post : List (Move Errand)}
  {s s' : System Errand Errand.Result} {i k : Nat} {m : Move Errand} {due : List Subscription}
  {r y : Subscription}

namespace Undisturbed

theorem before (h : Undisturbed settings c w ms s i) (split : ms = pre ++ m :: post) :
    ∃ s₁ s₂, Undisturbed settings c w pre s₁ i ∧ Step Errand.flow s₁ (some m) s₂ := by
  obtain ⟨s₁, s₂, first, step, -⟩ := h.solo.run.split split
  refine ⟨s₁, s₂, ?_, step⟩
  have within : ∀ m ∈ pre, m ∈ ms := fun m hm => by
    rw [split]
    exact List.mem_append_left _ hm
  refine ⟨⟨h.solo.ids, first, fun m hm => h.solo.mine m (within m hm),
    fun m hm => h.solo.alone m (within m hm)⟩,
    ?_, h.free, fun m hm => h.unlocked m (within m hm), fun m hm => h.meets m (within m hm)⟩
  rw [← step.allowed.1]
  exact running_of_run h.solo.run h.running (by rw [split]; simp)

theorem running_of_mem (h : Undisturbed settings c w ms s i) (hm : m ∈ ms) :
    m.before.stopped = false :=
  running_of_run h.solo.run h.running hm

/-! ## Before the rows are found -/

theorem answered_of_short (h : Undisturbed settings c w ms s i)
    (short : (past ⟨i, none⟩ ms).length < 3) (hm : m ∈ ms) (thread : m.actor.thread = i)
    {x : Exchange} (deed : m.deed = .answered x) :
    m.actor = ⟨i, none⟩ ∧ ∀ c, x.request ≠ .subscriptions c := by
  cases place : m.actor.renewal with
  | some k =>
    have actor : m.actor = ⟨i, some k⟩ := by rw [← thread, ← place]
    have own : x ∈ past ⟨i, some k⟩ ms := mem_past.mpr ⟨m, hm, actor, deed⟩
    rw [idle_of_short (orderly h.solo.run) h.solo.mine short k] at own
    cases own
  | none =>
    have actor : m.actor = ⟨i, none⟩ := by rw [← thread, ← place]
    refine ⟨actor, ?_⟩
    obtain ⟨pre, post, split⟩ := List.append_of_mem hm
    have steps := steps_of_sweep (orderly h.solo.run) h.solo.mine split actor
    rw [split, ← List.singleton_append, past_append, past_append, ← actor, past_of_answered deed,
      actor, List.length_append, List.length_append, List.length_singleton] at short
    rw [deed] at steps
    obtain ⟨q, a⟩ := x
    rintro call rfl
    cases call with
    | findExpiring reach limit =>
      obtain ⟨-, t, -, own⟩ := steps
      rw [own] at short
      simp at short
      omega
    | markLapsed t =>
      obtain ⟨head, rows, ended, joined, own⟩ := steps
      rw [own] at short
      simp at short
      omega
    | _ => exact steps.elim

theorem unlocked_of_new (h : Undisturbed settings c w ms s i) (new : past ⟨i, none⟩ ms = []) :
    s.shared.sweeping = false := by
  refine (h.solo.run.unchanged (·.sweeping) (fun _ _ => rfl) fun m hm => ?_).trans h.free
  by_cases thread : m.actor.thread = i
  · cases deed : m.deed with
    | called q => rw [((h.solo.run.allowed m hm).called deed).2]
    | answered x =>
      obtain ⟨actor, -⟩ := h.answered_of_short (by rw [new]; decide) hm thread deed
      have own : x ∈ past ⟨i, none⟩ ms := mem_past.mpr ⟨m, hm, actor, deed⟩
      rw [new] at own
      cases own
  · exact h.unlocked m hm thread

theorem subscriptions_of_short (h : Undisturbed settings c w ms s i)
    (short : (past ⟨i, none⟩ ms).length < 3) : s.shared.subscriptions = w.subscriptions := by
  refine h.solo.run.unchanged (·.subscriptions) (fun _ _ => rfl) fun m hm => ?_
  by_cases thread : m.actor.thread = i
  · exact (h.solo.run.allowed m hm).aside
      fun x deed => (h.answered_of_short short hm thread deed).2
  · exact h.solo.alone m hm thread

/-! ## What it is answered -/

theorem clock (h : Undisturbed settings c w ms s i) {j : Option Nat} {t : Instant}
    (read : ⟨.now, t⟩ ∈ past ⟨i, j⟩ ms) : t = c.now := by
  obtain ⟨m, hm, actor, deed⟩ := mem_past.mp read
  have meets := h.meets m hm (by rw [actor])
  unfold Circumstances.Meets at meets
  rw [deed] at meets
  exact meets

theorem not_stopped (h : Undisturbed settings c w ms s i) {j : Option Nat} :
    ⟨.stopped, true⟩ ∉ past ⟨i, j⟩ ms := by
  intro seen
  obtain ⟨m, hm, -, stopped⟩ := stopped_of_look h.solo.run seen
  rw [h.running_of_mem hm] at stopped
  cases stopped

theorem patient (h : Undisturbed settings c w ms s i) {j : Option Nat} :
    Patient (past ⟨i, j⟩ ms) := by
  intro p abandoned
  obtain ⟨m, hm, -, stopped⟩ := stopped_of_abandoned h.solo.run abandoned
  rw [h.running_of_mem hm] at stopped
  cases stopped

theorem heard (h : Undisturbed settings c w ms s i) {p : Hub.Request} {result : Hub.Result}
    (heard : ⟨.hubUnlessStopped p, some result⟩ ∈ past ⟨i, some k⟩ ms) : result = c.answer k := by
  obtain ⟨m, hm, actor, deed⟩ := mem_past.mp heard
  have meets := h.meets m hm (by rw [actor])
  unfold Circumstances.Meets at meets
  rw [deed] at meets
  exact meets k result (by rw [actor]) rfl

theorem locked (h : Undisturbed settings c w ms s i) :
    ⟨.lockSweeps, false⟩ ∉ past ⟨i, none⟩ ms := by
  intro tried
  obtain ⟨m, hm, actor, deed⟩ := mem_past.mp tried
  obtain ⟨pre, post, split⟩ := List.append_of_mem hm
  obtain ⟨s₁, s₂, first, step⟩ := h.before split
  have steps := steps_of_sweep (orderly h.solo.run) h.solo.mine split actor
  rw [deed] at steps
  obtain ⟨before, -, allowed⟩ := step.allowed
  have held : false = !m.before.sweeping := (allowed.answered deed).1
  rw [before, first.unlocked_of_new steps] at held
  cases held

theorem listed (h : Undisturbed settings c w ms s i) (feasible : Feasible settings c w due)
    {before : Instant} {n : Nat} {a : Store.SubscriptionCall.Answer (.findExpiring before n)}
    (found : ⟨.subscriptions (.findExpiring before n), a⟩ ∈ past ⟨i, none⟩ ms) :
    a = some (.ok due) := by
  obtain ⟨m, hm, actor, deed⟩ := mem_past.mp found
  obtain ⟨pre, post, split⟩ := List.append_of_mem hm
  obtain ⟨s₁, s₂, first, step⟩ := h.before split
  have steps := steps_of_sweep (orderly h.solo.run) h.solo.mine split actor
  have meets := (h.meets m hm (by rw [actor])).stored deed
  rw [deed] at steps
  obtain ⟨rfl, t, reach, own⟩ := steps
  obtain rfl : t = c.now := first.clock (j := none) (by rw [own]; simp)
  obtain ⟨before', reach', listed⟩ := feasible.listed
  rw [reach] at reach'
  cases reach'
  rw [meets, actor, step.allowed.1]
  show (s₁.shared.subscriptions.answer _).1 = _
  rw [first.subscriptions_of_short (by rw [own]; simp)]
  exact listed

theorem due_of_found (h : Undisturbed settings c w ms s i) (feasible : Feasible settings c w due)
    {own : List Exchange} {rows : List Subscription} (found : Found settings own rows)
    (within : own ⊆ past ⟨i, none⟩ ms) : rows = due := by
  obtain ⟨t, before, -, rfl⟩ := found
  have same := h.listed feasible (show ⟨.subscriptions (.findExpiring before settings.batchSize),
    some (.ok rows)⟩ ∈ past ⟨i, none⟩ ms from within (by simp))
  cases same
  rfl

theorem due_of_renewal (h : Undisturbed settings c w ms s i) (feasible : Feasible settings c w due)
    (hm : m ∈ ms) (actor : m.actor = ⟨i, some k⟩) : taken i ms = due := by
  obtain ⟨pre, post, split⟩ := List.append_of_mem hm
  obtain ⟨s₁, s₂, first, -⟩ := h.before split
  obtain ⟨rows, r, found, -, -⟩ :=
    steps_of_renewal (orderly h.solo.run) h.solo.mine split actor
  rw [split, taken_of_found found]
  exact first.due_of_found feasible found (List.Subset.refl _)

theorem written (h : Undisturbed settings c w ms s i) (feasible : Feasible settings c w due)
    (at_k : due[k]? = some r) {a : Option (Except Store.Error Subscription)}
    (wrote : ⟨.subscriptions (.update y), a⟩ ∈ past ⟨i, some k⟩ ms) :
    (∃ e, c.unwritten k = some e ∧ a = some (.error e)) ∨
      (c.unwritten k = none ∧ ∃ b, a = some (.ok b)) := by
  obtain ⟨m, hm, actor, deed⟩ := mem_past.mp wrote
  have meets := (h.meets m hm (by rw [actor])).stored deed
  rw [actor, Circumstances.stored_update] at meets
  cases fault : c.unwritten k with
  | some e =>
    rw [fault] at meets
    exact Or.inl ⟨e, rfl, meets⟩
  | none =>
    rw [fault] at meets
    refine Or.inr ⟨rfl, ?_⟩
    obtain ⟨pre, post, split⟩ := List.append_of_mem hm
    obtain ⟨s₁, s₂, first, step⟩ := h.before split
    have taken := h.due_of_renewal feasible hm actor
    obtain ⟨found, steps⟩ := steps_of_taken h.solo split actor (by rw [taken]; exact at_k)
    rw [deed] at steps
    obtain ⟨result, t, -, change⟩ := steps
    rcases Subscriptions.answer_update m.before.subscriptions y with
      ⟨-, -, missing⟩ | ⟨⟨b, fine⟩, -⟩
    · -- The row is still there.
      have stands := first.solo.stands
      have within : r ∈ w.subscriptions.rows := by
        refine stands.within r ?_
        rw [found.tells.1, taken]
        exact List.mem_of_getElem? at_k
      have present : swept i pre r ∈ m.before.subscriptions.rows := by
        rw [step.allowed.1, stands.rows]
        exact List.mem_map_of_mem within
      refine absurd ?_ (missing _ present)
      rw [Subscription.id_of_origin (stands.origins r within),
        Subscription.id_of_origin (Subscription.settled_origin change)]
    · exact ⟨b, meets.trans fine⟩

/-! ## It does not break down -/

theorem renewal_unbroken (h : Undisturbed settings c w ms s i)
    (feasible : Feasible settings c w due) (at_k : due[k]? = some r) :
    ¬ Breaks r (past ⟨i, some k⟩ ms) := by
  rintro (⟨call, broken⟩ | ⟨result, t, y, own, overflow⟩)
  · obtain ⟨m, hm, actor, deed⟩ := mem_past.mp broken
    obtain ⟨pre, post, split⟩ := List.append_of_mem hm
    have taken := h.due_of_renewal feasible hm actor
    obtain ⟨-, steps⟩ := steps_of_taken h.solo split actor (by rw [taken]; exact at_k)
    rw [deed] at steps
    cases call with
    | update y =>
      rcases h.written feasible at_k broken with ⟨e, -, fault⟩ | ⟨-, b, fine⟩
      · cases fault
      · cases fine
    | _ => exact steps.elim
  · obtain rfl : result = c.answer k := h.heard (p := r.hubRequest) (by rw [own]; simp)
    obtain rfl : t = c.now := h.clock (j := some k) (by rw [own]; simp)
    obtain ⟨y', change⟩ := feasible.settles k r at_k
    rw [overflow] at change
    cases change

theorem joined (h : Undisturbed settings c w ms s i) (feasible : Feasible settings c w due)
    {n : Nat} {rows : List Subscription} : ⟨.renewAll n rows, none⟩ ∉ past ⟨i, none⟩ ms := by
  intro broken
  obtain ⟨own, rest, k, r, path, found, row, breaks⟩ :=
    breaks_of_joined h.solo.run h.solo.mine broken
  rw [h.due_of_found feasible found (by rw [path]; exact List.subset_append_left _ _)] at row
  exact h.renewal_unbroken feasible row breaks

theorem unbroken (h : Undisturbed settings c w ms s i) (feasible : Feasible settings c w due) :
    ¬ (Errand.sweep settings).Breaks (past ⟨i, none⟩ ms) := by
  rintro (⟨call, broken⟩ | ⟨n, rows, broken⟩ | overflow)
  · obtain ⟨m, hm, actor, deed⟩ := mem_past.mp broken
    obtain ⟨pre, post, split⟩ := List.append_of_mem hm
    have steps := steps_of_sweep (orderly h.solo.run) h.solo.mine split actor
    rw [deed] at steps
    cases call with
    | findExpiring before n => cases h.listed feasible broken
    | markLapsed t =>
      have meets := (h.meets m hm (by rw [actor])).stored deed
      rw [actor, Circumstances.stored_markLapsed] at meets
      split at meets <;> cases meets
    | _ => exact steps.elim
  · exact h.joined feasible broken
  · cases overflow with
    | lookahead reading far =>
      obtain ⟨before, reach, -⟩ := feasible.listed
      rw [h.clock reading, reach] at far
      cases far
    | handshake heard change =>
      obtain ⟨before, takes, -⟩ := heard
      rcases takes.operation with ⟨d, r, other⟩ | ⟨id, other⟩
      · cases other
      · cases other

/-! ## It goes on until it ends -/

theorem served (h : Undisturbed settings c w ms s i) (feasible : Feasible settings c w due) :
    Served s.shared fun k d v' => c.Meets ⟨⟨i, k⟩, .sweep settings, s.shared, d, v'⟩ := by
  refine ⟨fun β k q next calling known single => ?_, fun n rows a => trivial⟩
  obtain ⟨x, v', answers, meets⟩ :=
    c.answerable h.running feasible.reading ⟨i, k⟩ (.sweep settings) q known
  exact exists_line_step next calling single answers meets trivial

theorem goes_on (h : Undisturbed settings c w ms s i) (feasible : Feasible settings c w due)
    {t : Interleaving.Task Errand.Result} (at_i : s.threads[i]? = some ⟨.sweep settings, t⟩)
    (unended : t.result? = none) :
    (∃ t', t.Quiet t') ∨ ∃ k d v' t', t.Step s.shared k d v' t' ∧
      c.Meets ⟨⟨i, k⟩, .sweep settings, s.shared, d, v'⟩ := by
  refine Sweep.goes_on h.solo.run (h.served feasible) at_i unended fun broken => ?_
  exact h.unbroken feasible ((Errand.orderly h.solo.run).broken at_i broken)

/-! ## What it comes to -/

theorem outcome_eq (h : Undisturbed settings c w ms s i) (feasible : Feasible settings c w due)
    (nodup : (due.map (·.id)).Nodup) (at_k : due[k]? = some r) {o : Renewal}
    (outcome : Outcome r (past ⟨i, some k⟩ ms) o) :
    o = c.outcome k ∧
      (past ⟨i, some k⟩ ms).filterMap Exchange.sent? = [.hubUnlessStopped r.hubRequest] ∧
      ((past ⟨i, some k⟩ ms).findSome? wrote?).getD r = c.made due r := by
  rw [Circumstances.made_of_due nodup at_k]
  generalize own_eq : past ⟨i, some k⟩ ms = own at outcome
  cases outcome with
  | early => exact absurd (by rw [own_eq]; simp) (h.not_stopped (j := some k))
  | late => exact absurd (by rw [own_eq]; simp) (h.patient (j := some k) r.hubRequest)
  | @tried result t y a change =>
    obtain rfl : result = c.answer k := h.heard (p := r.hubRequest) (by rw [own_eq]; simp)
    obtain rfl : t = c.now := h.clock (j := some k) (by rw [own_eq]; simp)
    unfold Circumstances.outcome Circumstances.persists
    rw [change]
    rcases h.written feasible at_k (y := y) (a := some a) (by rw [own_eq]; simp) with
      ⟨e, fault, failed⟩ | ⟨fine, b, done⟩
    · cases failed
      rw [fault]
      refine ⟨?_, rfl, rfl⟩
      cases c.answer k <;> rfl
    · cases done
      rw [fine]
      refine ⟨?_, rfl, rfl⟩
      cases c.answer k <;> rfl

theorem closed (h : Undisturbed settings c w ms s i) (feasible : Feasible settings c w due)
    {head rest : List Exchange} {rows : List Subscription} {ended : List Renewal}
    (joined : Joined settings head rows ended) (own : past ⟨i, none⟩ ms = head ++ rest) :
    taken i ms = due ∧ (due.map (·.id)).Nodup ∧
      ∃ out, Closed renewal due (fun k => past ⟨i, some k⟩ ms) (fun k => calls ⟨i, some k⟩ ms)
        ended out := by
  obtain ⟨taken, closed⟩ := closed_of_joined h.solo joined own
  obtain rfl : rows = due := by
    obtain ⟨head, found, rfl⟩ := joined
    refine h.due_of_found feasible found ?_
    rw [own, List.append_assoc]
    exact List.subset_append_left _ _
  refine ⟨taken, ?_, closed⟩
  rw [← taken]
  exact h.solo.stands.nodup

theorem outcomes (h : Undisturbed settings c w ms s i) (feasible : Feasible settings c w due)
    {head rest : List Exchange} {rows : List Subscription} {ended : List Renewal}
    (joined : Joined settings head rows ended) (own : past ⟨i, none⟩ ms = head ++ rest) :
    ended.Perm ((List.range due.length).map c.outcome) := by
  obtain ⟨-, nodup, out, closed⟩ := h.closed feasible joined own
  suffices same : out = (List.range due.length).map c.outcome by
    rw [← same]
    exact closed.ended
  refine List.ext_getElem? fun k => ?_
  cases row : due[k]? with
  | none =>
    have outside := List.getElem?_eq_none_iff.mp row
    rw [List.getElem?_eq_none (by rw [closed.length]; exact outside),
      List.getElem?_eq_none (by simpa using outside)]
  | some r =>
    obtain ⟨inside, -⟩ := List.getElem?_eq_some_iff.mp row
    obtain ⟨o, at_k, outcome, -⟩ := closed.each k r row
    rw [at_k, (h.outcome_eq feasible nodup row outcome).1, List.getElem?_map,
      List.getElem?_range inside]
    rfl

theorem called_once (h : Undisturbed settings c w ms s i) (feasible : Feasible settings c w due)
    {head rest : List Exchange} {rows : List Subscription} {ended : List Renewal}
    (joined : Joined settings head rows ended) (own : past ⟨i, none⟩ ms = head ++ rest)
    (at_k : due[k]? = some r) : calls ⟨i, some k⟩ ms = [.hubUnlessStopped r.hubRequest] := by
  obtain ⟨-, nodup, out, closed⟩ := h.closed feasible joined own
  obtain ⟨o, -, outcome, sent⟩ := closed.each k r at_k
  exact (sent h.patient).trans (h.outcome_eq feasible nodup at_k outcome).2.1

theorem renewed_eq (h : Undisturbed settings c w ms s i) (feasible : Feasible settings c w due)
    {head rest : List Exchange} {rows : List Subscription} {ended : List Renewal}
    (joined : Joined settings head rows ended) (own : past ⟨i, none⟩ ms = head ++ rest)
    (stored : r ∈ w.subscriptions.rows) : renewed i ms r = c.made due r := by
  obtain ⟨taken, nodup, out, closed⟩ := h.closed feasible joined own
  have stands := h.solo.stands
  by_cases there : ∃ x ∈ due, x.id = r.id
  · obtain ⟨x, hx, hid⟩ := there
    obtain rfl := List.inj_on_of_nodup_map h.solo.ids
      (stands.within x (by rw [taken]; exact hx)) stored hid
    obtain ⟨k, row⟩ := List.mem_iff_getElem?.mp hx
    obtain ⟨o, -, outcome, -⟩ := closed.each k x row
    rw [renewed_of_taken stands.nodup (by rw [taken]; exact row)]
    exact (h.outcome_eq feasible nodup row outcome).2.2
  · rw [renewed_of_not_taken fun x hx hid => there ⟨x, by rw [← taken]; exact hx, hid⟩]
    unfold Circumstances.made
    rw [List.findIdx?_eq_none_iff.mpr fun x hx => by simpa using fun hid => there ⟨x, hx, hid⟩]

theorem rows_of_unmarked (h : Undisturbed settings c w ms s i)
    (unmarked : (past ⟨i, none⟩ ms).findSome? marked? = none) :
    s.shared.subscriptions.rows = w.subscriptions.rows.map (renewed i ms) := by
  rw [h.solo.stands.rows]
  refine List.map_congr_left fun r _ => ?_
  unfold swept
  rw [unmarked]

theorem rows_of_renewed (h : Undisturbed settings c w ms s i) (feasible : Feasible settings c w due)
    {head rest : List Exchange} {rows : List Subscription} {ended : List Renewal}
    (joined : Joined settings head rows ended) (own : past ⟨i, none⟩ ms = head ++ rest)
    (unmarked : (past ⟨i, none⟩ ms).findSome? marked? = none) :
    s.shared.subscriptions.rows = w.subscriptions.rows.map (c.made due) := by
  rw [h.rows_of_unmarked unmarked]
  exact List.map_congr_left fun r stored => h.renewed_eq feasible joined own stored

theorem marking (h : Undisturbed settings c w ms s i) (feasible : Feasible settings c w due)
    {head rest : List Exchange} {rows : List Subscription} {ended : List Renewal} {t : Instant}
    {a : Store.SubscriptionCall.Answer (.markLapsed t)} (joined : Joined settings head rows ended)
    (own : past ⟨i, none⟩ ms =
      head ++ [⟨.stopped, false⟩, ⟨.now, t⟩] ++ ⟨.subscriptions (.markLapsed t), a⟩ :: rest) :
    a = match c.unmarked with
      | some e => some (.error e)
      | none => some (.ok (c.lapsed due w.subscriptions.rows)) := by
  obtain ⟨pre, m, post, split, actor, deed, before⟩ := past_split own
  obtain ⟨s₁, s₂, first, step⟩ := h.before split
  obtain rfl : t = c.now := h.clock (j := none) (by rw [own]; simp)
  have meets := (h.meets m (by rw [split]; simp) (by rw [actor])).stored deed
  rw [actor, Circumstances.stored_markLapsed] at meets
  have unmarked : (past ⟨i, none⟩ pre).findSome? marked? = none := by
    rw [before, List.findSome?_append, joined.unmarked]
    rfl
  rw [meets, step.allowed.1, first.rows_of_renewed feasible joined before unmarked]
  unfold Circumstances.lapsed
  cases c.unmarked <;> rfl

theorem unmarked_of_closing {rest : List Exchange} (closing : ∀ x ∈ rest, IsClosing x.request) :
    rest.findSome? marked? = none := by
  rw [List.findSome?_eq_none_iff]
  rintro ⟨q, a⟩ hx
  have close := closing _ hx
  cases q with
  | count | unlockSweeps => rfl
  | _ => exact close.elim

theorem rows_of_marking (h : Undisturbed settings c w ms s i) (feasible : Feasible settings c w due)
    {head marks rest : List Exchange} {rows : List Subscription} {ended : List Renewal} {n : Nat}
    (joined : Joined settings head rows ended) (marking : Marking marks n)
    (closing : ∀ x ∈ rest, IsClosing x.request) (own : past ⟨i, none⟩ ms = head ++ marks ++ rest) :
    n = c.lapsed due w.subscriptions.rows ∧
      s.shared.subscriptions.rows = c.leaves due w.subscriptions.rows := by
  have own' : past ⟨i, none⟩ ms = head ++ (marks ++ rest) := by rw [own, List.append_assoc]
  cases marking with
  | stopped => exact absurd (by rw [own]; simp) (h.not_stopped (j := none))
  | @marked t =>
    have told := h.marking feasible joined (show past ⟨i, none⟩ ms =
      head ++ [⟨.stopped, false⟩, ⟨.now, t⟩] ++
        ⟨.subscriptions (.markLapsed t), some (.ok n)⟩ :: rest by rw [own]; simp)
    obtain rfl : t = c.now := h.clock (j := none) (by rw [own]; simp)
    cases fault : c.unmarked with
    | some e =>
      rw [fault] at told
      cases told
    | none =>
      rw [fault] at told
      cases told
      refine ⟨rfl, ?_⟩
      have marked : (past ⟨i, none⟩ ms).findSome? marked? = some c.now := by
        rw [own', List.findSome?_append, joined.unmarked]
        rfl
      rw [Circumstances.leaves, fault, h.solo.stands.rows, List.map_map]
      refine List.map_congr_left fun r stored => ?_
      unfold swept
      rw [marked, h.renewed_eq feasible joined own' stored]
      rfl
  | @fault t e =>
    have told := h.marking feasible joined (show past ⟨i, none⟩ ms =
      head ++ [⟨.stopped, false⟩, ⟨.now, t⟩] ++
        ⟨.subscriptions (.markLapsed t), some (.error e)⟩ :: rest by rw [own]; simp)
    cases fault : c.unmarked with
    | none =>
      rw [fault] at told
      cases told
    | some e' =>
      have unmarked : (past ⟨i, none⟩ ms).findSome? marked? = none := by
        rw [own', List.findSome?_append, joined.unmarked, List.findSome?_append,
          unmarked_of_closing closing]
        rfl
      rw [Circumstances.lapsed, Circumstances.leaves, fault,
        h.rows_of_renewed feasible joined own' unmarked]
      exact ⟨rfl, rfl⟩

/-- A sweep that has ended reports what the circumstances make of the due rows. -/
theorem ended (h : Undisturbed settings c w ms s i) (feasible : Feasible settings c w due)
    {t : Interleaving.Task Errand.Result} (at_i : s.threads[i]? = some ⟨.sweep settings, t⟩)
    {x : Errand.Result} (result : t.result? = some x) :
    x = .swept (.ok (c.report due w.subscriptions.rows)) ∧
      s.shared.subscriptions.rows = c.leaves due w.subscriptions.rows ∧
      ∀ (k : Nat) r, due[k]? = some r →
        calls ⟨i, some k⟩ ms = [.hubUnlessStopped r.hubRequest] := by
  obtain ⟨x, rfl, course⟩ := (orderly h.solo.run).ended at_i result
  generalize own_eq : past ⟨i, none⟩ ms = own at course
  cases course with
  | refused => exact absurd (by rw [own_eq]; simp) h.locked
  | @unlisted t' before e rest reach closing =>
    have found := h.listed feasible
      (show ⟨.subscriptions (.findExpiring before settings.batchSize), some (.error e)⟩ ∈
        past ⟨i, none⟩ ms by rw [own_eq]; simp)
    cases found
  | @reported head marks rest rows ended lapsed joined marking closing =>
    have own : past ⟨i, none⟩ ms = head ++ (marks ++ rest) := by rw [own_eq, List.append_assoc]
    obtain ⟨rfl, rows_eq⟩ := h.rows_of_marking feasible joined marking closing own_eq
    refine ⟨?_, rows_eq, fun k r at_k => h.called_once feasible joined own at_k⟩
    rw [ofRenewals_perm (h.outcomes feasible joined own)]
    rfl

theorem unmarked_of_not_marks (unmarked : ∀ m ∈ ms, m.actor.thread = i → ¬ Marks m) :
    (past ⟨i, none⟩ ms).findSome? marked? = none := by
  rw [List.findSome?_eq_none_iff]
  intro x hx
  obtain ⟨m, hm, actor, deed⟩ := mem_past.mp hx
  unfold marked?
  split
  case h_1 t n => exact absurd ⟨t, _, deed⟩ (unmarked m hm (by rw [actor]))
  case h_2 => rfl

theorem rows_during (h : Undisturbed settings c w ms s i) (feasible : Feasible settings c w due)
    (unmarked : ∀ m ∈ ms, m.actor.thread = i → ¬ Marks m) :
    List.Forall₂ (fun r r' => r' = r ∨ r' = c.made due r) w.subscriptions.rows
      s.shared.subscriptions.rows := by
  rw [h.rows_of_unmarked (unmarked_of_not_marks unmarked), List.forall₂_map_right_iff,
    List.forall₂_same]
  intro r stored
  generalize made : renewed i ms r = r'
  have left := left_of_renewed h.solo stored
  rw [made] at left
  cases left with
  | untouched => exact Or.inl rfl
  | @renewed k result t _ a row path change =>
    obtain ⟨m, hm, actor, -⟩ := mem_past.mp
      (show (⟨.now, t⟩ : Exchange) ∈ past ⟨i, some k⟩ ms by rw [path]; simp)
    have taken := h.due_of_renewal feasible hm actor
    have nodup := h.solo.stands.nodup
    rw [taken] at row nodup
    obtain rfl : result = c.answer k := h.heard (p := r.hubRequest) (by rw [path]; simp)
    obtain rfl : t = c.now := h.clock (j := some k) (by rw [path]; simp)
    rw [Circumstances.made_of_due nodup row, change]
    rcases h.written feasible row (y := r') (a := some (.ok a)) (by rw [path]; simp) with
      ⟨e, -, failed⟩ | ⟨fine, -⟩
    · cases failed
    · rw [fine]
      exact Or.inr rfl

theorem rows_of_joined (h : Undisturbed settings c w ms s i) (feasible : Feasible settings c w due)
    {n : Nat} {rows : List Subscription} {ended : List Renewal}
    (joined : ⟨.renewAll n rows, some ended⟩ ∈ past ⟨i, none⟩ ms)
    (unmarked : ∀ m ∈ ms, m.actor.thread = i → ¬ Marks m) :
    s.shared.subscriptions.rows = w.subscriptions.rows.map (c.made due) := by
  obtain ⟨own, rest, path⟩ := List.append_of_mem joined
  obtain ⟨pre, m, post, split, actor, deed, before⟩ := past_split path
  have steps := steps_of_sweep (orderly h.solo.run) h.solo.mine split actor
  rw [deed, before] at steps
  obtain ⟨rfl, found⟩ := steps
  refine h.rows_of_renewed feasible ⟨own, found, rfl⟩ (show past ⟨i, none⟩ ms =
    (own ++ [⟨.renewAll settings.width rows, some ended⟩]) ++ rest by rw [path]; simp) ?_
  exact unmarked_of_not_marks unmarked

end Undisturbed

/-! ## The whole -/

theorem Circumstances.report_counts (c : Circumstances) (due rows : List Subscription) :
    (c.report due rows).succeeded = (List.range due.length).countP c.persists ∧
      (c.report due rows).skipped = 0 ∧ (c.report due rows).attempted = due.length ∧
      (c.report due rows).succeeded + (c.report due rows).failed = due.length := by
  have none_skipped : ((List.range due.length).map c.outcome).count .skipped = 0 := by
    refine List.count_eq_zero.mpr fun skipped => ?_
    obtain ⟨k, -, same⟩ := List.mem_map.mp skipped
    unfold outcome at same
    split at same <;> cases same
  have all := counts_add ((List.range due.length).map c.outcome)
  rw [none_skipped, List.length_map, List.length_range] at all
  refine ⟨?_, none_skipped, all, all⟩
  show ((List.range due.length).map c.outcome).count .renewed = _
  rw [List.count_eq_countP, List.countP_map]
  refine List.countP_congr fun k _ => ?_
  unfold outcome
  simp only [Function.comp_apply]
  split <;> simp [*]

/-- What holds of an undisturbed sweep at any time. -/
structure Isolated (settings : Settings) (c : Circumstances) (w : Shared) (due : List Subscription)
    (ms : List (Move Errand)) (s : System Errand Errand.Result) (i : Nat) : Prop where
  /-- Until it has ended, some step of it is possible, and it takes only so many steps. -/
  goes_on : ∀ t, s.threads[i]? = some ⟨.sweep settings, t⟩ → t.result? = none →
    (∃ t', t.Quiet t') ∨ ∃ k d v' t', t.Step s.shared k d v' t' ∧
      c.Meets ⟨⟨i, k⟩, .sweep settings, s.shared, d, v'⟩
  stops : ∀ f : Nat → Interleaving.Task Errand.Result, ∃ n, ¬ (f n).Goes (f (n + 1))
  /-- A call leaves for a due row only, with that row's own parameters. -/
  called : ∀ m ∈ ms, m.actor.thread = i → ∀ p, m.deed = .called p →
    ∃ k r, m.actor = ⟨i, some k⟩ ∧ due[k]? = some r ∧ p = .hubUnlessStopped r.hubRequest
  /-- Before the marking, each row is what it was or what its own answer makes of it, -/
  during : (∀ m ∈ ms, m.actor.thread = i → ¬ Marks m) →
    List.Forall₂ (fun r r' => r' = r ∨ r' = c.made due r) w.subscriptions.rows
      s.shared.subscriptions.rows
  /-- and after the renewals, all rows are what their answers make of them. -/
  renewed : (∀ m ∈ ms, m.actor.thread = i → ¬ Marks m) →
    (∃ n rows ended, ⟨.renewAll n rows, some ended⟩ ∈ past ⟨i, none⟩ ms) →
      s.shared.subscriptions.rows = w.subscriptions.rows.map (c.made due)
  /-- In the end it has called once for each due row and reports what the circumstances make of
  the rows. -/
  ended : ∀ t x, s.threads[i]? = some ⟨.sweep settings, t⟩ → t.result? = some x →
    x = .swept (.ok (c.report due w.subscriptions.rows)) ∧
      s.shared.subscriptions.rows = c.leaves due w.subscriptions.rows ∧
      ∀ (k : Nat) r, due[k]? = some r → calls ⟨i, some k⟩ ms = [.hubUnlessStopped r.hubRequest]
  counts : (c.report due w.subscriptions.rows).attempted = due.length ∧
    (c.report due w.subscriptions.rows).succeeded + (c.report due w.subscriptions.rows).failed =
      due.length ∧
    due.length ≤ settings.batchSize ∧ (c.report due w.subscriptions.rows).skipped = 0 ∧
    (c.report due w.subscriptions.rows).succeeded = (List.range due.length).countP c.persists
  /-- Neither the order nor the number of renewals at a time makes a difference. -/
  alike : ∀ n ms' s' j t t' x x', Undisturbed { settings with concurrency := n } c w ms' s' j →
    s.threads[i]? = some ⟨.sweep settings, t⟩ → t.result? = some x →
    s'.threads[j]? = some ⟨.sweep { settings with concurrency := n }, t'⟩ → t'.result? = some x' →
      x' = x ∧ s'.shared.subscriptions.rows = s.shared.subscriptions.rows

/-- Whatever the hub answers, whichever writes fail and however the renewals are interleaved, a
sweep treats each due row on its own and counts it once. -/
theorem sweep_isolates (h : Undisturbed settings c w ms s i)
    (feasible : Feasible settings c w due) : Isolated settings c w due ms s i where
  goes_on := fun _ at_i unended => h.goes_on feasible at_i unended
  stops := Interleaving.Task.stops
  called := by
    intro m hm thread p deed
    obtain ⟨k, r, actor, row, same⟩ := called_of_solo h.solo hm thread deed
    rw [h.due_of_renewal feasible hm actor] at row
    exact ⟨k, r, actor, row, same⟩
  during := h.rows_during feasible
  renewed := fun unmarked ⟨_, _, _, joined⟩ => h.rows_of_joined feasible joined unmarked
  ended := fun _ _ at_i result => h.ended feasible at_i result
  counts := by
    obtain ⟨succeeded, skipped, attempted, all⟩ := c.report_counts due w.subscriptions.rows
    obtain ⟨before, -, listed⟩ := feasible.listed
    exact ⟨attempted, all, Store.Subscriptions.length_of_findExpiring listed, skipped, succeeded⟩
  alike := by
    intro n ms' s' j t t' x x' other at_i result at_j result'
    have feasible' : Feasible { settings with concurrency := n } c w due :=
      ⟨feasible.reading, feasible.listed, feasible.settles⟩
    obtain ⟨told, rows, -⟩ := h.ended feasible at_i result
    obtain ⟨told', rows', -⟩ := other.ended feasible' at_j result'
    exact ⟨told'.trans told.symm, rows'.trans rows.symm⟩

/-! ## Samples -/

namespace Undisturbed

theorem start (ids : w.subscriptions.UniqueIds) (running : w.stopped = false)
    (free : w.sweeping = false) : Undisturbed settings c w [] (.start w) i where
  solo := ⟨ids, .start, fun _ hm => absurd hm List.not_mem_nil,
    fun _ hm => absurd hm List.not_mem_nil⟩
  running := running
  free := free
  unlocked := fun _ hm => absurd hm List.not_mem_nil
  meets := fun _ hm => absurd hm List.not_mem_nil

theorem quiet (h : Undisturbed settings c w ms s i) (step : Step Errand.flow s none s')
    (running : s'.shared.stopped = false) : Undisturbed settings c w ms s' i where
  solo := ⟨h.solo.ids, h.solo.run.quiet step, h.solo.mine, h.solo.alone⟩
  running := running
  free := h.free
  unlocked := h.unlocked
  meets := h.meets

theorem move (h : Undisturbed settings c w ms s i) (step : Step Errand.flow s (some m) s')
    (running : s'.shared.stopped = false) (thread : m.actor.thread = i)
    (operation : m.operation = .sweep settings) (meets : c.Meets m) :
    Undisturbed settings c w (ms ++ [m]) s' i where
  solo := by
    refine ⟨h.solo.ids, h.solo.run.move step, ?_, ?_⟩
    · intro m' hm' thread'
      rcases List.mem_append.mp hm' with hm' | hm'
      · exact h.solo.mine m' hm' thread'
      · rw [List.mem_singleton.mp hm']
        exact operation
    · intro m' hm' other
      rcases List.mem_append.mp hm' with hm' | hm'
      · exact h.solo.alone m' hm' other
      · rw [List.mem_singleton.mp hm'] at other
        exact absurd thread other
  running := running
  free := h.free
  unlocked := by
    intro m' hm' other
    rcases List.mem_append.mp hm' with hm' | hm'
    · exact h.unlocked m' hm' other
    · rw [List.mem_singleton.mp hm'] at other
      exact absurd thread other
  meets := by
    intro m' hm' thread'
    rcases List.mem_append.mp hm' with hm' | hm'
    · exact h.meets m' hm' thread'
    · rw [List.mem_singleton.mp hm']
      exact meets

end Undisturbed

/-- The clock stands still, and the hub accepts without naming a lease. -/
def calm : Circumstances := ⟨⟨0⟩, fun _ => .ok ⟨true, 202, none⟩, fun _ => none, none⟩

/-- What the sweep makes of the only row. -/
def renewedRow : Subscription := { dueRow 60 with expiresAt := ⟨60000000000⟩ }

/-- The hub accepts the only row. -/
theorem sweep_isolates_renewed :
    ∃ ms s, Undisturbed plainSettings calm (plainShared 60) ms s 0 ∧
      Feasible plainSettings calm (plainShared 60) [dueRow 60] ∧
      (s.threads[0]?).bind (·.task.result?) = some (.swept (.ok ⟨1, 1, 0, 0, 0⟩)) ∧
      s.shared.subscriptions.rows = [renewedRow] ∧
      Isolated plainSettings calm (plainShared 60) [dueRow 60] ms s 0 := by
  have h : Undisturbed plainSettings calm (plainShared 60) [] (.start (plainShared 60)) 0 :=
    .start (plainShared_uniqueIds 60) rfl rfl
  have h := h.quiet (.begin _ (.sweep plainSettings)) rfl
  have h := h.move (Step.answer (i := 0) rfl true (by exact ⟨rfl, rfl⟩) id False.elim)
    rfl rfl rfl (by exact trivial)
  have h := h.move (Step.read (i := 0) rfl) rfl rfl rfl (by exact rfl)
  have h := h.move (Step.answer (i := 0) rfl (some (Except.ok [dueRow 60]))
    (by exact Or.inl ⟨(plainShared_findExpiring 60).symm, rfl⟩) id False.elim)
    rfl rfl rfl (by exact (plainShared_findExpiring 60).symm)
  -- Its renewal calls the hub and writes the row.
  have h := h.quiet (.quiet (i := 0) rfl .fork) rfl
  have h := h.quiet (.quiet (i := 0) rfl (.begin (by exact Nat.one_pos) rfl)) rfl
  have h := h.move (.move (i := 0) rfl
    (.renewal (k := 0) rfl (.answer (a := false) (by exact ⟨rfl, rfl⟩) id False.elim)))
    rfl rfl rfl (by exact trivial)
  have h := h.move (.move (i := 0) rfl (.renewal (k := 0) rfl (.call (by exact rfl))))
    rfl rfl rfl (by exact trivial)
  have h := h.move (.move (i := 0) rfl
    (.renewal (k := 0) rfl (.answer (a := some (.ok ⟨true, 202, none⟩))
      (by exact ⟨iff_of_false (Option.some_ne_none _) Bool.false_ne_true, rfl⟩) id fun _ => rfl)))
    rfl rfl rfl (by exact fun _ _ _ same => (Option.some.inj same).symm)
  have h := h.move (.move (i := 0) rfl
    (.renewal (k := 0) rfl (.answer (a := Instant.mk 0) (by exact ⟨isReading_epoch, rfl⟩)
      id False.elim)))
    rfl rfl rfl (by exact rfl)
  have h := h.move (.move (i := 0) rfl
    (.renewal (k := 0) rfl (.answer (a := some (.ok renewedRow)) (by exact Or.inl ⟨rfl, rfl⟩)
      id False.elim)))
    rfl rfl rfl (by exact rfl)
  have h := h.quiet (.quiet (i := 0) rfl (.finish (k := 0) rfl)) rfl
  -- Nothing has run out; the renewals are counted, and the lock is given back.
  have h := h.move (.move (i := 0) rfl (.joined ⟨rfl, rfl⟩)) rfl rfl rfl (by exact trivial)
  have h := h.move (Step.answer (i := 0) rfl false (by exact ⟨rfl, rfl⟩) id False.elim)
    rfl rfl rfl (by exact trivial)
  have h := h.move (Step.read (i := 0) rfl) rfl rfl rfl (by exact rfl)
  have h := h.move (Step.answer (i := 0) rfl (some (Except.ok 0)) (by exact Or.inl ⟨rfl, rfl⟩)
    id False.elim) rfl rfl rfl (by exact rfl)
  have h := h.move (Step.answer (i := 0) rfl () (by exact rfl) id False.elim)
    rfl rfl rfl (by exact trivial)
  have h := h.move (Step.answer (i := 0) rfl () (by exact rfl) id False.elim)
    rfl rfl rfl (by exact trivial)
  have h := h.move (Step.answer (i := 0) rfl () (by exact rfl) id False.elim)
    rfl rfl rfl (by exact trivial)
  have h := h.move (Step.answer (i := 0) rfl () (by exact rfl) id False.elim)
    rfl rfl rfl (by exact trivial)
  have h := h.move (Step.answer (i := 0) rfl () (by exact rfl) id False.elim)
    rfl rfl rfl (by exact trivial)
  have h := h.move (Step.answer (i := 0) rfl () (by exact rfl) id False.elim)
    rfl rfl rfl (by exact trivial)
  have feasible : Feasible plainSettings calm (plainShared 60) [dueRow 60] := by
    refine ⟨isReading_epoch, ⟨⟨0⟩, rfl, plainShared_findExpiring 60⟩, ?_⟩
    intro k r row
    rw [List.mem_singleton.mp (List.mem_of_getElem? row)]
    exact ⟨renewedRow, rfl⟩
  exact ⟨_, _, h, feasible, rfl, rfl, sweep_isolates h feasible⟩

/-- A row was stored with a lease that no instant is left for, and the hub does not name another:
nothing is reported, and the row stays as it was. -/
theorem sweep_breaks_down :
    ∃ ms s, Undisturbed plainSettings calm (plainShared 9000000000000000) ms s 0 ∧
      IsReading calm.now ∧
      (∃ before, plainSettings.lookahead?.bind calm.now.add? = some before ∧
        ((plainShared 9000000000000000).subscriptions.answer (.findExpiring before 1)).1 =
          some (.ok [dueRow 9000000000000000])) ∧
      (s.threads[0]?).map (·.task.rest) = some .crash ∧
      s.shared.subscriptions.rows = [dueRow 9000000000000000] := by
  have h : Undisturbed plainSettings calm (plainShared 9000000000000000) []
      (.start (plainShared 9000000000000000)) 0 :=
    .start (plainShared_uniqueIds 9000000000000000) rfl rfl
  have h := h.quiet (.begin _ (.sweep plainSettings)) rfl
  have h := h.move (Step.answer (i := 0) rfl true (by exact ⟨rfl, rfl⟩) id False.elim)
    rfl rfl rfl (by exact trivial)
  have h := h.move (Step.read (i := 0) rfl) rfl rfl rfl (by exact rfl)
  have h := h.move (Step.answer (i := 0) rfl (some (Except.ok [dueRow 9000000000000000]))
    (by exact Or.inl ⟨(plainShared_findExpiring 9000000000000000).symm, rfl⟩) id False.elim)
    rfl rfl rfl (by exact (plainShared_findExpiring 9000000000000000).symm)
  have h := h.quiet (.quiet (i := 0) rfl .fork) rfl
  have h := h.quiet (.quiet (i := 0) rfl (.begin (by exact Nat.one_pos) rfl)) rfl
  have h := h.move (.move (i := 0) rfl
    (.renewal (k := 0) rfl (.answer (a := false) (by exact ⟨rfl, rfl⟩) id False.elim)))
    rfl rfl rfl (by exact trivial)
  have h := h.move (.move (i := 0) rfl (.renewal (k := 0) rfl (.call (by exact rfl))))
    rfl rfl rfl (by exact trivial)
  have h := h.move (.move (i := 0) rfl
    (.renewal (k := 0) rfl (.answer (a := some (.ok ⟨true, 202, none⟩))
      (by exact ⟨iff_of_false (Option.some_ne_none _) Bool.false_ne_true, rfl⟩) id fun _ => rfl)))
    rfl rfl rfl (by exact fun _ _ _ same => (Option.some.inj same).symm)
  have h := h.move (.move (i := 0) rfl
    (.renewal (k := 0) rfl (.answer (a := Instant.mk 0) (by exact ⟨isReading_epoch, rfl⟩)
      id False.elim)))
    rfl rfl rfl (by exact rfl)
  -- No instant is left at which the lease would end: the renewal breaks down, and the sweep.
  have h := h.move (.move (i := 0) rfl (.broken (k := 0) rfl)) rfl rfl rfl (by exact trivial)
  have h := h.move (Step.answer (i := 0) rfl () (by exact rfl) id False.elim)
    rfl rfl rfl (by exact trivial)
  exact ⟨_, _, h, isReading_epoch, ⟨⟨0⟩, rfl, plainShared_findExpiring _⟩, rfl, rfl⟩

end WebSub.Sweep
