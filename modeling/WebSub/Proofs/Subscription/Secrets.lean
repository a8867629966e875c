import WebSub.Proofs.Delivery.Signature
import WebSub.Proofs.Hub.Client
import WebSub.Proofs.Interleaving.Upheld
import WebSub.Proofs.Subscription.Renewability

/-!
# The secret that the hub is given

A row keeps the secret with which it was subscribed to last, and repeated requests give the hub
that one. A process that was started with another secret checks pushes against its own, and only a
new subscription tells the hub.
-/

namespace WebSub

open Interleaving
open Service (Verification)
open Hub.Client (secretField)

/-! ## What the hub is given and what is checked -/

/-- The header that a hub sends along with a body, by the secret that it was given. -/
def Hub.signature (secret : Option String) (body : List UInt8) : Option (List UInt8) :=
  secret.map fun s => Verifier.bytesOf (signSha1 (Verifier.bytesOf s) body)

/-- The hub is given the secret that is checked, none if nothing is checked, and what it signs is
accepted. -/
structure Agrees (secret : String) (q : Hub.Request) : Prop where
  field : secretField q = if (Verifier.ofSecret secret).isDisabled then none else some secret
  accepted : ∀ body,
    (Verifier.ofSecret secret).verifyHeader body (Hub.signature (secretField q) body) = .ok ()

theorem agrees_of_secret {access : Settings.HubAccess} {q : Hub.Request}
    (same : q.secret = access.secret?) : Agrees access.secret q := by
  by_cases empty : access.secret = ""
  · have field : secretField q = none := by
      rw [Hub.Client.secretField_eq, same, Settings.HubAccess.secret?, if_pos empty]
      rfl
    refine ⟨?_, fun body => ?_⟩
    · rw [field, empty]
      rfl
    · rw [field, empty]
      rfl
  · have field : secretField q = some access.secret := by
      rw [Hub.Client.secretField_eq, same, Settings.HubAccess.secret?, if_neg empty]
      simp [empty]
    refine ⟨?_, fun body => ?_⟩
    · rw [field, Verifier.ofSecret_eq empty]
      rfl
    · rw [field]
      exact (Verifier.verifyHeader_map_bytesOf (Verifier.ofSecret access.secret)
        (some (signSha1 (Verifier.bytesOf access.secret) body))).trans
          (Verifier.verify_signSha1 access.secret body)

/-! ## Processes over one store -/

/-- A process: how it was configured, and what it has done so far. -/
structure Life where
  settings : Settings
  moves : List (Move Errand)

/-- Subscriptions and sweeps go by the settings. -/
def Errand.IsUnder (settings : Settings) : Errand → Prop
  | subscribe d _ => d = settings.hub.defaults
  | sweep s => s = settings.renewal.sweep
  | _ => True

/-- What a new process finds. -/
def Interleaving.Shared.restarted (w : Shared) : Shared :=
  { w with stopped := false, sweeping := false }

/-- Processes one after another, each from the rows that the one before has left. -/
inductive Lives (w : Shared) : List Life → Shared → Prop
  | none : Lives w [] w
  | next {ls : List Life} {v : Shared} {settings : Settings} {ms : List (Move Errand)}
      {s : System Errand Errand.Result} (before : Lives w ls v)
      (run : Run Errand.flow (.start v.restarted) ms s)
      (under : ∀ m ∈ ms, m.operation.IsUnder settings) :
      Lives w (ls ++ [⟨settings, ms⟩]) s.shared

/-! ## Where a secret comes from -/

namespace Errand

variable {settings : Settings} {ls : List Life} {w v : Shared} {ms : List (Move Errand)}
  {s : System Errand Result} {m : Move Errand} {e : Errand} {id : Uuid} {r r' y b : Subscription}

/-- The row was written by a subscription. -/
def Subscribed (ms : List (Move Errand)) (id : Uuid) : Prop :=
  ∃ m ∈ ms, ∃ d q, m.operation = .subscribe d q ∧ ∃ y b, y.id = id ∧
    (m.deed = .answered ⟨.subscriptions (.create y), some (.ok b)⟩ ∨
      m.deed = .answered ⟨.subscriptions (.update y), some (.ok b)⟩)

/-- The row has the secret of a process in which it was subscribed to. -/
def Sourced (ls : List Life) (r : Subscription) : Prop :=
  ∃ l ∈ ls, Subscribed l.moves r.id ∧ r.secret = l.settings.hub.secret?

theorem Sourced.congr (h : Sourced ls r) (id : r'.id = r.id) (secret : r'.secret = r.secret) :
    Sourced ls r' := by
  unfold Sourced
  rw [id, secret]
  exact h

theorem Sourced.later {ls' : List Life} (h : Sourced ls r) : Sourced (ls ++ ls') r := by
  obtain ⟨l, hl, found⟩ := h
  exact ⟨l, List.mem_append_left _ hl, found⟩

theorem Sourced.onward (h : Sourced (ls ++ [⟨settings, ms⟩]) r) (ms' : List (Move Errand)) :
    Sourced (ls ++ [⟨settings, ms ++ ms'⟩]) r := by
  obtain ⟨l, hl, ⟨m, hm, subscribed⟩, secret⟩ := h
  rcases List.mem_append.mp hl with earlier | now
  · exact ⟨l, List.mem_append_left _ earlier, ⟨m, hm, subscribed⟩, secret⟩
  · rw [List.mem_singleton] at now
    subst now
    exact ⟨_, List.mem_concat_self, ⟨m, List.mem_append_left _ hm, subscribed⟩, secret⟩

/-! ## What a process does to it -/

theorem change?_secret {v : Verification} {now : Instant}
    (change : v.change? now r = some (.ok y)) :
    y.id = r.id ∧ y.secret = r.secret := by
  cases v with
  | unsubscribe topicUrl => cases change
  | denied topicUrl reason =>
    cases change
    rw [Subscription.markFailed_eq]
    exact ⟨rfl, rfl⟩
  | subscribe topicUrl lease =>
    rw [Subscription.recordVerification_eq (Option.some.inj change)]
    exact ⟨rfl, rfl⟩

theorem settled_secret {result : Hub.Result} {now : Instant}
    (change : r.settled result now = .ok y) :
    y.id = r.id ∧ y.secret = r.secret := by
  rw [Subscription.settled_eq change]
  exact ⟨rfl, rfl⟩

theorem markExpired_secret (r : Subscription) (now : Instant) :
    (r.markExpired now).1.secret = r.secret := by
  rw [Subscription.markExpired_eq]
  split <;> rfl

theorem secret_of_drafts {d : Defaults} {q : CreateRequest} {own : List Exchange}
    (h : (subscribe d q).Drafts own y) : y.secret = d.secret := by
  cases h with
  | draft admitted new =>
    obtain ⟨u, -, rfl⟩ := Option.map_eq_some_iff.mp new
    rfl

theorem sourced_of_create (under : m.operation.IsUnder settings)
    (conforms : Conforms conduct Sweep.conduct ms m)
    (deed : m.deed = .answered ⟨.subscriptions (.create y), some (.ok b)⟩) :
    Sourced (ls ++ [⟨settings, ms ++ [m]⟩]) y := by
  rcases calls conforms (by rw [deed]; rfl) with ⟨-, drafts⟩ | ⟨r, -, asked⟩
  · have drafts : m.operation.Drafts (past m.actor ms) y := drafts
    generalize operation : m.operation = e at drafts under
    cases e with
    | subscribe d q =>
      obtain rfl : d = settings.hub.defaults := under
      refine ⟨_, List.mem_concat_self, ?_, secret_of_drafts drafts⟩
      exact ⟨m, List.mem_concat_self, _, q, operation, y, b, rfl, Or.inl deed⟩
    | _ => cases drafts
  · exact asked.elim

theorem sourced_of_writes (upheld : Upheld (Sourced (ls ++ [⟨settings, ms⟩])) ms v)
    (under : m.operation.IsUnder settings) (conforms : Conforms conduct Sweep.conduct ms m)
    (deed : m.deed = .answered ⟨.subscriptions (.update y), some (.ok b)⟩) :
    Sourced (ls ++ [⟨settings, ms ++ [m]⟩]) y := by
  have copied : ∀ a c v, ⟨.subscriptions c, some (.ok v)⟩ ∈ past a ms → ∀ r ∈ c.given v,
      y.id = r.id ∧ y.secret = r.secret → Sourced (ls ++ [⟨settings, ms ++ [m]⟩]) y := by
    intro a c v found r given same
    exact ((upheld.given a c v found r given).onward [m]).congr same.1 same.2
  rcases calls conforms (by rw [deed]; rfl) with
    ⟨-, writes⟩ | ⟨r, renews, result, t, -, change⟩
  · have writes : m.operation.Writes (past m.actor ms) y := writes
    generalize operation : m.operation = e at writes under
    generalize path : past m.actor ms = own at writes
    cases writes with
    | @handshake e own r y result t heard change =>
      obtain ⟨before, takes, rfl⟩ := heard
      have same := settled_secret change
      cases takes with
      | @again d q r admitted =>
        obtain rfl : d = settings.hub.defaults := under
        refine ⟨_, List.mem_concat_self, ?_, same.2⟩
        exact ⟨m, List.mem_concat_self, _, q, operation, y, b, rfl, Or.inr deed⟩
      | @anew e own y' r draft =>
        exact copied m.actor (.create y') r (by rw [path]; simp) r (List.mem_singleton.mpr rfl) same
      | @stored id r =>
        exact copied m.actor (.find id) (some r) (by rw [path]; simp) r
          (List.mem_singleton.mpr rfl) same
    | @verification v own t done todo r y confirms change =>
      obtain ⟨writes, rfl, -⟩ := confirms
      exact copied m.actor (.findByTopic v.topicUrl) (done ++ r :: todo) (by rw [path]; simp) r
        (by simp [Store.SubscriptionCall.given]) (change?_secret change)
  · obtain ⟨before, n, rows, row, found⟩ := renews.found
    exact copied _ _ _ found r row (settled_secret change)

theorem sourced_upheld (start : ∀ r ∈ w.subscriptions.rows, Sourced ls r)
    (run : Run flow (.start w) ms s) (under : ∀ m ∈ ms, m.operation.IsUnder settings) :
    Upheld (Sourced (ls ++ [⟨settings, ms⟩])) ms s.shared := by
  refine run.upheld (P := fun ms => Sourced (ls ++ [⟨settings, ms⟩])) ?_ ?_
  · intro r hr
    exact (start r hr).later
  · rintro pre m post s₁ s₂ rfl first step upheld
    have under' := under m (by simp)
    have conforms := ((orderly first).move step).moves _ _ [] rfl
    refine ⟨fun r sourced => sourced.onward [m], ?_, ?_, ?_⟩
    · intro y b deed
      exact sourced_of_create under' conforms deed
    · intro y b deed r hr same
      obtain ⟨-, -, -, secret, -⟩ := m.before.subscriptions.written_columns (y := y) (r := r)
      exact (sourced_of_writes upheld under' conforms deed).congr
        (m.before.subscriptions.written_id same) secret
    · intro r now sourced
      exact (sourced.onward [m]).congr (Store.Subscriptions.markExpired_id r now)
        (markExpired_secret r now)

theorem created_of_past {a : Actor} (run : Run flow (.start w) ms s)
    (created : ⟨.subscriptions (.create y), some (.ok r)⟩ ∈ past a ms) : r = y := by
  obtain ⟨m, hm, -, deed⟩ := mem_past.mp created
  obtain ⟨answer, -⟩ := (run.allowed m hm).answer deed (by simp)
  rcases Store.Subscriptions.answer_create m.before.subscriptions y with refused | ⟨ok, -⟩
  · rw [refused] at answer
    cases answer
  · rw [ok] at answer
    cases answer
    rfl

theorem secret_of_subscribe {q : Hub.Request} {d : Defaults} {request : CreateRequest}
    (run : Run flow (.start w) ms s) (conforms : Conforms conduct Sweep.conduct ms m)
    (operation : m.operation = .subscribe d request) (handshake : IsHandshake m.deed.request q) :
    q.secret = d.secret := by
  unfold Conforms at conforms
  rw [operation] at conforms
  generalize m.deed.request = asked at conforms handshake
  split at conforms
  case h_1 alone =>
    cases handshake with
    | asked =>
      obtain ⟨copy, takes, rfl⟩ := conforms
      generalize path : past m.actor ms = own at takes
      cases takes with
      | again admitted => rfl
      | @anew e own y r draft =>
        have created : ⟨.subscriptions (.create y), some (.ok copy)⟩ ∈ past m.actor ms := by
          rw [path]
          exact List.mem_concat_self
        rw [created_of_past run created]
        exact secret_of_drafts draft
    | unlessStopped => exact conforms.elim
  case h_2 k place =>
    obtain ⟨limit, rows, r, own, ⟨-, ⟨settings, sweeps⟩, -⟩, -⟩ := conforms
    cases sweeps

theorem sourced_of_handshake {q : Hub.Request}
    (upheld : Upheld (Sourced (ls ++ [⟨settings, ms⟩])) ms v)
    (conforms : Conforms conduct Sweep.conduct ms m) (other : ∀ d r, m.operation ≠ .subscribe d r)
    (handshake : IsHandshake m.deed.request q) :
    ∃ copy : Subscription, q = copy.hubRequest ∧ Sourced (ls ++ [⟨settings, ms⟩]) copy := by
  unfold Conforms at conforms
  generalize m.deed.request = asked at conforms handshake
  split at conforms
  case h_1 alone =>
    cases handshake with
    | asked =>
      obtain ⟨copy, takes, rfl⟩ := conforms
      refine ⟨copy, rfl, ?_⟩
      generalize operation : m.operation = e at takes other
      generalize path : past m.actor ms = own at takes
      cases takes with
      | again admitted => exact absurd rfl (other _ _)
      | anew draft =>
        cases draft with
        | draft admitted new => exact absurd rfl (other _ _)
      | @stored id =>
        exact upheld.given m.actor (.find id) (some copy) (by rw [path]; simp) copy
          (List.mem_singleton.mpr rfl)
    | unlessStopped => exact conforms.elim
  case h_2 k place =>
    obtain ⟨limit, rows, r, own, ⟨-, -, before, n, found⟩, row, -, -, asked⟩ := conforms
    cases handshake with
    | asked => exact asked.elim
    | unlessStopped =>
      obtain rfl := asked
      exact ⟨r, rfl, upheld.given _ _ _ found r (List.mem_of_getElem? row)⟩

end Errand

/-! ## Histories -/

section

open Errand (Sourced Subscribed)

variable {w v : Shared} {ls before after : List Life} {l : Life}

theorem Lives.split (lives : Lives w ls v) (h : ls = before ++ l :: after) :
    ∃ v s, Lives w before v ∧ Run Errand.flow (.start v.restarted) l.moves s ∧
      ∀ m ∈ l.moves, m.operation.IsUnder l.settings := by
  induction lives generalizing after with
  | none => simp at h
  | @next ls v settings ms s earlier run under ih =>
    rcases append_singleton_split h with ⟨after', -, split⟩ | ⟨rfl, rfl, -⟩
    · exact ih split
    · exact ⟨v, s, earlier, run, under⟩

/-- Every row that a process leaves has the secret of a process in which it was subscribed to. -/
theorem Lives.sourced (blank : w.subscriptions.rows = []) (lives : Lives w ls v) :
    ∀ r ∈ v.subscriptions.rows, Sourced ls r := by
  induction lives with
  | none =>
    rw [blank]
    exact List.forall_mem_nil _
  | @next ls v settings ms s earlier run under ih =>
    exact (Errand.sourced_upheld (w := v.restarted) ih run under).rows

/-- How far the secret that the hub is given is the one that is checked. -/
structure SecretsKept (ls : List Life) : Prop where
  /-- A subscription gives the hub what its process checks. -/
  subscribed : ∀ l ∈ ls, ∀ m ∈ l.moves, ∀ d r q, m.operation = .subscribe d r →
    IsHandshake m.deed.request q → Agrees l.settings.hub.secret q
  /-- A renewal gives it what a process did in which the row was subscribed to. -/
  repeated : ∀ before l after pre m post q, ls = before ++ l :: after → l.moves = pre ++ m :: post →
    (∀ d r, m.operation ≠ .subscribe d r) → IsHandshake m.deed.request q →
      ∃ copy : Subscription, q = copy.hubRequest ∧ ∃ o ∈ before ++ [⟨l.settings, pre⟩],
        Subscribed o.moves copy.id ∧ q.secret = o.settings.hub.secret? ∧
          (o.settings.hub.secret = l.settings.hub.secret → Agrees l.settings.hub.secret q)
  /-- As long as the secret stays the same, the hub is always given the one that is checked. -/
  unchanged : (∀ o ∈ ls, ∀ l ∈ ls, o.settings.hub.secret = l.settings.hub.secret) →
    ∀ l ∈ ls, ∀ m ∈ l.moves, ∀ q, IsHandshake m.deed.request q → Agrees l.settings.hub.secret q

theorem Lives.subscribed (lives : Lives w ls v) (split : ls = before ++ l :: after)
    {m : Move Errand} (hm : m ∈ l.moves) {d : Defaults} {r : CreateRequest} {q : Hub.Request}
    (operation : m.operation = .subscribe d r) (handshake : IsHandshake m.deed.request q) :
    Agrees l.settings.hub.secret q := by
  obtain ⟨v, s, -, run, under⟩ := lives.split split
  obtain ⟨pre, post, place⟩ := List.append_of_mem hm
  obtain ⟨s₁, s₂, first, -, -⟩ := run.split place
  have conforms := (Errand.orderly run).moves pre m post place
  have configured := under m hm
  rw [operation] at configured
  obtain rfl : d = l.settings.hub.defaults := configured
  exact agrees_of_secret (Errand.secret_of_subscribe first conforms operation handshake)

theorem Lives.repeated (blank : w.subscriptions.rows = []) (lives : Lives w ls v)
    (split : ls = before ++ l :: after) {pre post : List (Move Errand)} {m : Move Errand}
    (place : l.moves = pre ++ m :: post) {q : Hub.Request}
    (other : ∀ d r, m.operation ≠ .subscribe d r) (handshake : IsHandshake m.deed.request q) :
    ∃ copy : Subscription, q = copy.hubRequest ∧
      Sourced (before ++ [⟨l.settings, pre⟩]) copy := by
  obtain ⟨v, s, earlier, run, under⟩ := lives.split split
  obtain ⟨s₁, s₂, first, -, -⟩ := run.split place
  have under' : ∀ m ∈ pre, m.operation.IsUnder l.settings := by
    intro m hm
    exact under m (by rw [place]; exact List.mem_append_left _ hm)
  have sourced := earlier.sourced blank
  have upheld := Errand.sourced_upheld (w := v.restarted) sourced first under'
  have conforms := (Errand.orderly run).moves pre m post place
  exact Errand.sourced_of_handshake upheld conforms other handshake

/-- Over one store and any number of processes, whatever their settings: a subscription gives the
hub the secret that is checked, and a renewal the one of a process in which the row was subscribed
to. -/
theorem secrets_kept (blank : w.subscriptions.rows = []) (lives : Lives w ls v) :
    SecretsKept ls where
  subscribed := by
    intro l hl m hm d r q operation handshake
    obtain ⟨before, after, split⟩ := List.append_of_mem hl
    exact lives.subscribed split hm operation handshake
  repeated := by
    intro before l after pre m post q split place other handshake
    obtain ⟨copy, rfl, o, ho, subscribed, secret⟩ :=
      lives.repeated blank split place other handshake
    refine ⟨copy, rfl, o, ho, subscribed, secret, fun same => ?_⟩
    rw [← same]
    exact agrees_of_secret secret
  unchanged := by
    intro same l hl m hm q handshake
    obtain ⟨before, after, split⟩ := List.append_of_mem hl
    by_cases operation : ∃ d r, m.operation = .subscribe d r
    · obtain ⟨d, r, operation⟩ := operation
      exact lives.subscribed split hm operation handshake
    · obtain ⟨pre, post, place⟩ := List.append_of_mem hm
      obtain ⟨copy, rfl, o, ho, -, secret⟩ := lives.repeated blank split place
        (fun d r is => operation ⟨d, r, is⟩) handshake
      have agrees := agrees_of_secret (q := copy.hubRequest) secret
      rcases List.mem_append.mp ho with earlier | now
      · rw [same o (by rw [split]; exact List.mem_append_left _ earlier) l hl] at agrees
        exact agrees
      · rw [List.mem_singleton.mp now] at agrees
        exact agrees

/-! ## A secret that changes -/

def keyed (secret : String) : Settings where
  server := ⟨"127.0.0.1", 80, "/hook"⟩
  database := ⟨"sqlite::memory:", none, none, none, none, false⟩
  hub := ⟨"h", "c", secret, 60, 60, 10⟩
  renewal := .default
  metrics := ⟨false, "127.0.0.1:9000"⟩
  logFormat := .pretty

def keyedRow (status : Status) : Subscription :=
  { Errand.plainRow status none with secret := some "old" }

def keyedAnswer : Exchange :=
  ⟨.hub .subscribe (keyedRow .active).hubRequest, .ok ⟨true, 202, none⟩⟩

def keyedShared : Shared :=
  ⟨.table ⟨[keyedRow .active]⟩, .table {}, [.drawn 0], [], false, false⟩

theorem isUnder_of_replicate {settings : Settings} {o : Errand} (under : o.IsUnder settings)
    {ms : List (Move Errand)} {n : Nat} (same : ms.map (·.operation) = List.replicate n o) :
    ∀ m ∈ ms, m.operation.IsUnder settings := by
  intro m hm
  have mem := List.mem_map_of_mem (f := (·.operation)) hm
  rw [same] at mem
  rw [List.eq_of_mem_replicate mem]
  exact under

theorem subscribed_keyed :
    ∃ ms s, Run Errand.flow (.start .empty) ms s ∧
      (∀ m ∈ ms, m.operation.IsUnder (keyed "old")) ∧ s.shared = keyedShared := by
  have r : Run Errand.flow (.start .empty) [] (.start .empty) := .start
  have r := r.quiet (.begin _ (.subscribe (keyed "old").hub.defaults ⟨"a", none⟩))
  have r := r.move (Step.answer (i := 0) rfl (some (Except.ok none)) (by exact Or.inl ⟨rfl, rfl⟩)
    id False.elim)
  have r := r.move (Step.draw (i := 0) rfl (.drawn 0) List.not_mem_nil)
  have r := r.move (Step.read (i := 0) rfl)
  have r : Run Errand.flow (.start .empty) _
      ⟨⟨.table ⟨[keyedRow .pending]⟩, .table {}, [.drawn 0], [], false, false⟩, _⟩ :=
    r.move (Step.answer (i := 0) rfl _ (by exact Or.inl ⟨rfl, rfl⟩) id False.elim)
  have r := r.move (Step.call (i := 0) rfl (by exact trivial))
  have r := r.move (Step.answer (i := 0) rfl (Except.ok (Hub.Response.mk true 202 none))
    (by exact rfl) id fun _ => rfl)
  have r := r.move (Step.read (i := 0) rfl)
  have r : Run Errand.flow (.start .empty) _ ⟨keyedShared, _⟩ :=
    r.move (Step.answer (i := 0) rfl _ (by exact Or.inl ⟨rfl, rfl⟩) id False.elim)
  have under : Errand.IsUnder (keyed "old") (.subscribe (keyed "old").hub.defaults ⟨"a", none⟩) :=
    rfl
  exact ⟨_, _, r, isUnder_of_replicate (n := 8) under rfl, rfl⟩

theorem renewed_keyed :
    ∃ ms s, Run Errand.flow (.start keyedShared) ms s ∧
      (∀ m ∈ ms, m.operation.IsUnder (keyed "new")) ∧
        ∃ m ∈ ms, m.deed = .answered keyedAnswer := by
  have r : Run Errand.flow (.start keyedShared) [] (.start keyedShared) := .start
  have r := r.quiet (.begin _ (.renew (.drawn 0)))
  have r := r.move (Step.answer (i := 0) rfl (some (Except.ok (some (keyedRow .active))))
    (by exact Or.inl ⟨rfl, rfl⟩) id False.elim)
  have r := r.move (Step.call (i := 0) rfl (by exact trivial))
  have r := r.move (Step.answer (i := 0) rfl (Except.ok (Hub.Response.mk true 202 none))
    (by exact rfl) id fun _ => rfl)
  exact ⟨_, _, r, isUnder_of_replicate (n := 3) (o := .renew (.drawn 0)) trivial rfl, _,
    List.mem_concat_self, rfl⟩

theorem renewed_elsewhere :
    ∃ ms ms' v, Lives .empty [⟨keyed "old", ms⟩, ⟨keyed "new", ms'⟩] v ∧
      ∃ m ∈ ms', m.deed = .answered keyedAnswer := by
  obtain ⟨ms, s, run, under, left⟩ := subscribed_keyed
  obtain ⟨ms', s', run', under', answered⟩ := renewed_keyed
  have first : Lives .empty [⟨keyed "old", ms⟩] s.shared := Lives.none.next run under
  rw [left] at first
  exact ⟨ms, ms', s'.shared, first.next run' under', answered⟩

theorem secrets_kept_keyed :
    ∃ ms ms' v, Lives .empty [⟨keyed "old", ms⟩, ⟨keyed "new", ms'⟩] v ∧
      SecretsKept [⟨keyed "old", ms⟩, ⟨keyed "new", ms'⟩] := by
  obtain ⟨ms, ms', v, lives, -⟩ := renewed_elsewhere
  exact ⟨ms, ms', v, lives, secrets_kept rfl lives⟩

/-- The hub is always given the secret that is checked when it accepts. -/
def SecretsAgree : Prop :=
  ∀ w ls v, w.subscriptions.rows = [] → Lives w ls v → ∀ l ∈ ls, ∀ m ∈ l.moves, ∀ x q response,
    m.deed = .answered x → x.Tells .subscribe q (.ok response) → Agrees l.settings.hub.secret q

theorem secrets_differ : ¬ SecretsAgree := by
  intro agree
  obtain ⟨ms, ms', v, lives, m, hm, deed⟩ := renewed_elsewhere
  have agrees : Agrees "new" (keyedRow .active).hubRequest :=
    agree .empty _ v rfl lives ⟨keyed "new", ms'⟩ (by simp) m hm _ _ _ deed .asked
  have field := agrees.field
  rw [Hub.Client.secretField_eq] at field
  exact absurd field (by decide)

end

end WebSub
