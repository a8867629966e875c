import WebSub.Proofs.Flow.Traced
import WebSub.Proofs.Interleaving.Renamed
import WebSub.Proofs.Store.Interchange
import WebSub.Proofs.Subscription.Identity
import WebSub.Proofs.Subscription.Lease

/-!
# Subscribing

What a subscription comes to when nothing fails and nobody else has a turn: a request that breaks a
rule touches nothing, and any other one asks the hub once and leaves one row for its channel, which
is what the hub's answer makes of it.
-/

namespace WebSub

open Interleaving
open WebSub.Flow (Turn)
open Store.Subscriptions (ofPair)

/-! ## The rules of a request -/

/-- A request to subscribe keeps to the rules. -/
structure CreateRequest.Obeys (r : CreateRequest) : Prop where
  length : 1 ≤ r.channelId.toList.length ∧ r.channelId.toList.length ≤ 64
  characters : ∀ c ∈ r.channelId.toList, c.isAlphanum ∨ c = '-' ∨ c = '_'
  lease : ∀ l, r.leaseSeconds = some l → 1 ≤ l ∧ l ≤ 864000

namespace CreateRequest

theorem isChannelIdChar_iff {c : Char} :
    isChannelIdChar c = true ↔ c.isAlphanum ∨ c = '-' ∨ c = '_' := by
  unfold isChannelIdChar
  rw [Bool.or_eq_true, Bool.or_eq_true, beq_iff_eq, beq_iff_eq, or_assoc]

theorem channelIdViolations_eq_nil {id : String} : channelIdViolations id = [] ↔
    (1 ≤ id.toList.length ∧ id.toList.length ≤ 64) ∧
      ∀ c ∈ id.toList, c.isAlphanum ∨ c = '-' ∨ c = '_' := by
  unfold channelIdViolations
  rw [List.append_eq_nil_iff]
  refine and_congr ?_ ?_
  · by_cases wrong : id.toList.length < 1 ∨ maxChannelIdLength < id.toList.length
    · simp only [wrong, if_true, List.cons_ne_nil, false_iff]
      unfold maxChannelIdLength at wrong
      omega
    · simp only [wrong, if_false, true_iff]
      unfold maxChannelIdLength at wrong
      omega
  · rw [← forall₂_congr fun c _ => isChannelIdChar_iff, ← List.all_eq_true]
    cases id.toList.all isChannelIdChar <;> simp

theorem checkRange_eq_nil {field : String} {min max : Int} {value : Option Int} :
    checkRange field min max value = [] ↔ ∀ n, value = some n → min ≤ n ∧ n ≤ max := by
  cases value with
  | none => simp [checkRange]
  | some n =>
    by_cases wrong : n < min ∨ max < n
    · simp only [checkRange, wrong, if_true, List.cons_ne_nil, false_iff]
      intro range
      have inside := range n rfl
      omega
    · simp only [checkRange, wrong, if_false, true_iff]
      rintro _ ⟨⟩
      omega

theorem violations_isEmpty (r : CreateRequest) : r.violations.isEmpty = true ↔ r.Obeys := by
  have both : r.violations = [] ↔ channelIdViolations r.channelId = [] ∧
      checkRange "lease_seconds" 1 maxLeaseSeconds r.leaseSeconds = [] := by
    unfold violations
    rw [List.append_eq_nil_iff]
    refine and_congr ?_ Iff.rfl
    cases channelIdViolations r.channelId <;> simp
  rw [List.isEmpty_iff, both, channelIdViolations_eq_nil, checkRange_eq_nil]
  constructor
  · rintro ⟨⟨length, characters⟩, lease⟩
    exact ⟨length, characters, lease⟩
  · rintro ⟨length, characters, lease⟩
    exact ⟨⟨length, characters⟩, lease⟩

end CreateRequest

namespace Errand

/-- The request keeps to the rules, and the lease to ask for is one that the settings allow. -/
def Permits (access : Settings.HubAccess) (r : CreateRequest) : Prop :=
  r.Obeys ∧ 1 ≤ lease access.defaults r ∧
    lease access.defaults r ≤ min access.maxLeaseSeconds 864000

theorem admits_iff {d : Defaults} {r : CreateRequest} :
    Admits d r ↔ 1 ≤ lease d r ∧ lease d r ≤ d.maxLeaseSeconds := by
  unfold Admits Hub.checkLease
  split
  case isTrue wrong =>
    simp only [reduceCtorEq, false_iff]
    omega
  case isFalse right =>
    simp only [true_iff]
    omega

theorem subscribe_of_permits {access : Settings.HubAccess} {r : CreateRequest}
    (permits : Permits access r) :
    Service.subscribe access.defaults r =
      Service.prepare access.defaults r.channelId (lease access.defaults r) >>=
        Service.handshake := by
  have admits : Hub.checkLease (lease access.defaults r) access.defaults.maxLeaseSeconds = .ok () :=
    admits_iff.mpr permits.2
  rw [subscribe_eq, if_pos (r.violations_isEmpty.mpr permits.1), admits]

theorem subscribe_of_not_permits {access : Settings.HubAccess} {r : CreateRequest}
    (refused : ¬ Permits access r) :
    ∃ detail, Service.subscribe access.defaults r = throw (.invalidRequest detail) := by
  rw [subscribe_eq]
  split
  case isFalse => exact ⟨_, rfl⟩
  case isTrue obeys =>
    cases check : Hub.checkLease (lease access.defaults r) access.defaults.maxLeaseSeconds with
    | error e => exact ⟨e.message, rfl⟩
    | ok u =>
      have admits : Admits access.defaults r := check
      exact absurd ⟨r.violations_isEmpty.mp obeys, admits_iff.mp admits⟩ refused

end Errand

/-! ## The row of a channel -/

namespace Store.Subscriptions

variable {s : Subscriptions} {channelId callbackUrl : String} {old y : Subscription}

theorem ofPair_iff : ofPair channelId callbackUrl y = true ↔
    y.channelId = channelId ∧ y.callbackUrl = callbackUrl := by
  rw [ofPair, Bool.and_eq_true, beq_iff_eq, beq_iff_eq]

theorem ofPair_of_origin (same : y.origin = old.origin) :
    ofPair channelId callbackUrl y = ofPair channelId callbackUrl old := by
  have channel : y.channelId = old.channelId := congrArg Subscription.Origin.channelId same
  have callback : y.callbackUrl = old.callbackUrl := congrArg Subscription.Origin.callbackUrl same
  rw [ofPair, ofPair, channel, callback]

theorem filter_ofPair (pairs : s.UniquePairs) (stored : old ∈ s.rows)
    (own : ofPair channelId callbackUrl old = true) :
    s.rows.filter (ofPair channelId callbackUrl) = [old] := by
  rw [← List.perm_singleton, List.perm_ext_iff_of_nodup
    ((List.Nodup.of_map _ pairs).filter _) (List.nodup_singleton old)]
  intro r
  rw [List.mem_filter, List.mem_singleton]
  constructor
  · rintro ⟨hr, pair⟩
    obtain ⟨channel, callback⟩ := ofPair_iff.mp pair
    obtain ⟨channel', callback'⟩ := ofPair_iff.mp own
    refine List.inj_on_of_nodup_map pairs hr stored ?_
    rw [channel, callback, channel', callback']
  · rintro rfl
    exact ⟨stored, own⟩

theorem filter_map_of_kept {rows : List Subscription} {f : Subscription → Subscription}
    {p : Subscription → Bool} (kept : ∀ r ∈ rows, p (f r) = p r) :
    (rows.map f).filter p = (rows.filter p).map f := by
  rw [List.filter_map]
  exact congrArg (List.map f) (List.filter_congr kept)

theorem rows_of_update (ids : s.UniqueIds) (pairs : s.UniquePairs) (stored : old ∈ s.rows)
    (own : ofPair channelId callbackUrl old = true) (same : y.origin = old.origin) :
    (s.answer (.update y)).1 = some (.ok y) ∧
      (s.answer (.update y)).2.rows.filter (ofPair channelId callbackUrl) = [y] ∧
      (s.answer (.update y)).2.rows.filter (fun r => !ofPair channelId callbackUrl r) =
        s.rows.filter fun r => !ofPair channelId callbackUrl r := by
  have only : ∀ r ∈ s.rows, r.id = y.id → r = old := by
    intro r hr id
    exact List.inj_on_of_nodup_map ids hr stored (id.trans (Subscription.id_of_origin same))
  obtain ⟨answer, rows⟩ := s.answer_update_eq (y := y) fun r hr id => by rw [only r hr id, same]
  have there : s.rows.any (·.id == y.id) = true :=
    List.any_eq_true.mpr ⟨old, stored, beq_iff_eq.mpr (Subscription.id_of_origin same).symm⟩
  have kept : ∀ r ∈ s.rows, ofPair channelId callbackUrl (if r.id = y.id then y else r) =
      ofPair channelId callbackUrl r := by
    intro r hr
    split
    case isTrue id => rw [only r hr id, ofPair_of_origin same]
    case isFalse => rfl
  rw [answer, there, rows]
  refine ⟨rfl, ?_, ?_⟩
  · rw [filter_map_of_kept kept, filter_ofPair pairs stored own, List.map_singleton,
      if_pos (Subscription.id_of_origin same).symm]
  · rw [filter_map_of_kept fun r hr => congrArg (!·) (kept r hr)]
    conv_rhs => rw [← List.map_id (s.rows.filter _)]
    refine List.map_congr_left fun r hr => ?_
    obtain ⟨hr, other⟩ := List.mem_filter.mp hr
    refine if_neg fun id => ?_
    rw [only r hr id, own] at other
    cases other

end Store.Subscriptions

/-! ## What the store is like -/

/-- No two rows share an identity or a pair, all identities were drawn, and topics are those of the
channels. -/
structure Tidy (w : Shared) : Prop where
  ids : w.subscriptions.UniqueIds
  pairs : w.subscriptions.UniquePairs
  drawn : ∀ r ∈ w.subscriptions.rows, r.id ∈ w.drawn
  topics : ∀ r ∈ w.subscriptions.rows, r.topicUrl = topicUrl r.channelId

theorem Tidy.create {w : Shared} (tidy : Tidy w) {id : Uuid} {y : Subscription}
    (drew : y.id = id) (topic : y.topicUrl = topicUrl y.channelId)
    (rows : (w.subscriptions.answer (.create y)).2.rows = w.subscriptions.rows ++ [y]) :
    Tidy { w with drawn := w.drawn ++ [id],
                  subscriptions := (w.subscriptions.answer (.create y)).2 } where
  ids := tidy.ids.answer _
  pairs := tidy.pairs.answer _ fun _ same => Store.SubscriptionCall.noConfusion same
  drawn := by
    intro r hr
    rw [rows] at hr
    rcases List.mem_append.mp hr with hr | hr
    · exact List.mem_append_left _ (tidy.drawn r hr)
    · rw [List.mem_singleton.mp hr, drew]
      exact List.mem_concat_self
  topics := by
    intro r hr
    rw [rows] at hr
    rcases List.mem_append.mp hr with hr | hr
    · exact tidy.topics r hr
    · rw [List.mem_singleton.mp hr]
      exact topic

theorem tidy_of_run {w : Shared} {ms : List (Move Chore)} {s : System Chore Chore.Result}
    (blank : w.subscriptions.rows = []) (run : Run Chore.flow (.start w) ms s) :
    Tidy s.shared where
  ids := uniqueIds_of_run (Store.Subscriptions.uniqueIds_of_blank blank) run
  pairs := Chore.uniquePairs blank run
  drawn := by
    intro r hr
    obtain ⟨k, m, y, b, at_k, deed, origin⟩ := ((Chore.rooted blank run).rows r hr).position
    obtain ⟨e, drafts⟩ := Chore.drafts_of_create run at_k (by rw [deed]; rfl)
    obtain ⟨m', hm', -, drew⟩ := mem_past.mp (mem_past_of_take m.actor drafts.drew)
    rw [← Subscription.id_of_origin origin]
    exact drawn_of_run run hm' drew
  topics := fun r hr => ((Chore.rooted blank run).rows r hr).topic run

namespace Errand

variable {d : Defaults} {w : Shared} {past : List Turn}

/-! ## Before the hub is asked -/

/-- A row for the pair is stored, and this is the copy of it to ask for. -/
structure Prepared (d : Defaults) (channelId : String) (lease : Int) (w w' : Shared)
    (turns : List Turn) (old s : Subscription) : Prop where
  silent : ∀ x ∈ turns, x.isCall = false
  tidy : Tidy w'
  stored : old ∈ w'.subscriptions.rows
  pair : ofPair channelId d.callbackUrl old = true
  copy : s = { old with leaseSeconds := lease, secret := d.secret }
  /-- It was there before, or it is the only new row. -/
  rows : w'.subscriptions.rows = w.subscriptions.rows ∨
    w'.subscriptions.rows = w.subscriptions.rows ++ [old] ∧ old.hubUrl = d.hubUrl ∧
      ∀ r ∈ w.subscriptions.rows, ofPair channelId d.callbackUrl r = false

theorem drafted {id : Uuid} {channelId : String} {lease : Int} {t : Instant} {y : Subscription}
    (draft : Subscription.new? id channelId d.callbackUrl d.hubUrl lease d.secret t = some y) :
    y.id = id ∧ (y.channelId = channelId ∧ y.callbackUrl = d.callbackUrl) ∧ y.hubUrl = d.hubUrl ∧
      y.topicUrl = topicUrl y.channelId ∧
        y = { y with leaseSeconds := lease, secret := d.secret } := by
  obtain ⟨u, -, rfl⟩ := Option.map_eq_some_iff.mp draft
  exact ⟨rfl, ⟨rfl, rfl⟩, rfl, rfl, rfl⟩

theorem unclashed {rows : List Subscription} {drawn : List Uuid} {channelId : String}
    {y : Subscription} (ids : ∀ r ∈ rows, r.id ∈ drawn)
    (free : ∀ r ∈ rows, ofPair channelId d.callbackUrl r = false) (new : y.id ∉ drawn)
    (pair : y.channelId = channelId ∧ y.callbackUrl = d.callbackUrl) :
    rows.any (Store.MemorySubscriptions.clash · y) = false := by
  rw [List.any_eq_false]
  intro r hr clash
  rw [Store.MemorySubscriptions.clash, Bool.or_eq_true, beq_iff_eq] at clash
  rcases clash with same | same
  · exact new (same ▸ ids r hr)
  · rw [pair.1, pair.2] at same
    exact Bool.false_ne_true ((free r hr).symm.trans same)

/-- A row for a pair that had none: it is created, with an identity that was never given out. -/
structure Drafted (d : Defaults) (channelId : String) (lease : Int) (w w' : Shared)
    (turns : List Turn) (y : Subscription) : Prop where
  draft : ∃ t, Subscription.new? y.id channelId d.callbackUrl d.hubUrl lease d.secret t = some y
  new : y.id ∉ w.drawn
  silent : ∀ x ∈ turns, x.isCall = false
  created : ∃ x ∈ turns, x.exchange = ⟨.subscriptions (.create y), some (.ok y)⟩
  rows : (w.subscriptions.answer (.create y)).2.rows = w.subscriptions.rows ++ [y]
  after : w' = { w with drawn := w.drawn ++ [y.id],
                        subscriptions := (w.subscriptions.answer (.create y)).2 }

theorem leads_prepare_anew (tidy : Tidy w) (left : ∃ id, id ∉ w.drawn) {channelId : String}
    {lease : Int} (range : IsLease lease)
    (free : ∀ r ∈ w.subscriptions.rows, ofPair channelId d.callbackUrl r = false) :
    Flow.Leads .nothing Reliable (Service.prepare d channelId lease).run [] w
      fun turns w' outcome => ∃ y, outcome = some (.ok y) ∧
        Drafted d channelId lease w w' turns y := by
  refine Reliable.leads_read trivial ?_
  rw [w.subscriptions.answer_findByPair, List.find?_eq_none.mpr fun r hr => by rw [free r hr]; simp]
  refine Reliable.leads_freshId left fun id new => ?_
  refine Reliable.leads_now fun t reading room => ?_
  show Flow.Leads _ _ (((Flow.ofOption (Subscription.new? id channelId d.callbackUrl d.hubUrl
    lease d.secret t)).bind _).bind _) _ _ _
  cases draft : Subscription.new? id channelId d.callbackUrl d.hubUrl lease d.secret t with
  | none =>
    have far : t.addSeconds? lease = none := Option.map_eq_none_iff.mp draft
    exact absurd far (Instant.addSeconds?_ne_none reading.1 room range.1 range.2)
  | some y =>
    obtain ⟨rfl, pair, -⟩ := drafted draft
    obtain ⟨answer, rows⟩ := w.subscriptions.answer_create_eq y
    rw [unclashed tidy.drawn free new pair, if_neg Bool.false_ne_true] at answer rows
    refine Reliable.leads_subscriptions ?_
    rw [answer]
    refine ⟨y, rfl, ⟨t, draft⟩, new, ?_, ⟨_, List.mem_concat_self, rfl⟩, rows, rfl⟩
    intro x hx
    simp only [List.nil_append, List.cons_append, List.mem_cons, List.not_mem_nil, or_false] at hx
    rcases hx with rfl | rfl | rfl | rfl <;> rfl

theorem Drafted.prepared {channelId : String} {lease : Int} {w' : Shared} {turns : List Turn}
    {y : Subscription} (h : Drafted d channelId lease w w' turns y) (tidy : Tidy w)
    (free : ∀ r ∈ w.subscriptions.rows, ofPair channelId d.callbackUrl r = false) :
    Prepared d channelId lease w w' turns y y := by
  obtain ⟨t, draft⟩ := h.draft
  obtain ⟨-, pair, hub, topic, asks⟩ := drafted draft
  have rows := h.rows
  rw [h.after]
  refine ⟨h.silent, tidy.create rfl topic rows, ?_, Store.Subscriptions.ofPair_iff.mpr pair, asks,
    .inr ⟨rows, hub, free⟩⟩
  rw [rows]
  exact List.mem_concat_self

theorem leads_prepare (tidy : Tidy w) (left : ∃ id, id ∉ w.drawn) (channelId : String) {lease : Int}
    (range : IsLease lease) :
    Flow.Leads .nothing Reliable (Service.prepare d channelId lease).run [] w
      fun turns w' outcome => ∃ old s, outcome = some (.ok s) ∧
        Prepared d channelId lease w w' turns old s := by
  cases found : w.subscriptions.rows.find? (ofPair channelId d.callbackUrl) with
  | some old =>
    refine Reliable.leads_read trivial ?_
    rw [w.subscriptions.answer_findByPair, found]
    refine ⟨old, _, rfl, ?_, tidy, List.mem_of_find?_eq_some found, List.find?_some found, rfl,
      Or.inl rfl⟩
    intro x hx
    rw [List.mem_singleton.mp hx]
    rfl
  | none =>
    have free : ∀ r ∈ w.subscriptions.rows, ofPair channelId d.callbackUrl r = false :=
      fun r hr => Bool.eq_false_iff.mpr (List.find?_eq_none.mp found r hr)
    refine (leads_prepare_anew tidy left range free).weaken ?_
    rintro turns w' _ ⟨y, rfl, drafted⟩
    exact ⟨y, y, rfl, drafted.prepared tidy free⟩

/-! ## The handshake -/

/-- The lease of an accepted subscription: the one that the hub names, cut to ten days, or else the
one that was asked for. -/
def granted (asked : Int) : Option Int → Int
  | some l => if 0 < l then min l 864000 else asked
  | none => asked

theorem getD_boundedLease (asked : Int) (named : Option Int) :
    (Subscription.boundedLease named).getD asked = granted asked named := by
  cases named with
  | none => rfl
  | some l =>
    rw [Subscription.boundedLease_some]
    by_cases positive : 0 < l
    · simp only [granted, if_pos positive, Option.getD_some, maxLeaseSeconds]
    · simp only [granted, if_neg positive, Option.getD_none]

theorem markActive_eq (s : Subscription) (t : Instant) (named : Option Int) :
    s.markActive t named = Subscription.restartLease { s with
      status := .active, updatedAt := t, leaseSeconds := granted s.leaseSeconds named } t := by
  rw [← getD_boundedLease]
  unfold Subscription.markActive
  rw [Subscription.transition?_active]
  cases Subscription.boundedLease named <;> rfl

theorem markActive_granted {s y : Subscription} {t : Instant} {named : Option Int}
    (h : s.markActive t named = .ok y) : y.leaseSeconds = granted s.leaseSeconds named := by
  rw [markActive_eq] at h
  rw [(Subscription.restartLease_ok h).2]

/-- What the caller is told: the row, or the error of the hub. -/
def told (y : Subscription) : Hub.Result → Except Service.Error Subscription
  | .ok _ => .ok y
  | .error e => .error (.hub e)

/-- The hub is asked, the clock is read, and the row is written. -/
structure Handshaken (s : Subscription) (w w' : Shared) (past turns : List Turn)
    (answer : Hub.Result) (t : Instant) (y : Subscription) : Prop where
  turns : turns = past ++ [⟨w, ⟨.hub .subscribe s.hubRequest, answer⟩, w⟩, ⟨w, ⟨.now, t⟩, w⟩,
    ⟨w, ⟨.subscriptions (.update y), some (.ok y)⟩, w'⟩]
  change : s.settled answer t = .ok y
  after : w' = { w with subscriptions := (w.subscriptions.answer (.update y)).2 }

theorem leads_applied {α : Type} {s old : Subscription} (tidy : Tidy w)
    (stored : old ∈ w.subscriptions.rows) (same : s.origin = old.origin)
    (range : IsLease s.leaseSeconds) (answer : Hub.Result)
    {next : Subscription × Except Service.HandshakeError Hub.Response → Flow α}
    {good : List Turn → Shared → Option α → Prop}
    (h : ∀ t y, s.settled answer t = .ok y →
      (next (y, answer.mapError .hub)).Leads .nothing Reliable
        (past ++ [⟨w, ⟨.now, t⟩, w⟩, ⟨w, ⟨.subscriptions (.update y), some (.ok y)⟩,
          { w with subscriptions := (w.subscriptions.answer (.update y)).2 }⟩])
        { w with subscriptions := (w.subscriptions.answer (.update y)).2 } good) :
    (Flow.ask .now fun t => (Service.applyHubResult s answer t).bind next).Leads
      .nothing Reliable past w good := by
  have written : ∀ t y, s.settled answer t = .ok y →
      (w.subscriptions.answer (.update y)).1 = some (.ok y) := by
    intro t y change
    have origin : y.origin = old.origin := (Subscription.settled_origin change).trans same
    exact (Store.Subscriptions.rows_of_update tidy.ids tidy.pairs stored
      (Store.Subscriptions.ofPair_iff.mpr ⟨rfl, rfl⟩) origin).1
  refine Reliable.leads_now fun t reading room => ?_
  cases answer with
  | error e =>
    have onward := h t (s.markFailed t) rfl
    rw [List.append_cons] at onward
    refine Reliable.leads_subscriptions ?_
    rw [written t (s.markFailed t) rfl]
    exact onward
  | ok response =>
    show Flow.Leads _ _ (((Flow.ofChange (s.markActive t response.leaseSeconds)).bind _).bind _) _ _
      _
    cases change : s.markActive t response.leaseSeconds with
    | error y =>
      obtain ⟨l, asked, far⟩ := Subscription.markActive_error change
      have lease : IsLease l := by
        rcases asked with rfl | lease
        · exact range
        · exact lease
      exact absurd far (Instant.addSeconds?_ne_none reading.1 room lease.1 lease.2)
    | ok y =>
      have onward := h t y change
      rw [List.append_cons] at onward
      refine Reliable.leads_subscriptions ?_
      rw [written t y change]
      exact onward

theorem leads_handshake {s old : Subscription} (tidy : Tidy w)
    (stored : old ∈ w.subscriptions.rows) (same : s.origin = old.origin)
    (range : IsLease s.leaseSeconds) :
    Flow.Leads .nothing Reliable (Service.handshake s).run past w
      fun turns w' outcome => ∃ answer t y, Handshaken s w w' past turns answer t y ∧
        outcome = some (told y answer) := by
  refine Reliable.leads_hub fun answer => ?_
  refine leads_applied tidy stored same range answer fun t y change => ?_
  refine ⟨answer, t, y, ⟨by simp, change, rfl⟩, ?_⟩
  cases answer <;> rfl

/-! ## The whole -/

/-- What a subscription that is permitted comes to: `answer` is what the hub said, `t` the time that
was read then, and `y` the row that is left. -/
structure Established (d : Defaults) (r : CreateRequest) (w w' : Shared) (turns : List Turn)
    (answer : Hub.Result) (t : Instant) (y : Subscription) : Prop where
  /-- The hub is called once, and there is a row for the channel by then. -/
  course : ∃ first called read written, turns = first ++ [called, read, written] ∧
    (∀ x ∈ first, x.isCall = false) ∧
    called.exchange = ⟨.hub .subscribe
      ⟨y.hubUrl, topicUrl r.channelId, d.callbackUrl, lease d r, d.secret⟩, answer⟩ ∧
    (∃ old ∈ called.before.subscriptions.rows,
      old.channelId = r.channelId ∧ old.callbackUrl = d.callbackUrl) ∧
    read.exchange = ⟨.now, t⟩ ∧ written.isCall = false
  row : w'.subscriptions.rows.filter (ofPair r.channelId d.callbackUrl) = [y]
  others : w'.subscriptions.rows.filter (fun x => !ofPair r.channelId d.callbackUrl x) =
    w.subscriptions.rows.filter fun x => !ofPair r.channelId d.callbackUrl x
  kept : ∀ old ∈ w.subscriptions.rows, ofPair r.channelId d.callbackUrl old = true →
    y.id = old.id ∧ y.createdAt = old.createdAt ∧ y.hubUrl = old.hubUrl
  hubUrl : (∀ old ∈ w.subscriptions.rows, ofPair r.channelId d.callbackUrl old = false) →
    y.hubUrl = d.hubUrl
  accepted : ∀ response, answer = .ok response → y.status = .active ∧
    y.leaseSeconds = granted (lease d r) response.leaseSeconds ∧
      t.addSeconds? y.leaseSeconds = some y.expiresAt
  refused : ∀ e, answer = .error e → y.status = .failed

theorem Prepared.hubRequest {channelId : String} {l : Int} {w' : Shared} {turns : List Turn}
    {old s : Subscription} (h : Prepared d channelId l w w' turns old s) :
    s.hubRequest = ⟨old.hubUrl, topicUrl channelId, d.callbackUrl, l, d.secret⟩ := by
  obtain ⟨channel, callback⟩ := Store.Subscriptions.ofPair_iff.mp h.pair
  rw [h.copy, ← channel, ← callback, ← h.tidy.topics old h.stored]
  rfl

theorem Prepared.others {channelId : String} {l : Int} {w' : Shared} {turns : List Turn}
    {old s : Subscription} (h : Prepared d channelId l w w' turns old s) :
    w'.subscriptions.rows.filter (fun x => !ofPair channelId d.callbackUrl x) =
      w.subscriptions.rows.filter fun x => !ofPair channelId d.callbackUrl x := by
  rcases h.rows with rows | ⟨rows, -, -⟩
  · rw [rows]
  · rw [rows, List.filter_append]
    simp [h.pair]

theorem Prepared.eq_of_pair {channelId : String} {l : Int} {w' : Shared} {turns : List Turn}
    {old s x : Subscription} (h : Prepared d channelId l w w' turns old s)
    (hx : x ∈ w.subscriptions.rows) (pair : ofPair channelId d.callbackUrl x = true) : x = old := by
  rcases h.rows with rows | ⟨-, -, free⟩
  · have one := Store.Subscriptions.filter_ofPair h.tidy.pairs h.stored h.pair
    rw [rows] at one
    exact List.mem_singleton.mp (one ▸ List.mem_filter.mpr ⟨hx, pair⟩)
  · rw [free x hx] at pair
    cases pair

theorem established_of_shaken {r : CreateRequest} {w₁ w' : Shared} {past turns : List Turn}
    {old s y : Subscription} {answer : Hub.Result} {t : Instant}
    (prepared : Prepared d r.channelId (lease d r) w w₁ past old s)
    (shaken : Handshaken s w₁ w' past turns answer t y) :
    Established d r w w' turns answer t y := by
  have copied : s.origin = old.origin := by rw [prepared.copy]; rfl
  have origin := (Subscription.settled_origin shaken.change).trans copied
  have hub : y.hubUrl = old.hubUrl := congrArg Subscription.Origin.hubUrl origin
  obtain ⟨-, row, others⟩ := Store.Subscriptions.rows_of_update prepared.tidy.ids
    prepared.tidy.pairs prepared.stored prepared.pair origin
  refine ⟨?course, ?row, ?others, ?kept, ?hubUrl, ?accepted, ?refused⟩
  case course =>
    refine ⟨past, _, _, _, shaken.turns, prepared.silent, ?_, ⟨old, prepared.stored,
      Store.Subscriptions.ofPair_iff.mp prepared.pair⟩, rfl, rfl⟩
    rw [prepared.hubRequest, hub]
  case row =>
    rw [shaken.after]
    exact row
  case others =>
    rw [shaken.after]
    exact others.trans prepared.others
  case kept =>
    intro x hx pair
    rw [prepared.eq_of_pair hx pair]
    exact ⟨Subscription.id_of_origin origin, congrArg Subscription.Origin.createdAt origin, hub⟩
  case hubUrl =>
    intro free
    rcases prepared.rows with rows | ⟨-, new, -⟩
    · have there := prepared.stored
      rw [rows] at there
      exact absurd prepared.pair (Bool.eq_false_iff.mp (free old there))
    · rw [hub, new]
  case accepted =>
    rintro response rfl
    obtain ⟨-, -, status, -, ends⟩ := Subscription.markActive_ok shaken.change
    refine ⟨status, ?_, ends⟩
    rw [markActive_granted shaken.change, prepared.copy]
  case refused =>
    rintro e rfl
    exact (Subscription.settled_ok shaken.change).2.2

/-- From every store that can be reached, with any settings, request and answer of the hub. -/
theorem subscribe_endToEnd {w : Shared} {ms : List (Move Chore)} {s : System Chore Chore.Result}
    (blank : w.subscriptions.rows = []) (run : Run Chore.flow (.start w) ms s)
    (left : ∃ id, id ∉ s.shared.drawn) (access : Settings.HubAccess) (r : CreateRequest) :
    Flow.Leads .nothing Reliable (Service.subscribe access.defaults r).run [] s.shared
      fun turns w' outcome =>
        (¬ Permits access r → turns = [] ∧ w' = s.shared ∧
          ∃ detail, outcome = some (.error (.invalidRequest detail))) ∧
        (Permits access r → ∃ answer t y,
          Established access.defaults r s.shared w' turns answer t y ∧
            outcome = some (told y answer)) := by
  by_cases permits : Permits access r
  · have range : IsLease (lease access.defaults r) :=
      ⟨permits.2.1, Int.le_trans permits.2.2 (Int.min_le_right _ _)⟩
    rw [subscribe_of_permits permits]
    refine (leads_prepare (tidy_of_run blank run) left r.channelId range).run_bind ?_ ?_ ?_
    · rintro past w₁ ⟨old, x, ⟨⟩, -⟩
    · rintro past w₁ e ⟨old, x, ⟨⟩, -⟩
    · rintro past w₁ x ⟨old, _, ⟨⟩, prepared⟩
      have copied : x.origin = old.origin := by rw [prepared.copy]; rfl
      have asked : IsLease x.leaseSeconds := by rw [prepared.copy]; exact range
      refine (leads_handshake prepared.tidy prepared.stored copied asked).weaken ?_
      rintro turns w' _ ⟨answer, t, y, shaken, rfl⟩
      exact ⟨fun refused => absurd permits refused, fun _ =>
        ⟨answer, t, y, established_of_shaken prepared shaken, rfl⟩⟩
  · obtain ⟨detail, refused⟩ := subscribe_of_not_permits permits
    rw [refused]
    exact ⟨fun _ => ⟨rfl, rfl, detail, rfl⟩, fun permitted => absurd permitted permits⟩

theorem run_plain_chores : ∃ ms s, Run Chore.flow (.start .empty) ms s ∧
    ms.map (·.operation) = List.replicate 8 (.errand plain) ∧ s.shared =
      ⟨.table ⟨[plainRow .active none]⟩, .table {}, [.drawn 0], [], false, false⟩ := by
  obtain ⟨ms, s, r, operations, -, shared⟩ := run_plain_whole
  have chores : Run Chore.flow (.start .empty) (ms.map (·.renamed .errand))
      (s.renamed .errand .errand) := r.renamed fun _ => rfl
  refine ⟨_, _, chores, ?_, shared⟩
  have named : (ms.map (·.renamed Chore.errand)).map (·.operation) =
      (ms.map (·.operation)).map .errand := by
    rw [List.map_map, List.map_map]
    rfl
  rw [named, operations]
  rfl

def signedAccess : Settings.HubAccess := ⟨"https://hub.example/", "c", "k", 60, 3600, 10⟩

/-- A channel is subscribed to once more after a restart with a secret, for two minutes; the hub may
grant a minute and a half. -/
theorem subscribe_endToEnd_again : ∃ ms s, Run Chore.flow (.start .empty) ms s ∧
    s.shared.subscriptions.rows = [plainRow .active none] ∧
    (∃ id, id ∉ s.shared.drawn) ∧ Permits signedAccess ⟨"a", some 120⟩ ∧
    Flow.Leads .nothing Reliable (Service.subscribe signedAccess.defaults ⟨"a", some 120⟩).run []
      s.shared fun turns w' outcome => ∃ answer t y,
        Established signedAccess.defaults ⟨"a", some 120⟩ s.shared w' turns answer t y ∧
        (∃ called ∈ turns, called.exchange =
          ⟨.hub .subscribe ⟨"h", topicUrl "a", "c", 120, some "k"⟩, answer⟩) ∧
        w'.subscriptions.rows = [y] ∧ y.id = .drawn 0 ∧
        (answer = .ok ⟨true, 202, some 90⟩ → outcome = some (.ok y) ∧ y.status = .active ∧
          y.leaseSeconds = 90 ∧ t.addSeconds? 90 = some y.expiresAt) ∧
        (answer = .error (.transport "down") →
          outcome = some (.error (.hub (.transport "down"))) ∧ y.status = .failed) := by
  obtain ⟨ms, s, r, -, shared⟩ := run_plain_chores
  have rows : s.shared.subscriptions.rows = [plainRow .active none] := by rw [shared]; rfl
  have left : ∃ id, id ∉ s.shared.drawn := by
    rw [shared]
    exact ⟨.nil, by decide⟩
  have permits : Permits signedAccess ⟨"a", some 120⟩ :=
    ⟨(CreateRequest.violations_isEmpty _).mp (by decide), by decide, by decide⟩
  refine ⟨ms, s, r, rows, left, permits, ?_⟩
  refine (subscribe_endToEnd rfl r left signedAccess ⟨"a", some 120⟩).weaken ?_
  rintro turns w' outcome ⟨-, permitted⟩
  obtain ⟨answer, t, y, e, rfl⟩ := permitted permits
  have there : plainRow .active none ∈ s.shared.subscriptions.rows := by simp [rows]
  obtain ⟨id, -, hub⟩ := e.kept _ there rfl
  obtain ⟨first, called, read, written, course, -, exchange, -⟩ := e.course
  refine ⟨answer, t, y, e, ⟨called, by simp [course], ?_⟩, ?_, id, ?_, ?_⟩
  · rw [exchange, hub]
    rfl
  · have others := e.others
    rw [rows] at others
    change w'.subscriptions.rows.filter (fun x => !ofPair "a" "c" x) = [] at others
    have all : w'.subscriptions.rows.filter (ofPair "a" "c") = w'.subscriptions.rows := by
      rw [List.filter_eq_self]
      intro x hx
      simpa using List.filter_eq_nil_iff.mp others x hx
    exact all.symm.trans e.row
  · rintro rfl
    obtain ⟨status, lease, ends⟩ := e.accepted _ rfl
    have granted : y.leaseSeconds = 90 := lease
    exact ⟨rfl, status, granted, granted ▸ ends⟩
  · rintro rfl
    exact ⟨rfl, e.refused _ rfl⟩

end Errand

end WebSub
