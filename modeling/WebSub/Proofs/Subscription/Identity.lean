import WebSub.Proofs.Interleaving.Upheld
import WebSub.Proofs.Store.RowOrigins
import WebSub.Proofs.Subscription.Chore

/-!
# The identity of rows

However operations on subscriptions and chores interleave: no two rows share an identity, or a
channel and a callback; a row keeps what it was created with; and what is gone does not come back,
although others may still hold copies of it.
-/

namespace WebSub

open Interleaving
open Subscription (Origin)

/-! ## Drafts and copies -/

namespace Errand

variable {e : Errand} {own : List Exchange} {y y' : Subscription}

theorem Drafts.drew (h : e.Drafts own y) :
    ⟨.freshId, y.id⟩ ∈ own := by
  cases h with
  | draft admitted new =>
    obtain ⟨u, -, rfl⟩ := Option.map_eq_some_iff.mp new
    simp

theorem Drafts.first (h : e.Drafts own y)
    (b : (Store.SubscriptionCall.create y').Answer) : ⟨.subscriptions (.create y'), b⟩ ∉ own := by
  cases h with
  | draft admitted new => simp

theorem Drafts.topic (h : e.Drafts own y) :
    y.topicUrl = topicUrl y.channelId := by
  cases h with
  | draft admitted new =>
    obtain ⟨u, -, rfl⟩ := Option.map_eq_some_iff.mp new
    rfl

theorem Drafts.pending (h : e.Drafts own y) : y.status = .pending := by
  cases h with
  | draft admitted new =>
    obtain ⟨u, -, rfl⟩ := Option.map_eq_some_iff.mp new
    rfl

theorem Writes.copied (h : e.Writes own y) :
    ∃ c v, ∃ copy ∈ Store.SubscriptionCall.given c v,
      ⟨.subscriptions c, some (.ok v)⟩ ∈ own ∧ copy.origin = y.origin := by
  cases h with
  | @handshake e own r y result now heard change =>
    obtain ⟨before, takes, rfl⟩ := heard
    obtain ⟨c, v, copy, given, found, lease, secret, rfl⟩ := takes.copied
    exact ⟨c, v, copy, given, List.mem_append_left _ found,
      (Subscription.settled_origin change).symm⟩
  | @verification v own now done todo r y confirms change =>
    obtain ⟨writes, rfl, -⟩ := confirms
    exact ⟨.findByTopic v.topicUrl, done ++ r :: todo, r,
      List.mem_append_right _ List.mem_cons_self, by simp,
      (Subscription.change?_origin change).symm⟩

end Errand

namespace Chore

variable {w : Shared} {ms : List (Move Chore)} {s : System Chore Result} {m m' : Move Chore}
  {y y' : Subscription} {o o' : Origin} {id : Uuid} {j k q : Nat}

/-! ## Creations -/

theorem drafts_of_create (run : Run flow (.start w) ms s) (at_k : ms[k]? = some m)
    (request : m.deed.request = .subscriptions (.create y)) :
    ∃ e : Errand, e.Drafts (past m.actor (ms.take k)) y := by
  cases calls ((orderly run).conforms_at at_k) request with
  | errand alone operation drafts timely => exact ⟨_, drafts⟩
  | lapse alone operation marks reading => cases marks
  | renewal renews asked => exact asked.elim

theorem creates_once {b : (Store.SubscriptionCall.create y).Answer}
    {b' : (Store.SubscriptionCall.create y').Answer} (run : Run flow (.start w) ms s)
    (at_k : ms[k]? = some m) (at_q : ms[q]? = some m')
    (deed : m.deed = .answered ⟨.subscriptions (.create y), b⟩)
    (deed' : m'.deed = .answered ⟨.subscriptions (.create y'), b'⟩) (same : y.id = y'.id) :
    k = q := by
  obtain ⟨e, drafts⟩ := drafts_of_create run at_k (by rw [deed]; rfl)
  obtain ⟨e', drafts'⟩ := drafts_of_create run at_q (by rw [deed']; rfl)
  have actor : m.actor = m'.actor := by
    obtain ⟨i, x, -, at_i, here, drew⟩ := position_of_mem_past drafts.drew
    obtain ⟨i', x', -, at_i', here', drew'⟩ := position_of_mem_past drafts'.drew
    rw [← same] at drew'
    obtain rfl := draws_once run at_i at_i' drew drew'
    rw [at_i, Option.some.injEq] at at_i'
    rw [← here, ← here', at_i']
  rcases Nat.lt_trichotomy k q with before | here | after
  · have created := mem_past_take at_k before deed
    rw [actor] at created
    exact absurd created (drafts'.first b)
  · exact here
  · have created := mem_past_take at_q after deed'
    rw [← actor] at created
    exact absurd created (drafts.first b')

/-- A row was created with this origin. -/
def Created (ms : List (Move Chore)) (o : Origin) : Prop :=
  ∃ m ∈ ms, ∃ y b, m.deed = .answered ⟨.subscriptions (.create y), some (.ok b)⟩ ∧ y.origin = o

namespace Created

theorem append (h : Created ms o) (ms' : List (Move Chore)) : Created (ms ++ ms') o := by
  obtain ⟨m, hm, created⟩ := h
  exact ⟨m, List.mem_append_left _ hm, created⟩

theorem position (h : Created ms o) :
    ∃ (k : Nat) (m : Move Chore) (y b : Subscription), ms[k]? = some m ∧
      m.deed = .answered ⟨.subscriptions (.create y), some (.ok b)⟩ ∧ y.origin = o := by
  obtain ⟨m, hm, y, b, deed, origin⟩ := h
  obtain ⟨k, at_k⟩ := List.mem_iff_getElem?.mp hm
  exact ⟨k, m, y, b, at_k, deed, origin⟩

theorem eq (run : Run flow (.start w) ms s) (h : Created ms o) (h' : Created ms o')
    (same : o.id = o'.id) : o = o' := by
  obtain ⟨k, m, y, b, at_k, deed, rfl⟩ := h.position
  obtain ⟨q, m', y', b', at_q, deed', rfl⟩ := h'.position
  obtain rfl := creates_once run at_k at_q deed deed' same
  rw [at_k, Option.some.injEq] at at_q
  rw [at_q, deed'] at deed
  cases deed
  rfl

theorem topic (run : Run flow (.start w) ms s) (h : Created ms o) :
    o.topicUrl = topicUrl o.channelId := by
  obtain ⟨k, m, y, b, at_k, deed, rfl⟩ := h.position
  obtain ⟨e, drafts⟩ := drafts_of_create run at_k (by rw [deed]; rfl)
  exact drafts.topic

end Created

/-! ## The invariant -/

/-- Every row that is stored and every row that was ever handed out is as it was created. -/
structure Rooted (ms : List (Move Chore)) (now : Shared) : Prop where
  rows : ∀ r ∈ now.subscriptions.rows, Created ms r.origin
  given : ∀ a c v, ⟨.subscriptions c, some (.ok v)⟩ ∈ past a ms → ∀ r ∈ c.given v,
    Created ms r.origin

namespace Rooted

theorem created_of_writes {now : Shared} (rooted : Rooted ms now)
    (conforms : Conforms conduct Sweep.conduct ms m)
    (request : m.deed.request = .subscriptions (.update y)) : Created ms y.origin := by
  cases calls conforms request with
  | errand alone operation writes timely =>
    obtain ⟨c, v, copy, given, found, same⟩ := Errand.Writes.copied writes
    rw [← same]
    exact rooted.given _ c v found copy given
  | lapse alone operation marks reading => cases marks
  | @renewal k rows r renews asked =>
    obtain ⟨result, now, -, change⟩ := asked
    obtain ⟨before, n, found⟩ := renews.found
    rw [Subscription.settled_origin change]
    exact rooted.given _ _ _ found r (List.mem_of_getElem? renews.row)

theorem faithful {now : Shared} (rooted : Rooted ms now) (run : Run flow (.start w) ms s)
    (conforms : Conforms conduct Sweep.conduct ms m)
    (request : m.deed.request = .subscriptions (.update y)) :
    ∀ r ∈ now.subscriptions.rows, r.id = y.id → r.origin = y.origin :=
  fun r hr same => (rooted.rows r hr).eq run (rooted.created_of_writes conforms request) same

theorem move (rooted : Rooted ms m.before) (run : Run flow (.start w) ms s)
    (conforms : Conforms conduct Sweep.conduct ms m) (allowed : m.Allowed) :
    Rooted (ms ++ [m]) m.after := by
  have upholds : Upholds (fun r => Created ms r.origin) (fun r => Created (ms ++ [m]) r.origin)
      m := by
    refine ⟨fun r created => created.append [m], ?_, ?_, ?_⟩
    · intro y b deed
      exact ⟨m, List.mem_concat_self, y, b, deed, rfl⟩
    · intro y b deed r hr id
      have same := rooted.faithful run conforms (by rw [deed]; rfl) r hr id
      rw [Store.Subscriptions.written_origin _ same, ← same]
      exact (rooted.rows r hr).append [m]
    · intro r now created
      rw [Subscription.markExpired_origin]
      exact created.append [m]
  have upheld := Upheld.move ⟨rooted.rows, rooted.given⟩ allowed upholds
  exact ⟨upheld.rows, upheld.given⟩

end Rooted

theorem rooted (blank : w.subscriptions.rows = []) (run : Run flow (.start w) ms s) :
    Rooted ms s.shared := by
  induction run with
  | start =>
    constructor
    · show ∀ r ∈ w.subscriptions.rows, _
      rw [blank]
      exact List.forall_mem_nil _
    · intro a c v h
      cases h
  | quiet run h ih =>
    obtain ⟨b, same⟩ := h.shared_of_quiet
    rw [same]
    exact ⟨ih.rows, ih.given⟩
  | @move ms m s s' run h ih =>
    obtain ⟨before, after, allowed⟩ := h.allowed
    have conforms := ((orderly run).move h).moves ms m [] rfl
    rw [← before] at ih
    rw [← after]
    exact ih.move run conforms allowed

theorem uniquePairs (blank : w.subscriptions.rows = []) (run : Run flow (.start w) ms s) :
    s.shared.subscriptions.UniquePairs := by
  induction run with
  | start =>
    show (w.subscriptions.rows.map _).Nodup
    rw [blank]
    exact List.nodup_nil
  | quiet run h ih =>
    obtain ⟨b, same⟩ := h.shared_of_quiet
    rw [same]
    exact ih
  | @move ms m s s' run h ih =>
    obtain ⟨before, after, allowed⟩ := h.allowed
    have conforms := ((orderly run).move h).moves ms m [] rfl
    have rooted := rooted blank run
    rw [← before] at ih rooted
    rw [← after]
    rcases allowed.subscriptions with same | ⟨c, deed, called⟩
    · rw [same]
      exact ih
    · rw [called]
      refine ih.answer c ?_
      rintro y rfl
      exact rooted.faithful run conforms (by rw [deed]; rfl)

/-! ## Over time -/

section

variable (blank : w.subscriptions.rows = []) (run : Run flow (.start w) ms s)

include blank run

theorem created_before {r : Subscription} (hr : r ∈ (storeAt ms s.shared k).rows) :
    Created (ms.take k) r.origin := by
  obtain ⟨s', first, here⟩ := run_take run k
  rw [here] at hr
  exact (rooted blank first).rows r hr

theorem created_stored {r : Subscription} (hr : r ∈ (storeAt ms s.shared k).rows) :
    Created ms r.origin := by
  rw [← List.take_append_drop k ms]
  exact (created_before blank run hr).append _

theorem absent_onward {r : Subscription} (stored : r ∈ (storeAt ms s.shared j).rows) (jk : j ≤ k)
    (absent : ∀ x ∈ (storeAt ms s.shared k).rows, x.id ≠ r.id) (kq : k ≤ q) :
    ∀ x ∈ (storeAt ms s.shared q).rows, x.id ≠ r.id := by
  induction kq with
  | refl => exact absent
  | @step n kn ih =>
    intro x hx same
    cases at_n : ms[n]? with
    | none =>
      have past_end := List.getElem?_eq_none_iff.mp at_n
      rw [storeAt_end _ (by omega)] at hx
      rw [storeAt_end _ past_end] at ih
      exact ih x hx same
    | some m =>
      rw [storeAt_succ run at_n] at hx
      rw [storeAt_before _ at_n] at ih
      rcases (run.allowed m (List.mem_of_getElem? at_n)).subscriptions with
        still | ⟨c, deed, after⟩
      · rw [still] at hx
        exact ih x hx same
      · rw [after] at hx
        rcases Store.Subscriptions.id_of_mem_answer hx with ⟨old, hold, id⟩ | rfl
        · exact ih old hold (id.trans same)
        · -- The identity was created before the row was stored.
          obtain ⟨i, m', y, b, at_i, deed', origin⟩ := (created_before blank run stored).position
          have inside := (List.getElem?_eq_some_iff.mp at_i).1
          rw [List.length_take] at inside
          rw [List.getElem?_take_of_lt (by omega)] at at_i
          have created : y.id = x.id := (Subscription.id_of_origin origin).trans same.symm
          have once := creates_once run at_i at_n deed' deed created
          have later : k ≤ n := kn
          omega

theorem deleted_onward (at_k : ms[k]? = some m)
    (deed : m.deed = .answered ⟨.subscriptions (.delete id), some (.ok true)⟩) (later : k < q) :
    ∀ r ∈ (storeAt ms s.shared q).rows, r.id ≠ id := by
  obtain ⟨answer, after⟩ := (run.allowed m (List.mem_of_getElem? at_k)).answer deed (by simp)
  obtain ⟨r, stored, rfl⟩ := Store.Subscriptions.mem_of_deleted answer.symm
  rw [← storeAt_before s.shared at_k] at stored
  refine absent_onward blank run stored (Nat.le_succ k) ?_ later
  rw [storeAt_succ run at_k, after]
  exact Store.Subscriptions.absent_of_delete _ _

end

/-! ## The whole -/

/-- What holds of the identity of rows, at each position of a run and at its end. -/
structure RowsIdentified (ms : List (Move Chore)) (s : System Chore Result) : Prop where
  ids : (s.shared.subscriptions.rows.map (·.id)).Nodup
  pairs : (s.shared.subscriptions.rows.map fun r => (r.channelId, r.callbackUrl)).Nodup
  topics : ∀ r ∈ s.shared.subscriptions.rows, r.topicUrl = topicUrl r.channelId
  /-- Rows that are stored under one identity, at whatever times, have one origin. -/
  fixed : ∀ k q, ∀ r ∈ (storeAt ms s.shared k).rows, ∀ r' ∈ (storeAt ms s.shared q).rows,
    r.id = r'.id → r.origin = r'.origin
  /-- And that origin is the one of a row whose creation was answered. -/
  created : ∀ k, ∀ r ∈ (storeAt ms s.shared k).rows, Created (ms.take k) r.origin
  /-- What was stored and is not stored any more is not stored ever after. -/
  gone : ∀ j k q id, j ≤ k → k ≤ q → (∃ r ∈ (storeAt ms s.shared j).rows, r.id = id) →
    (∀ r ∈ (storeAt ms s.shared k).rows, r.id ≠ id) →
      ∀ r ∈ (storeAt ms s.shared q).rows, r.id ≠ id
  /-- So it is with what was deleted. -/
  deleted : ∀ (k q : Nat) (m : Move Chore) (id : Uuid), ms[k]? = some m →
    m.deed = .answered ⟨.subscriptions (.delete id), some (.ok true)⟩ → k < q →
      ∀ r ∈ (storeAt ms s.shared q).rows, r.id ≠ id

theorem rows_identified (blank : w.subscriptions.rows = []) (run : Run flow (.start w) ms s) :
    RowsIdentified ms s where
  ids := uniqueIds_of_run (Store.Subscriptions.uniqueIds_of_blank blank) run
  pairs := uniquePairs blank run
  topics := fun r hr => ((rooted blank run).rows r hr).topic run
  fixed := by
    intro k q r hr r' hr' same
    exact (created_stored blank run hr).eq run (created_stored blank run hr') same
  created := fun k r hr => created_before blank run hr
  gone := by
    rintro j k q id jk kq ⟨r, stored, rfl⟩ absent
    exact absent_onward blank run stored jk absent kq
  deleted := fun k q m id at_k deed later => deleted_onward blank run at_k deed later

/-- Two subscriptions for one new channel, neither of which finds a row: one of them creates it. -/
theorem rows_identified_twice :
    ∃ ms s, Run flow (.start .empty) ms s ∧ Shared.empty.subscriptions.rows = [] ∧
      (∀ i < 2, ⟨.subscriptions (.findByPair "a" "c"), some (.ok none)⟩ ∈ past ⟨i, none⟩ ms ∧
        ∃ y b, ⟨.subscriptions (.create y), b⟩ ∈ past ⟨i, none⟩ ms) ∧
      s.shared.subscriptions.rows = [Errand.plainRow .pending none] ∧ RowsIdentified ms s := by
  have r : Run flow (.start .empty) [] (.start .empty) := .start
  have r := (r.quiet (.begin _ (.errand .plain))).quiet (.begin _ (.errand .plain))
  have r := r.move (Step.answer (i := 0) rfl (some (Except.ok none)) (by exact Or.inl ⟨rfl, rfl⟩)
    id False.elim)
  have r := r.move (Step.answer (i := 1) rfl (some (Except.ok none)) (by exact Or.inl ⟨rfl, rfl⟩)
    id False.elim)
  have r := r.move (Step.draw (i := 0) rfl (.drawn 0) List.not_mem_nil)
  have r := r.move (Step.read (i := 0) rfl)
  have r := r.move (Step.draw (i := 1) rfl (.drawn 1) (by decide))
  have r := r.move (Step.read (i := 1) rfl)
  have r : Run flow (.start .empty) _
      ⟨⟨.table ⟨[Errand.plainRow .pending none]⟩, .table {}, [.drawn 0, .drawn 1], [], false,
        false⟩, _⟩ :=
    r.move (Step.answer (i := 0) rfl _ (by exact Or.inl ⟨rfl, rfl⟩) id False.elim)
  have r : Run flow (.start .empty) _
      ⟨⟨.table ⟨[Errand.plainRow .pending none]⟩, .table {}, [.drawn 0, .drawn 1], [], false,
        false⟩, _⟩ :=
    r.move (Step.answer (i := 1) rfl _ (by exact Or.inl ⟨rfl, rfl⟩) id False.elim)
  refine ⟨_, _, r, rfl, ?_, rfl, rows_identified rfl r⟩
  intro i hi
  have either : i = 0 ∨ i = 1 := by omega
  rcases either with rfl | rfl
  · exact ⟨mem_past.mpr ⟨_, List.mem_of_getElem? (i := 0) rfl, rfl, rfl⟩, _, _,
      mem_past.mpr ⟨_, List.mem_of_getElem? (i := 6) rfl, rfl, rfl⟩⟩
  · exact ⟨mem_past.mpr ⟨_, List.mem_of_getElem? (i := 1) rfl, rfl, rfl⟩, _, _,
      mem_past.mpr ⟨_, List.mem_of_getElem? (i := 7) rfl, rfl, rfl⟩⟩

end Chore

end WebSub
