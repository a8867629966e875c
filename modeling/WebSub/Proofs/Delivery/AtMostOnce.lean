import WebSub.Proofs.Delivery.Ledger

/-!
# At most once

However deliveries of one content interleave, one of them at most is taken on: it alone stores a
row and has its content handed on. Every other one ends as a duplicate and leaves no trace.
-/

namespace WebSub.Delivery

open Interleaving
open Store (Distinct)

variable {w : Shared} {ms : List (Move Job)} {s s' : System Job (Except Error Outcome)}
  {m : Move Job}

/-! ## What is handed on -/

/-- The call of the handler that a move is, with the fingerprint of the body that it is about. -/
def handOff? (m : Move Job) : Option (String × Uuid × Feed.Notification) :=
  match m.deed with
  | .answered ⟨.handle id n, _⟩ => some (fingerprint m.operation.body, id, n)
  | _ => none

def handOffs (ms : List (Move Job)) : List (String × Uuid × Feed.Notification) :=
  ms.filterMap handOff?

theorem handOffs_append (ms : List (Move Job)) (m : Move Job) :
    handOffs (ms ++ [m]) = handOffs ms ++ (handOff? m).toList := by
  rw [handOffs, List.filterMap_append]
  congr 1

theorem handOff?_eq_some {c : String × Uuid × Feed.Notification} (h : handOff? m = some c) :
    fingerprint m.operation.body = c.1 ∧ ∃ a, m.deed = .answered ⟨.handle c.2.1 c.2.2, a⟩ := by
  unfold handOff? at h
  split at h
  case h_1 id n a deed =>
    cases h
    exact ⟨rfl, a, deed⟩
  case h_2 => cases h

theorem handOff?_eq_none {x : Exchange} (deed : m.deed = .answered x)
    (h : ∀ id n a, x ≠ ⟨.handle id n, a⟩) : handOff? m = none := by
  unfold handOff?
  split
  case h_1 id n a same =>
    rw [deed] at same
    exact absurd (Deed.answered.inj same) (h id n a)
  case h_2 => rfl

theorem said?_ne_none_of_mem {past : List Exchange} {id : Uuid} {n : Feed.Notification}
    {a : Except (List String) Unit} (h : ⟨.handle id n, a⟩ ∈ past) : said? past ≠ none := by
  intro none
  have silent := List.findSome?_eq_none_iff.mp none _ h
  cases silent

theorem said_of_mem_handOffs (run : Run Job.flow (.start w) ms s) {f : String}
    (h : f ∈ (handOffs ms).map (·.1)) :
    ∃ i t, s.threads[i]? = some t ∧ fingerprint t.operation.body = f ∧ said? (own ms i) ≠ none := by
  obtain ⟨c, hc, rfl⟩ := List.mem_map.mp h
  obtain ⟨m, hm, off⟩ := List.mem_filterMap.mp hc
  obtain ⟨hash, a, deed⟩ := handOff?_eq_some off
  obtain ⟨t, at_i, same⟩ := thread_of_mem run hm
  obtain ⟨pre, post, rfl⟩ := List.append_of_mem hm
  obtain ⟨x, answered⟩ := answered_of_split run rfl
  refine ⟨m.actor.thread, t, at_i, by rw [same]; exact hash, ?_⟩
  cases deed.symm.trans answered.deed
  apply said?_ne_none_of_mem
  rw [own_split post answered]
  exact List.mem_append_left _ List.mem_concat_self

theorem handOffs_nodup (known : Known w) (distinct : Distinct w.events.rows)
    (run : Run Job.flow (.start w) ms s) :
    s.shared.handled = w.handled ++ (handOffs ms).map (·.2) ∧
      ((handOffs ms).map (·.1)).Nodup := by
  induction run with
  | start => simp [handOffs, System.start]
  | @quiet ms s s' run h ih =>
    obtain ⟨b, same⟩ := h.shared_of_quiet
    rw [same]
    exact ih
  | @move ms m s s' run h ih =>
    obtain ⟨log, nodup⟩ := ih
    obtain ⟨x, answered⟩ := answered_of_move (orderly run) h
    obtain ⟨before, after, -⟩ := h.allowed
    have asked := answered.asked
    have answers := answered.answers
    rw [before, after] at answers
    by_cases off : ∃ id n a, x = ⟨.handle id n, a⟩
    · obtain ⟨id, n, a, rfl⟩ := off
      obtain ⟨unsaid, -, e, stored, -, -⟩ := asked
      have here : handOff? m = some (fingerprint m.operation.body, id, n) := by
        unfold handOff?
        rw [answered.deed]
      rw [handOffs_append, here, Option.toList_some]
      constructor
      · rw [answers]
        simp only [log, List.map_append, List.map_cons, List.map_nil, List.append_assoc]
      · rw [List.map_append, List.nodup_append]
        refine ⟨nodup, by simp, ?_⟩
        intro f hf f' hf' same
        rw [List.map_singleton, List.mem_singleton] at hf'
        subst hf'
        -- Whoever was handed on with this fingerprint has a row with it, as this delivery has.
        obtain ⟨i, t, at_i, hash, said⟩ := said_of_mem_handOffs run hf
        obtain ⟨b, hb⟩ := Option.ne_none_iff_exists'.mp said
        obtain ⟨r, -, hr, -⟩ := (sensible run at_i).said b hb
        obtain ⟨-, theirs⟩ := (sensible run at_i).body r hr
        obtain ⟨t', at_m⟩ := h.thread
        obtain ⟨-, mine⟩ := (sensible run at_m).body e stored
        have here := (ledger known distinct run).eq_of_hash hr stored
          (by rw [theirs, mine, hash, same])
        rw [here] at said
        exact said unsaid
    · have here : handOff? m = none := by
        refine handOff?_eq_none answered.deed ?_
        intro id n a hx
        exact off ⟨id, n, a, hx⟩
      rw [handOffs_append, here, Option.toList_none, List.append_nil]
      refine ⟨?_, nodup⟩
      rw [← log]
      refine Shared.handled_of_answers answers ?_
      obtain ⟨q, a⟩ := x
      rintro id n rfl
      exact off ⟨id, n, a, rfl⟩

/-! ## Who takes a body on -/

/-- A delivery takes its body on: it has stored a record of it, or has come to an outcome. -/
def TakesOn (ms : List (Move Job)) (i : Nat) (t : Thread Job (Except Error Outcome)) : Prop :=
  (∃ e a, ⟨.events (.insertNew e), .ok a⟩ ∈ own ms i) ∨ ∃ o, t.task.result? = some (.ok o)

theorem row?_isSome_of_mem {past : List Exchange} {e a : Event}
    (h : ⟨.events (.insertNew e), .ok a⟩ ∈ past) : (row? past).isSome := by
  obtain ⟨before, after, rfl⟩ := List.append_of_mem h
  rw [← List.singleton_append, ← List.append_assoc]
  apply row?_isSome_append
  rw [row?_append]
  rfl

theorem row?_isSome_of_takesOn (run : Run Job.flow (.start w) ms s) {i : Nat}
    {t : Thread Job (Except Error Outcome)} (at_i : s.threads[i]? = some t)
    (h : TakesOn ms i t) : (row? (own ms i)).isSome := by
  rcases h with ⟨e, a, h⟩ | ⟨o, h⟩
  · exact row?_isSome_of_mem h
  · obtain ⟨e, o', row, -⟩ := (orderly run).ended at_i h
    rw [own, row]
    rfl

theorem row?_eq_none_of_not_takesOn (run : Run Job.flow (.start w) ms s) {i : Nat}
    {t : Thread Job (Except Error Outcome)} (at_i : s.threads[i]? = some t)
    (h : ¬ TakesOn ms i t) : row? (own ms i) = none := by
  cases row : row? (own ms i) with
  | none => rfl
  | some r =>
    obtain ⟨a, stored⟩ := (sensible run at_i).stored r row
    exact absurd (Or.inl ⟨r.receipt, a, stored⟩) h

theorem eq_of_takesOn (known : Known w) (distinct : Distinct w.events.rows)
    (run : Run Job.flow (.start w) ms s) {i i' : Nat} {t t' : Thread Job (Except Error Outcome)}
    (at_i : s.threads[i]? = some t) (at_i' : s.threads[i']? = some t')
    (same : fingerprint t.operation.body = fingerprint t'.operation.body)
    (h : TakesOn ms i t) (h' : TakesOn ms i' t') : i = i' := by
  obtain ⟨r, row⟩ := Option.isSome_iff_exists.mp (row?_isSome_of_takesOn run at_i h)
  obtain ⟨r', row'⟩ := Option.isSome_iff_exists.mp (row?_isSome_of_takesOn run at_i' h')
  refine (ledger known distinct run).eq_of_hash row row' ?_
  rw [((sensible run at_i).body r row).2, ((sensible run at_i').body r' row').2, same]

/-! ## Who does not -/

theorem Answered.leaves {x : Exchange} (h : Answered ms m x)
    (none : row? (own (ms ++ [m]) m.actor.thread) = none) :
    m.after.events = m.before.events ∧ m.after.handled = m.before.handled := by
  have asked := h.asked
  have answers := h.answers
  have before : row? (own ms m.actor.thread) = Option.none := by
    cases row : row? (own ms m.actor.thread) with
    | none => rfl
    | some r =>
      have kept := row?_isSome_append (own ms m.actor.thread) [x] (by rw [row]; rfl)
      rw [← h.own_self, none] at kept
      cases kept
  obtain ⟨q, a⟩ := x
  refine ⟨?_, Shared.handled_of_answers answers ?_⟩
  · cases q with
    | events c =>
      rcases answers with ⟨answer, after⟩ | ⟨-, after⟩
      · cases c with
        | insertNew e =>
          rcases Store.Events.answer_insertNew m.before.events e with ⟨refused, -⟩ | ⟨ok, -⟩
          · rw [after, refused]
          · rw [ok] at answer
            subst answer
            rw [h.row?_self] at none
            cases none
        | recordOutcome id o =>
          obtain ⟨-, e, stored, -⟩ := asked
          cases before.symm.trans stored
        | find id => exact asked.elim
        | findByHash hash => exact asked.elim
      · rw [after]
    | _ => exact Shared.events_of_answers answers (by simp)
  · rintro id n rfl
    obtain ⟨-, -, e, stored, -⟩ := asked
    cases before.symm.trans stored

theorem exists_of_refused (known : Known w) (distinct : Distinct w.events.rows)
    (run : Run Job.flow (.start w) ms s) {e : Event} (before : m.before = s.shared)
    (h : Answered ms m ⟨.events (.insertNew e), .error .duplicate⟩) (sound : m.Sound) :
    ∃ r ∈ s.shared.events.rows, r.contentHash = fingerprint m.operation.body := by
  obtain ⟨-, none, drawn, -, -, hash⟩ := h.asked
  have ledger := ledger known distinct run
  have answer := sound.events h.deed
  rcases Store.Events.answer_insertNew m.before.events e with ⟨-, r, hr, clash⟩ | ⟨ok, -⟩
  · rw [before] at hr
    rcases clash with clash | clash
    · exfalso
      rcases (ledger.rows r).mp hr with old | ⟨i, row⟩
      · apply (ledger.drawn _ _ drawn).2
        rw [← clash]
        exact known r old
      · have named := ledger.named i r row
        rw [clash] at named
        have mine := ledger.apart _ _ _ named drawn
        rw [mine, none] at row
        cases row
    · exact ⟨r, hr, clash.trans hash⟩
  · rw [ok] at answer
    cases answer

theorem refused_of_mem (known : Known w) (distinct : Distinct w.events.rows)
    (run : Run Job.flow (.start w) ms s) {i : Nat} {t : Thread Job (Except Error Outcome)}
    (at_i : s.threads[i]? = some t) (sound : ∀ m ∈ ms, m.actor.thread = i → m.Sound) {e : Event}
    {f : Store.Error} (h : ⟨.events (.insertNew e), .error f⟩ ∈ own ms i) :
    f = .duplicate ∧
      ∃ row ∈ s.shared.events.rows, row.contentHash = fingerprint t.operation.body := by
  obtain ⟨m, hm, actor, deed⟩ := mem_past.mp h
  obtain ⟨pre, post, split⟩ := List.append_of_mem hm
  obtain ⟨s₁, s₂, first, step, rest⟩ := run.split split
  obtain ⟨x, answered⟩ := answered_of_move (orderly first) step
  obtain ⟨before, -, -⟩ := step.allowed
  obtain ⟨t', at_m, same⟩ := thread_of_mem run hm
  rw [actor, at_i] at at_m
  cases at_m
  cases deed.symm.trans answered.deed
  have here := sound m hm (by rw [actor])
  have answer := here.events deed
  rcases Store.Events.answer_insertNew m.before.events e with ⟨refused, -⟩ | ⟨ok, -⟩
  · rw [refused] at answer
    cases answer
    obtain ⟨row, hrow, hash⟩ := exists_of_refused known distinct first before answered here
    have onward := Run.trans (Run.start.move step) rest
    obtain ⟨-, kept⟩ := appendOnly onward (ledger known distinct first).distinct
    obtain ⟨row', hrow', receipt⟩ := kept row hrow
    refine ⟨rfl, row', hrow', ?_⟩
    rw [← Event.receipt_contentHash, receipt, Event.receipt_contentHash, hash, same]
  · rw [ok] at answer
    cases answer

theorem duplicate_of_not_takesOn (known : Known w) (distinct : Distinct w.events.rows)
    (run : Run Job.flow (.start w) ms s) {i : Nat} {t : Thread Job (Except Error Outcome)}
    (at_i : s.threads[i]? = some t) (idle : ¬ TakesOn ms i t) (passes : t.operation.Passes)
    (sound : ∀ m ∈ ms, m.actor.thread = i → m.Sound) {r : Except Error Outcome}
    (ended : t.task.result? = some r) :
    r = .error (.duplicate (fingerprint t.operation.body)) ∧
      ∃ row ∈ s.shared.events.rows, row.contentHash = fingerprint t.operation.body := by
  have none := row?_eq_none_of_not_takesOn run at_i idle
  have ends := (orderly run).ended at_i ended
  match r with
  | .error (.signature e) =>
    cases passes.symm.trans ends
  | .error (.duplicate contentHash) =>
    obtain ⟨hash, -, e, told⟩ := ends
    obtain ⟨-, row⟩ := refused_of_mem known distinct run at_i sound told
    exact ⟨by rw [hash], row⟩
  | .error (.persistence f) =>
    rcases ends with ⟨-, other, e, told⟩ | ⟨e, -, row, -⟩
    · exact absurd (refused_of_mem known distinct run at_i sound told).1 other
    · cases none.symm.trans row
  | .ok o =>
    obtain ⟨e, o', row, -⟩ := ends
    cases none.symm.trans row

/-! ## Every delivery ends -/

theorem exists_step (run : Run Job.flow (.start w) ms s) (left : ∃ id, id ∉ s.shared.drawn)
    {i : Nat} {t : Thread Job (Except Error Outcome)} (at_i : s.threads[i]? = some t)
    (unended : t.task.result? = none) :
    ∃ m s', m.actor = ⟨i, none⟩ ∧ Step Job.flow s (some m) s' := by
  obtain ⟨j, task⟩ := t
  have keeps := (orderly run).tasks i ⟨j, task⟩ at_i
  cases task with
  | renewing b next => exact keeps.1.1.2.elim
  | line l =>
    obtain ⟨rest, calling⟩ := l
    cases rest with
    | done a => cases unended
    | crash => exact keeps.1.elim
    | ask q next =>
      have asked := keeps.1.1.2
      have go : ∀ (a : q.Answer) (w' : Shared), s.shared.Answers w' q a → ¬ IsRenewal q →
          ¬ FromHub q a → ∃ m s', m.actor = ⟨i, none⟩ ∧ Step Job.flow s (some m) s' := by
        intro a w' answers single near
        exact ⟨_, _, rfl, .move at_i (.line (.answer answers single fun far => absurd far near))⟩
      cases q with
      | now => exact go ⟨0⟩ s.shared ⟨isReading_epoch, rfl⟩ id id
      | freshId =>
        obtain ⟨id, new⟩ := left
        exact go id _ ⟨new, rfl⟩ (fun h => h) fun h => h
      | events c => exact go _ _ (Or.inl ⟨rfl, rfl⟩) id id
      | handle id n => exact go (.ok ()) _ rfl (fun h => h) fun h => h
      | count metric amount => exact go () _ rfl id id
      | _ => exact asked.elim

theorem own_length (run : Run Job.flow (.start w) ms s) {i : Nat}
    {t : Thread Job (Except Error Outcome)} (at_i : s.threads[i]? = some t) :
    (own ms i).length ≤ 7 := by
  apply (orderly run).own_induction (P := fun past => past.length ≤ 7) at_i
  · simp
  · intro past x asked _
    rw [List.length_append, List.length_singleton]
    exact asked.1

/-! ## The whole -/

/-- Of the deliveries of one content at most one is taken on, wherever they stand. -/
structure AtMostOnce (w : Shared) (ms : List (Move Job)) (s : System Job (Except Error Outcome)) :
    Prop where
  distinct : Distinct s.shared.events.rows
  /-- The handler's log holds the calls of these deliveries, no two of them for one content. -/
  log : s.shared.handled = w.handled ++ (handOffs ms).map (·.2)
  handed_once : ((handOffs ms).map (·.1)).Nodup
  one : ∀ i i' t t', s.threads[i]? = some t → s.threads[i']? = some t' →
    fingerprint t.operation.body = fingerprint t'.operation.body →
    TakesOn ms i t → TakesOn ms i' t' → i = i'
  /-- A delivery that does not take its body on ends as a duplicate of what is stored. -/
  duplicate : ∀ i t, s.threads[i]? = some t → ¬ TakesOn ms i t → t.operation.Passes →
    (∀ m ∈ ms, m.actor.thread = i → m.Sound) → ∀ r, t.task.result? = some r →
      r = .error (.duplicate (fingerprint t.operation.body)) ∧
        ∃ row ∈ s.shared.events.rows, row.contentHash = fingerprint t.operation.body
  /-- It changes neither the events nor the handler's log. -/
  traceless : ∀ i t, s.threads[i]? = some t → ¬ TakesOn ms i t → ∀ m ∈ ms, m.actor.thread = i →
    m.after.events = m.before.events ∧ m.after.handled = m.before.handled
  /-- No delivery breaks down, and each has ended after seven steps at most. -/
  ends : ∀ i t, s.threads[i]? = some t → t.task.rest ≠ .crash ∧ (own ms i).length ≤ 7 ∧
    ((∃ id, id ∉ s.shared.drawn) → t.task.result? = none →
      ∃ m s', m.actor = ⟨i, none⟩ ∧ Step Job.flow s (some m) s')

/-- Whatever the deliveries, the answers and the order of the steps, no content is ever taken on
twice. -/
theorem deliveries_atMostOnce (known : Known w) (distinct : Distinct w.events.rows)
    (run : Run Job.flow (.start w) ms s) : AtMostOnce w ms s where
  distinct := (ledger known distinct run).distinct
  log := (handOffs_nodup known distinct run).1
  handed_once := (handOffs_nodup known distinct run).2
  one := by
    intro i i' t t' at_i at_i' same takes takes'
    exact eq_of_takesOn known distinct run at_i at_i' same takes takes'
  duplicate := by
    intro i t at_i idle passes sound r ended
    exact duplicate_of_not_takesOn known distinct run at_i idle passes sound ended
  traceless := by
    rintro i t at_i idle m hm rfl
    have none := row?_eq_none_of_not_takesOn run at_i idle
    obtain ⟨pre, post, split⟩ := List.append_of_mem hm
    obtain ⟨x, answered⟩ := answered_of_split run split
    apply answered.leaves
    cases row : row? (own (pre ++ [m]) m.actor.thread) with
    | none => rfl
    | some r =>
      have kept := row?_isSome_append _ (own post m.actor.thread) (by rw [row]; rfl)
      rw [answered.own_self, ← own_split post answered, ← split, none] at kept
      cases kept
  ends := by
    intro i t at_i
    refine ⟨?_, own_length run at_i, ?_⟩
    · intro broken
      exact (orderly run).broken at_i broken
    · intro left unended
      exact exists_step run left at_i unended

/-- Two deliveries of no bytes, the second one while the first one has just stored its row. -/
theorem deliveries_atMostOnce_twice :
    ∃ ms s, Run Job.flow (.start .empty) ms s ∧ Distinct Shared.empty.events.rows ∧
      Known .empty ∧ (s.threads[1]?.bind (·.task.result?)) =
        some (.error (.duplicate (fingerprint []))) ∧ AtMostOnce .empty ms s := by
  have r : Run Job.flow (.start .empty) [] (.start .empty) := .start
  have r := (r.quiet (.begin _ .bare)).quiet (.begin _ .bare)
  have r := r.move (Step.read (i := 0) rfl)
  have r := r.move (Step.draw (i := 0) rfl (.drawn 0) List.not_mem_nil)
  have r := r.move (Step.read (i := 0) rfl)
  have r : Run Job.flow (.start .empty) _
      ⟨⟨.table {}, .table ⟨[Job.bareRow]⟩, [.drawn 0], [], false, false⟩, _⟩ :=
    r.move (Step.answer (i := 0) rfl _ (by exact Or.inl ⟨rfl, rfl⟩) id False.elim)
  have r := r.move (Step.read (i := 1) rfl)
  have r := r.move (Step.draw (i := 1) rfl (.drawn 1) (by simp [Uuid.drawn]))
  have r := r.move (Step.read (i := 1) rfl)
  have refused := Store.Events.answer_insertNew_of_hash (s := .table ⟨[Job.bareRow]⟩)
    (r := Job.bareRow) (e := .received (.drawn 1) [] (fingerprint []) ⟨0⟩ ⟨0⟩)
    (List.mem_singleton.mpr rfl) rfl
  have r := r.move (Step.answer (i := 1) rfl (Except.error Store.Error.duplicate)
    (by exact Or.inl ⟨(congrArg Prod.fst refused).symm, rfl⟩) id False.elim)
  have r := r.move (Step.answer (i := 1) rfl () (by exact rfl) id False.elim)
  have distinct : Distinct Shared.empty.events.rows := ⟨List.nodup_nil, List.nodup_nil⟩
  have known : Known .empty := fun _ h => absurd h List.not_mem_nil
  exact ⟨_, _, r, distinct, known, rfl, deliveries_atMostOnce known distinct r⟩

end WebSub.Delivery
