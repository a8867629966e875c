import WebSub.Proofs.Delivery.Conduct

/-!
# The ledger of deliveries

Deliveries side by side on one store of events: in every order of their steps, the store holds what
it held at first and the rows that the deliveries have stored, each as its delivery left it.
-/

namespace WebSub.Delivery

open Interleaving
open Store (Distinct recorded)

variable {w : Shared} {ms : List (Move Job)} {s s' : System Job (Except Error Outcome)}
  {m : Move Job}

/-- Each identity in the store was given out. -/
def Known (w : Shared) : Prop := ∀ r ∈ w.events.rows, r.id ∈ w.drawn

theorem orderly (run : Run Job.flow (.start w) ms s) : Orderly Job.conduct (fun _ => .free) ms s :=
  run.orderly Job.keeps fun _ => keeps_free _ _

def own (ms : List (Move Job)) (i : Nat) : List Exchange := past ⟨i, none⟩ ms

/-! ## One move -/

/-- A move of a delivery: it had reason to ask for what it was answered. -/
structure Answered (ms : List (Move Job)) (m : Move Job) (x : Exchange) : Prop where
  actor : m.actor = ⟨m.actor.thread, none⟩
  deed : m.deed = .answered x
  asked : m.operation.Asks (own ms m.actor.thread) x.request
  answers : m.before.Answers m.after x.request x.answer

theorem answered_of_move (orderly : Orderly Job.conduct (fun _ => .free) ms s)
    (h : Step Job.flow s (some m) s') : ∃ x, Answered ms m x := by
  obtain ⟨-, -, allowed⟩ := h.allowed
  have conforms := (orderly.move h).moves ms m [] rfl
  unfold Conforms at conforms
  cases alone : m.actor.renewal with
  | some k =>
    rw [alone] at conforms
    obtain ⟨limit, rows, -, -, ⟨-, asked⟩, -⟩ := conforms
    exact asked.elim
  | none =>
    rw [alone] at conforms
    have actor : m.actor = ⟨m.actor.thread, none⟩ := by rw [← alone]
    rw [actor] at conforms
    obtain ⟨-, asked⟩ := conforms
    unfold Move.Allowed at allowed
    cases deed : m.deed with
    | called q =>
      rw [deed] at allowed asked
      have leaves := allowed.1
      cases q with
      | hub => exact asked.elim
      | hubUnlessStopped => exact asked.elim
      | _ => exact leaves.elim
    | answered x =>
      rw [deed] at allowed asked
      exact ⟨x, actor, deed, asked, allowed⟩

namespace Answered

variable {x : Exchange}

theorem own_self (h : Answered ms m x) :
    own (ms ++ [m]) m.actor.thread = own ms m.actor.thread ++ [x] := by
  unfold own
  rw [← h.actor, past_append, past_of_answered h.deed]

theorem own_other (h : Answered ms m x) {i : Nat} (ne : i ≠ m.actor.thread) :
    own (ms ++ [m]) i = own ms i := by
  unfold own
  rw [past_append, past_of_ne, List.append_nil]
  rw [h.actor]
  simp only [ne_eq, Actor.mk.injEq, and_true]
  exact Ne.symm ne

theorem mem_own (h : Answered ms m x) {i : Nat} {y : Exchange} :
    y ∈ own (ms ++ [m]) i ↔ y ∈ own ms i ∨ (i = m.actor.thread ∧ y = x) := by
  by_cases hi : i = m.actor.thread
  · subst hi
    rw [h.own_self, List.mem_append, List.mem_singleton]
    simp only [true_and]
  · rw [h.own_other hi]
    simp only [hi, false_and, or_false]

theorem row?_self (h : Answered ms m x) :
    row? (own (ms ++ [m]) m.actor.thread) = note (row? (own ms m.actor.thread)) x := by
  rw [h.own_self, row?_append]

end Answered

/-! ## Identities -/

/-- Each identity that a delivery drew is its own. -/
structure Identities (w : Shared) (ms : List (Move Job)) (now : Shared) : Prop where
  kept : ∀ id ∈ w.drawn, id ∈ now.drawn
  drawn : ∀ i id, ⟨.freshId, id⟩ ∈ own ms i → id ∈ now.drawn ∧ id ∉ w.drawn
  apart : ∀ i i' id, ⟨.freshId, id⟩ ∈ own ms i → ⟨.freshId, id⟩ ∈ own ms i' → i = i'

theorem identities_start (w : Shared) : Identities w [] w where
  kept := fun _ h => h
  drawn := by simp [own]
  apart := by simp [own]

theorem Identities.draw {id : Uuid} (ids : Identities w ms m.before)
    (h : Answered ms m ⟨.freshId, id⟩) : Identities w (ms ++ [m]) m.after := by
  obtain ⟨fresh, after⟩ := h.answers
  have new : ∀ i, ⟨.freshId, id⟩ ∉ own ms i := fun i hid => fresh (ids.drawn i id hid).1
  refine ⟨?_, ?_, ?_⟩
  · intro id' hid'
    rw [after]
    exact List.mem_append_left _ (ids.kept id' hid')
  · intro i id' hid'
    rw [after]
    rcases h.mem_own.mp hid' with hid' | ⟨-, same⟩
    · obtain ⟨now, old⟩ := ids.drawn i id' hid'
      exact ⟨List.mem_append_left _ now, old⟩
    · cases same
      exact ⟨List.mem_concat_self, fun hw => fresh (ids.kept id hw)⟩
  · intro i i' id' hid hid'
    rcases h.mem_own.mp hid with hid | ⟨hi, same⟩
    · rcases h.mem_own.mp hid' with hid' | ⟨-, same'⟩
      · exact ids.apart i i' id' hid hid'
      · cases same'
        exact absurd hid (new i)
    · cases same
      rcases h.mem_own.mp hid' with hid' | ⟨hi', -⟩
      · exact absurd hid' (new i')
      · rw [hi, hi']

theorem Identities.keep {x : Exchange} (ids : Identities w ms m.before) (h : Answered ms m x)
    (draws : x.request ≠ .freshId) (drawn : m.after.drawn = m.before.drawn) :
    Identities w (ms ++ [m]) m.after := by
  have before : ∀ i id, ⟨.freshId, id⟩ ∈ own (ms ++ [m]) i → ⟨.freshId, id⟩ ∈ own ms i := by
    intro i id hid
    rcases h.mem_own.mp hid with hid | ⟨-, same⟩
    · exact hid
    · rw [← same] at draws
      exact absurd rfl draws
  refine ⟨?_, ?_, ?_⟩
  · rw [drawn]
    exact ids.kept
  · rw [drawn]
    intro i id hid
    exact ids.drawn i id (before i id hid)
  · intro i i' id hid hid'
    exact ids.apart i i' id (before i id hid) (before i' id hid')

/-! ## The ledger -/

/-- The store holds what it held at first and what the deliveries have stored. -/
structure Ledger (w : Shared) (ms : List (Move Job)) (now : Shared) : Prop
    extends Identities w ms now where
  distinct : Distinct now.events.rows
  rows : ∀ r, r ∈ now.events.rows ↔ r ∈ w.events.rows ∨ ∃ i, row? (own ms i) = some r
  /-- A row has the identity that its delivery drew. -/
  named : ∀ i r, row? (own ms i) = some r → ⟨.freshId, r.id⟩ ∈ own ms i

theorem ledger_start (w : Shared) (distinct : Distinct w.events.rows) : Ledger w [] w where
  toIdentities := identities_start w
  distinct := distinct
  rows := by simp [own, row?]
  named := by simp [own, row?]

theorem Ledger.keep {x : Exchange} (ledger : Ledger w ms m.before) (h : Answered ms m x)
    (ids : Identities w (ms ++ [m]) m.after) (rows : m.after.events.rows = m.before.events.rows)
    (notes : ∀ row, note row x = row) : Ledger w (ms ++ [m]) m.after := by
  have same : ∀ i, row? (own (ms ++ [m]) i) = row? (own ms i) := by
    intro i
    by_cases hi : i = m.actor.thread
    · rw [hi, h.row?_self, notes]
    · rw [h.own_other hi]
  refine ⟨ids, ?_, ?_, ?_⟩
  · rw [rows]
    exact ledger.distinct
  · intro r
    rw [rows, ledger.rows]
    simp only [same]
  · intro i r hr
    rw [same] at hr
    exact h.mem_own.mpr (Or.inl (ledger.named i r hr))

theorem Ledger.store {e answer : Event} (ledger : Ledger w ms m.before)
    (h : Answered ms m ⟨.events (.insertNew e), .ok answer⟩)
    (ids : Identities w (ms ++ [m]) m.after)
    (rows : m.after.events.rows = m.before.events.rows ++ [e])
    (new : ∀ r ∈ m.before.events.rows, r.id ≠ e.id ∧ r.contentHash ≠ e.contentHash) :
    Ledger w (ms ++ [m]) m.after := by
  obtain ⟨-, none, drawn, -⟩ := h.asked
  refine ⟨ids, ?_, ?_, ?_⟩
  · rw [rows]
    exact ledger.distinct.append new
  · intro r
    rw [rows, List.mem_append, List.mem_singleton, ledger.rows]
    constructor
    · rintro ((old | ⟨i, hi⟩) | rfl)
      · exact Or.inl old
      · refine Or.inr ⟨i, ?_⟩
        rw [h.own_other]
        · exact hi
        · rintro rfl
          rw [none] at hi
          cases hi
      · exact Or.inr ⟨m.actor.thread, h.row?_self⟩
    · rintro (old | ⟨i, hi⟩)
      · exact Or.inl (Or.inl old)
      · by_cases same : i = m.actor.thread
        · rw [same, h.row?_self] at hi
          exact Or.inr (Option.some.inj hi).symm
        · rw [h.own_other same] at hi
          exact Or.inl (Or.inr ⟨i, hi⟩)
  · intro i r hr
    refine h.mem_own.mpr (Or.inl ?_)
    by_cases same : i = m.actor.thread
    · rw [same, h.row?_self] at hr
      rw [same, ← Option.some.inj hr]
      exact drawn
    · rw [h.own_other same] at hr
      exact ledger.named i r hr

theorem Ledger.record {id : Uuid} {o : Event.Outcome} (ledger : Ledger w ms m.before)
    (known : Known w) (h : Answered ms m ⟨.events (.recordOutcome id o), .ok ()⟩)
    (ids : Identities w (ms ++ [m]) m.after)
    (rows : m.after.events.rows = m.before.events.rows.map (recorded id o)) :
    Ledger w (ms ++ [m]) m.after := by
  obtain ⟨-, e, stored, new, rfl⟩ := h.asked
  have mine := ledger.named _ e stored
  have others : ∀ i r, i ≠ m.actor.thread → row? (own ms i) = some r → r.id ≠ e.id := by
    intro i r ne hr hid
    have theirs := ledger.named i r hr
    rw [hid] at theirs
    exact ne (ledger.apart _ _ _ theirs mine)
  have first : ∀ r ∈ w.events.rows, r.id ≠ e.id := by
    intro r hr hid
    apply (ledger.drawn _ _ mine).2
    rw [← hid]
    exact known r hr
  refine ⟨ids, ?_, ?_, ?_⟩
  · rw [rows]
    exact ledger.distinct.recorded e.id o
  · intro r
    rw [rows, List.mem_map]
    constructor
    · rintro ⟨r, hr, rfl⟩
      rcases (ledger.rows r).mp hr with old | ⟨i, hi⟩
      · rw [recorded, if_neg (first r old)]
        exact Or.inl old
      · refine Or.inr ⟨i, ?_⟩
        by_cases same : i = m.actor.thread
        · subst same
          rw [stored] at hi
          cases hi
          rw [h.row?_self, stored, recorded, if_pos rfl]
          rfl
        · rw [h.own_other same, recorded, if_neg (others i r same hi)]
          exact hi
    · rintro (old | ⟨i, hi⟩)
      · refine ⟨r, (ledger.rows r).mpr (Or.inl old), ?_⟩
        rw [recorded, if_neg (first r old)]
      · by_cases same : i = m.actor.thread
        · rw [same, h.row?_self, stored] at hi
          refine ⟨e, (ledger.rows e).mpr (Or.inr ⟨_, stored⟩), ?_⟩
          rw [recorded, if_pos rfl]
          exact Option.some.inj hi
        · rw [h.own_other same] at hi
          refine ⟨r, (ledger.rows r).mpr (Or.inr ⟨i, hi⟩), ?_⟩
          rw [recorded, if_neg (others i r same hi)]
  · intro i r hr
    refine h.mem_own.mpr (Or.inl ?_)
    by_cases same : i = m.actor.thread
    · rw [same, h.row?_self, stored] at hr
      rw [same, ← Option.some.inj hr]
      exact mine
    · rw [h.own_other same] at hr
      exact ledger.named i r hr

theorem Ledger.call {c : Store.EventCall} {a : c.Answer} (ledger : Ledger w ms m.before)
    (known : Known w) (h : Answered ms m ⟨.events c, a⟩) : Ledger w (ms ++ [m]) m.after := by
  have asked := h.asked
  have answers := h.answers
  have drawn : m.after.drawn = m.before.drawn := by
    rcases answers with ⟨-, after⟩ | ⟨-, after⟩
    · rw [after]
    · rw [after]
  have ids := ledger.toIdentities.keep h (by simp) drawn
  rcases answers with ⟨answer, after⟩ | ⟨⟨e, rfl⟩, after⟩
  · cases c with
    | insertNew e =>
      rcases Store.Events.answer_insertNew m.before.events e with ⟨refused, -⟩ | ⟨ok, rows, new⟩
      · rw [refused] at answer after
        subst answer
        refine ledger.keep h ids ?_ fun _ => rfl
        rw [after]
      · rw [ok] at answer
        subst answer
        refine ledger.store h ids ?_ new
        rw [after]
        exact rows
    | recordOutcome id o =>
      rcases Store.Events.answer_recordOutcome ledger.distinct id o with
        ⟨ok, rows, -⟩ | ⟨missing, rows, -⟩
      · rw [ok] at answer
        subst answer
        refine ledger.record known h ids ?_
        rw [after]
        exact rows
      · rw [missing] at answer
        subst answer
        refine ledger.keep h ids ?_ fun _ => rfl
        rw [after]
        exact rows
    | find id => exact asked.elim
    | findByHash hash => exact asked.elim
  · refine ledger.keep h ids ?_ fun _ => ?_
    · rw [after]
    · cases c <;> rfl

theorem Ledger.move {x : Exchange} (ledger : Ledger w ms m.before) (known : Known w)
    (h : Answered ms m x) : Ledger w (ms ++ [m]) m.after := by
  obtain ⟨q, a⟩ := x
  have asked := h.asked
  have answers := h.answers
  cases q with
  | now =>
    refine ledger.keep h (ledger.toIdentities.keep h ?_ ?_) ?_ fun _ => rfl
    · simp
    · rw [answers.2]
    · rw [answers.2]
  | count metric amount =>
    refine ledger.keep h (ledger.toIdentities.keep h ?_ ?_) ?_ fun _ => rfl
    · simp
    · rw [answers]
    · rw [answers]
  | handle id n =>
    refine ledger.keep h (ledger.toIdentities.keep h ?_ ?_) ?_ fun _ => rfl
    · simp
    · rw [answers]
    · rw [answers]
  | freshId =>
    refine ledger.keep h (ledger.toIdentities.draw h) ?_ fun _ => rfl
    rw [answers.2]
  | events c => exact ledger.call known h
  | subscriptions c => exact asked.elim
  | hub mode r => exact asked.elim
  | hubUnlessStopped r => exact asked.elim
  | stopped => exact asked.elim
  | lockSweeps => exact asked.elim
  | unlockSweeps => exact asked.elim
  | renewAll limit rows => exact asked.elim

theorem ledger (known : Known w) (distinct : Distinct w.events.rows)
    (run : Run Job.flow (.start w) ms s) : Ledger w ms s.shared := by
  induction run with
  | start => exact ledger_start w distinct
  | @quiet ms s s' run h ih =>
    obtain ⟨b, same⟩ := h.shared_of_quiet
    rw [same]
    exact ⟨⟨ih.kept, ih.drawn, ih.apart⟩, ih.distinct, ih.rows, ih.named⟩
  | @move ms m s s' run h ih =>
    obtain ⟨x, answered⟩ := answered_of_move (orderly run) h
    obtain ⟨before, after, -⟩ := h.allowed
    rw [← before] at ih
    rw [← after]
    exact ih.move known answered

/-! ## What is stored stays -/

/-- Whatever runs: no row is taken away, and none is received anew. -/
theorem appendOnly {Op α : Type} {flow : Op → Flow α} {s s' : System Op α}
    {ms : List (Move Op)} (run : Run flow s ms s') (distinct : Distinct s.shared.events.rows) :
    Distinct s'.shared.events.rows ∧
      ∀ r ∈ s.shared.events.rows, ∃ r' ∈ s'.shared.events.rows, r'.receipt = r.receipt := by
  induction run with
  | start => exact ⟨distinct, fun r hr => ⟨r, hr, rfl⟩⟩
  | quiet run h ih =>
    obtain ⟨b, same⟩ := h.shared_of_quiet
    rw [same]
    exact ih
  | @move ms m s₁ s₂ run h ih =>
    obtain ⟨here, kept⟩ := ih
    obtain ⟨before, after, allowed⟩ := h.allowed
    have next : Distinct s₂.shared.events.rows ∧
        ∀ r ∈ s₁.shared.events.rows, ∃ r' ∈ s₂.shared.events.rows, r'.receipt = r.receipt := by
      rw [← before, ← after]
      rw [← before] at here
      rcases allowed.events with same | ⟨c, answer⟩
      · rw [same]
        exact ⟨here, fun r hr => ⟨r, hr, rfl⟩⟩
      · rw [answer]
        exact Store.Events.answer_appendOnly here c
    refine ⟨next.1, ?_⟩
    intro r hr
    obtain ⟨r₁, hr₁, same₁⟩ := kept r hr
    obtain ⟨r₂, hr₂, same₂⟩ := next.2 r₁ hr₁
    exact ⟨r₂, hr₂, same₂.trans same₁⟩

/-! ## What the deliveries have gone through -/

theorem sensible (run : Run Job.flow (.start w) ms s) {i : Nat}
    {t : Thread Job (Except Error Outcome)} (at_i : s.threads[i]? = some t) :
    t.operation.Sensible (own ms i) :=
  (orderly run).own_induction at_i (sensible_nil t.operation) fun _ _ asked h => h.step asked.2

theorem thread_of_mem (run : Run Job.flow (.start w) ms s) (hm : m ∈ ms) :
    ∃ t, s.threads[m.actor.thread]? = some t ∧ t.operation = m.operation :=
  Option.map_eq_some_iff.mp ((orderly run).known m hm)

theorem thread_of_own (run : Run Job.flow (.start w) ms s) {i : Nat} {x : Exchange}
    (h : x ∈ own ms i) : ∃ t, s.threads[i]? = some t := by
  obtain ⟨m, hm, actor, -⟩ := mem_past.mp h
  obtain ⟨t, at_m, -⟩ := thread_of_mem run hm
  rw [actor] at at_m
  exact ⟨t, at_m⟩

theorem answered_of_split (run : Run Job.flow (.start w) ms s) {pre post : List (Move Job)}
    (h : ms = pre ++ m :: post) : ∃ x, Answered pre m x := by
  obtain ⟨s₁, s₂, before, step, -⟩ := run.split h
  exact answered_of_move (orderly before) step

theorem Ledger.mem_rows {now : Shared} (ledger : Ledger w ms now) {i : Nat} {r : Event}
    (h : row? (own ms i) = some r) : r ∈ now.events.rows :=
  (ledger.rows r).mpr (Or.inr ⟨i, h⟩)

theorem Ledger.eq_of_hash {now : Shared} (ledger : Ledger w ms now) {i i' : Nat} {r r' : Event}
    (h : row? (own ms i) = some r) (h' : row? (own ms i') = some r')
    (hash : r.contentHash = r'.contentHash) : i = i' := by
  have same := ledger.distinct.eq_of_hash (ledger.mem_rows h) (ledger.mem_rows h') hash
  subst same
  exact ledger.apart _ _ _ (ledger.named i r h) (ledger.named i' r h')

theorem own_split {pre : List (Move Job)} (post : List (Move Job)) {x : Exchange}
    (h : Answered pre m x) :
    own (pre ++ m :: post) m.actor.thread =
      own pre m.actor.thread ++ [x] ++ own post m.actor.thread := by
  rw [← h.own_self]
  unfold own
  rw [← List.singleton_append, ← List.append_assoc, past_append]

end WebSub.Delivery
