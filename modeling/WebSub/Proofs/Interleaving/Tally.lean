import Mathlib.Data.List.ReduceOption
import WebSub.Proofs.Interleaving.Conduct

/-!
# What renewals come to

The books of a batch: what came out of each renewal that was begun, and what was sent to the hub on
its behalf. When the renewals are joined, each row has one outcome, and the outcomes are those that
are handed on, in the order in which they came.
-/

namespace WebSub.Interleaving

open Sweep (Renewal)

variable {Op α : Type}

/-! ## Calls to the hub -/

/-- The request that was sent to the hub, if it is the hub that answered. -/
def Exchange.sent? : Exchange → Option Request
  | ⟨.hub mode q, _⟩ => some (.hub mode q)
  | ⟨.hubUnlessStopped q, some _⟩ => some (.hubUnlessStopped q)
  | _ => none

/-- No call was given up for a shutdown. -/
def Patient (own : List Exchange) : Prop :=
  ∀ q, (⟨.hubUnlessStopped q, none⟩ : Exchange) ∉ own

/-- The request that a deed sends to the hub. -/
def Deed.call? : Deed → Option Request
  | .called q => some q
  | .answered _ => none

/-- What an actor has sent to the hub. -/
def calls (a : Actor) (ms : List (Move Op)) : List Request :=
  ms.filterMap fun m => if m.actor = a then m.deed.call? else none

theorem calls_append (a : Actor) (ms ms' : List (Move Op)) :
    calls a (ms ++ ms') = calls a ms ++ calls a ms' :=
  List.filterMap_append

theorem calls_append_other (ms : List (Move Op)) {a b : Actor} (ne : a ≠ b) (o : Op)
    (w w' : Shared) (d : Deed) : calls b (ms ++ [⟨a, o, w, d, w'⟩]) = calls b ms := by
  rw [calls_append]
  simp [calls, ne]

theorem calls_append_own (ms : List (Move Op)) (a : Actor) (o : Op) (w w' : Shared) (d : Deed) :
    calls a (ms ++ [⟨a, o, w, d, w'⟩]) = calls a ms ++ d.call?.toList := by
  rw [calls_append]
  cases d <;> simp [calls, Deed.call?]

theorem calls_eq_nil {a : Actor} {ms : List (Move Op)} (h : ∀ m ∈ ms, m.actor ≠ a) :
    calls a ms = [] := by
  simp only [calls, List.filterMap_eq_nil_iff]
  intro m hm
  rw [if_neg (h m hm)]

/-- The call that a line waits for. -/
def Line.waiting : Line α → List Request
  | ⟨.ask q _, true⟩ => [q]
  | _ => []

/-- A line that has gone through a past has sent what was answered and what it waits for, unless it
gave up a call. -/
structure Line.Sends (l : Line α) (own : List Exchange) (sent : List Request) : Prop where
  waits : l.calling = true → ∃ q next, l.rest = .ask q next ∧ ∃ w, Leaves w q
  sent : Patient own → sent = own.filterMap Exchange.sent? ++ l.waiting

theorem Line.sends_begin (f : Flow α) : (Line.begin f).Sends [] [] := by
  refine ⟨nofun, fun _ => ?_⟩
  cases f <;> rfl

theorem waiting_of_idle (f : Flow α) : Line.waiting ⟨f, false⟩ = [] := by
  cases f <;> rfl

theorem Line.Sends.of_done {a : α} {calling : Bool} {own : List Exchange} {sent : List Request}
    (h : Line.Sends ⟨.done a, calling⟩ own sent) :
    Patient own → sent = own.filterMap Exchange.sent? := by
  intro patient
  rw [h.sent patient]
  exact List.append_nil _

theorem sent?_of_leaves {w : Shared} {q : Request} (a : q.Answer) (leaves : Leaves w q) :
    (⟨q, a⟩ : Exchange).sent? = some q ∨
      ∃ r, (⟨q, a⟩ : Exchange) = ⟨.hubUnlessStopped r, none⟩ := by
  cases q with
  | hub mode r => exact Or.inl rfl
  | hubUnlessStopped r =>
    cases a with
    | none => exact Or.inr ⟨r, rfl⟩
    | some result => exact Or.inl rfl
  | _ => exact leaves.elim

theorem sent?_of_unawaited {q : Request} {a : q.Answer} (h : ¬ FromHub q a) :
    (⟨q, a⟩ : Exchange).sent? = none := by
  cases q with
  | hub mode r => exact absurd trivial h
  | hubUnlessStopped r =>
    cases a with
    | none => rfl
    | some result => exact absurd (Option.some_ne_none _) h
  | _ => rfl

theorem Line.Sends.step {w w' : Shared} {l l' : Line α} {d : Deed} {own : List Exchange}
    {sent : List Request} (h : l.Sends own sent) (step : l.Step w d w' l') :
    l'.Sends (own ++ d.exchange?.toList) (sent ++ d.call?.toList) := by
  cases step with
  | @call q next leaves =>
    refine ⟨fun _ => ⟨q, next, rfl, w, leaves⟩, ?_⟩
    intro patient
    simp only [Deed.exchange?, Option.toList_none, List.append_nil] at patient ⊢
    rw [h.sent patient]
    simp only [Deed.call?, Option.toList_some, Line.waiting, List.append_nil]
  | @answer q next calling a w' answers single awaited =>
    refine ⟨fun calls => absurd calls Bool.false_ne_true, ?_⟩
    intro patient
    simp only [Deed.exchange?, Deed.call?, Option.toList_some, Option.toList_none,
      List.append_nil] at patient ⊢
    have before : Patient own := fun r given => patient r (List.mem_append_left _ given)
    rw [h.sent before, List.filterMap_append, waiting_of_idle, List.append_nil]
    congr 1
    cases calling with
    | true =>
      obtain ⟨q', next', same, w₀, leaves⟩ := h.waits rfl
      cases same
      rcases sent?_of_leaves a leaves with sent | ⟨r, given⟩
      · simp [Line.waiting, sent]
      · exact absurd List.mem_concat_self (given ▸ patient r)
    | false =>
      have unsent := sent?_of_unawaited (fun from_hub => Bool.false_ne_true (awaited from_hub))
      simp [Line.waiting, unsent]

/-! ## The books of a batch -/

/-- `out` holds the outcome of each renewal that was begun and has ended, in the order of the rows;
the renewal of a place went through `own` and has sent `sent`. -/
structure Batch.Books (r : Subscription → Conduct Renewal) (b : Batch) (own : Nat → List Exchange)
    (sent : Nat → List Request) (out : List (Option Renewal)) : Prop where
  length : out.length = b.begun.length
  ended : b.ended.Perm out.reduceOption
  fresh : ∀ k, b.begun.length ≤ k → sent k = []
  under : ∀ (k : Nat) l, b.begun[k]? = some (some l) →
    out[k]? = some none ∧ l.Sends (own k) (sent k)
  finished : ∀ (k : Nat), b.begun[k]? = some none → ∃ o s, out[k]? = some (some o) ∧
    b.rows[k]? = some s ∧ (r s).ends (own k) o ∧
      (Patient (own k) → sent k = (own k).filterMap Exchange.sent?)

theorem reduceOption_set {out : List (Option Renewal)} {k : Nat} (at_k : out[k]? = some none)
    (o : Renewal) : (out.set k (some o)).reduceOption.Perm (out.reduceOption ++ [o]) := by
  induction out generalizing k with
  | nil => cases at_k
  | cons x out ih =>
    cases k with
    | zero =>
      cases at_k
      simp only [List.set_cons_zero, List.reduceOption_cons_of_some,
        List.reduceOption_cons_of_none]
      exact (List.perm_append_singleton o _).symm
    | succ k =>
      have rest := ih (by simpa using at_k)
      cases x with
      | none => simpa only [List.set_cons_succ, List.reduceOption_cons_of_none] using rest
      | some y =>
        simp only [List.set_cons_succ, List.reduceOption_cons_of_some, List.cons_append]
        exact rest.cons y

namespace Batch.Books

variable {r : Subscription → Conduct Renewal} {b : Batch} {own own' : Nat → List Exchange}
  {sent sent' : Nat → List Request} {out : List (Option Renewal)}

theorem start (limit : Nat) (rows : List Subscription) (fresh : ∀ k, sent k = []) :
    (Batch.start limit rows).Books r own sent [] :=
  ⟨rfl, .nil, fun k _ => fresh k, nofun, nofun⟩

theorem begin (h : b.Books r own sent out) (idle : own b.begun.length = []) (s : Subscription) :
    Books r { b with begun := b.begun ++ [some (.begin (Sweep.renewOne s))] } own sent
      (out ++ [none]) := by
  have split : ∀ (k : Nat) x,
      (b.begun ++ [some (Line.begin (Sweep.renewOne s))])[k]? = some x →
        (k < b.begun.length ∧ b.begun[k]? = some x) ∨
          (k = b.begun.length ∧ x = some (.begin (Sweep.renewOne s))) := by
    intro k x under
    by_cases hk : k < b.begun.length
    · rw [List.getElem?_append_left hk] at under
      exact Or.inl ⟨hk, under⟩
    · rw [List.getElem?_append_right (by omega), List.getElem?_singleton] at under
      split at under
      case isTrue hz => exact Or.inr ⟨by omega, (Option.some.inj under).symm⟩
      case isFalse => cases under
  refine ⟨by simp [h.length], ?_, ?_, ?_, ?_⟩
  · rw [List.reduceOption_append]
    simpa using h.ended
  · intro k hk
    simp only [List.length_append, List.length_singleton] at hk
    exact h.fresh k (by omega)
  · intro k l under
    rcases split k (some l) under with ⟨hk, under⟩ | ⟨rfl, new⟩
    · rw [List.getElem?_append_left (by rw [h.length]; exact hk)]
      exact h.under k l under
    · cases new
      rw [← h.length, List.getElem?_concat_length, h.length, idle, h.fresh _ (Nat.le_refl _)]
      exact ⟨rfl, Line.sends_begin _⟩
  · intro k finished
    rcases split k none finished with ⟨hk, finished⟩ | ⟨-, new⟩
    · rw [List.getElem?_append_left (by rw [h.length]; exact hk)]
      exact h.finished k finished
    · cases new

theorem step {k : Nat} {l l' : Line Renewal} (h : b.Books r own sent out)
    (under : b.begun[k]? = some (some l)) (sends : l'.Sends (own' k) (sent' k))
    (same : ∀ j, j ≠ k → own' j = own j ∧ sent' j = sent j) :
    (b.set k (some l')).Books r own' sent' out := by
  obtain ⟨inside, -⟩ := List.getElem?_eq_some_iff.mp under
  refine ⟨by simp [Batch.set, h.length], h.ended, ?_, ?_, ?_⟩
  · intro j hj
    simp only [Batch.set, List.length_set] at hj
    rw [(same j (by omega)).2]
    exact h.fresh j hj
  · intro j l₁ under'
    by_cases hj : j = k
    · subst hj
      simp only [Batch.set, List.getElem?_set_self inside, Option.some.injEq] at under'
      rw [← under']
      exact ⟨(h.under j l under).1, sends⟩
    · simp only [Batch.set, List.getElem?_set_ne (Ne.symm hj)] at under'
      rw [(same j hj).1, (same j hj).2]
      exact h.under j l₁ under'
  · intro j finished
    by_cases hj : j = k
    · subst hj
      simp [Batch.set, List.getElem?_set_self inside] at finished
    · simp only [Batch.set, List.getElem?_set_ne (Ne.symm hj)] at finished
      rw [(same j hj).1, (same j hj).2]
      exact h.finished j finished

theorem finish {k : Nat} {o : Renewal} {calling : Bool} {s : Subscription}
    (h : b.Books r own sent out) (under : b.begun[k]? = some (some ⟨.done o, calling⟩))
    (row : b.rows[k]? = some s) (ends : (r s).ends (own k) o) :
    Books r { b.set k none with ended := b.ended ++ [o] } own sent (out.set k (some o)) := by
  obtain ⟨inside, -⟩ := List.getElem?_eq_some_iff.mp under
  obtain ⟨open_k, sends⟩ := h.under k _ under
  have inside' : k < out.length := by
    rw [h.length]
    exact inside
  refine ⟨by simp [Batch.set, h.length], ?_, ?_, ?_, ?_⟩
  · exact (h.ended.append_right [o]).trans (reduceOption_set open_k o).symm
  · intro j hj
    simp only [Batch.set, List.length_set] at hj
    exact h.fresh j hj
  · intro j l under'
    by_cases hj : j = k
    · subst hj
      simp [Batch.set, List.getElem?_set_self inside] at under'
    · simp only [Batch.set, List.getElem?_set_ne (Ne.symm hj)] at under'
      rw [List.getElem?_set_ne (Ne.symm hj)]
      exact h.under j l under'
  · intro j finished
    by_cases hj : j = k
    · subst hj
      rw [List.getElem?_set_self inside']
      exact ⟨o, s, rfl, row, ends, sends.of_done⟩
    · simp only [Batch.set, List.getElem?_set_ne (Ne.symm hj)] at finished
      rw [List.getElem?_set_ne (Ne.symm hj)]
      exact h.finished j finished

end Batch.Books

/-! ## Renewals that were joined -/

/-- Each row has its outcome, and those that were handed on are the outcomes of the rows. -/
structure Closed (r : Subscription → Conduct Renewal) (rows : List Subscription)
    (own : Nat → List Exchange) (sent : Nat → List Request) (ended out : List Renewal) : Prop where
  ended : ended.Perm out
  length : out.length = rows.length
  each : ∀ (k : Nat) s, rows[k]? = some s → ∃ o, out[k]? = some o ∧ (r s).ends (own k) o ∧
    (Patient (own k) → sent k = (own k).filterMap Exchange.sent?)

theorem exists_map_some {out : List (Option Renewal)} (all : ∀ x ∈ out, x ≠ none) :
    ∃ out' : List Renewal, out = out'.map some := by
  induction out with
  | nil => exact ⟨[], rfl⟩
  | cons x out ih =>
    obtain ⟨out', rest⟩ := ih fun x hx => all x (List.mem_cons_of_mem _ hx)
    obtain ⟨o, rfl⟩ := Option.ne_none_iff_exists'.mp (all x List.mem_cons_self)
    exact ⟨o :: out', by rw [rest, List.map_cons]⟩

theorem Batch.Books.close {r : Subscription → Conduct Renewal} {b : Batch}
    {own : Nat → List Exchange} {sent : Nat → List Request} {out : List (Option Renewal)}
    (h : b.Books r own sent out) (finished : b.IsOver) :
    ∃ out', Closed r b.rows own sent b.ended out' := by
  have none_under : ∀ k, k < b.begun.length → b.begun[k]? = some none := by
    intro k hk
    have idle := List.countP_eq_zero.mp finished.2 _ (List.getElem_mem hk)
    rw [List.getElem?_eq_getElem hk]
    cases same : b.begun[k] with
    | none => rfl
    | some l => simp [same] at idle
  obtain ⟨out', rfl⟩ : ∃ out' : List Renewal, out = out'.map some := by
    refine exists_map_some ?_
    intro x hx
    obtain ⟨k, hk, rfl⟩ := List.mem_iff_getElem.mp hx
    obtain ⟨o, -, at_k, -⟩ := h.finished k (none_under k (by rw [← h.length]; exact hk))
    rw [List.getElem?_eq_getElem hk] at at_k
    rw [Option.some.inj at_k]
    exact Option.some_ne_none o
  have size : out'.length = b.rows.length := by
    rw [← finished.1, ← h.length, List.length_map]
  refine ⟨out', ?_, size, ?_⟩
  · have ended := h.ended
    rwa [List.reduceOption, List.filterMap_map, show id ∘ some = (some : Renewal → _) from rfl,
      List.filterMap_some] at ended
  · intro k s row
    obtain ⟨inside, -⟩ := List.getElem?_eq_some_iff.mp row
    obtain ⟨o, s', at_k, row', rest⟩ :=
      h.finished k (none_under k (by rw [finished.1]; exact inside))
    rw [row] at row'
    cases row'
    rw [List.getElem?_map, Option.map_eq_some_iff] at at_k
    obtain ⟨o', at_k, same⟩ := at_k
    rw [Option.some.inj same] at at_k
    exact ⟨o, at_k, rest⟩

/-! ## From batches to runs -/

section

variable (r : Subscription → Conduct Renewal)

/-- The first batch of an operation has its books; before it there is nothing to be booked. -/
def Task.Booked (i : Nat) (ms : List (Move Op)) : Task α → Prop
  | line _ => Unjoined (past ⟨i, none⟩ ms) → ∀ k, calls ⟨i, some k⟩ ms = []
  | renewing b _ => Unjoined (past ⟨i, none⟩ ms) →
    ∃ out, b.Books r (fun k => past ⟨i, some k⟩ ms) (fun k => calls ⟨i, some k⟩ ms) out

/-- By a move that joins the first batch of an operation, its books are closed. -/
def Joins (pre : List (Move Op)) (m : Move Op) : Prop :=
  ∀ limit rows ended, m.deed = .answered ⟨.renewAll limit rows, some ended⟩ →
    Unjoined (past ⟨m.actor.thread, none⟩ pre) →
      ∃ out, Closed r rows (fun k => past ⟨m.actor.thread, some k⟩ pre)
        (fun k => calls ⟨m.actor.thread, some k⟩ pre) ended out

structure Booked (ms : List (Move Op)) (s : System Op α) : Prop where
  tasks : ∀ (i : Nat) (t : Thread Op α), s.threads[i]? = some t → t.task.Booked r i ms
  joins : ∀ pre m post, ms = pre ++ m :: post → Joins r pre m

end

variable {c : Op → Conduct α} {r : Subscription → Conduct Renewal}

theorem Task.booked_append_of_ne {i : Nat} {ms : List (Move Op)} {m : Move Op} {t : Task α}
    (h : t.Booked r i ms) (ne : m.actor.thread ≠ i) : t.Booked r i (ms ++ [m]) := by
  have other : ∀ k, m.actor ≠ ⟨i, k⟩ := fun k same => ne (by rw [same])
  have same : ∀ k, past ⟨i, k⟩ (ms ++ [m]) = past ⟨i, k⟩ ms :=
    fun k => past_append_other ms (other k) _ _ _ _
  have same' : ∀ k, calls ⟨i, k⟩ (ms ++ [m]) = calls ⟨i, k⟩ ms :=
    fun k => calls_append_other ms (other k) _ _ _ _
  cases t with
  | line l => simpa only [Task.Booked, same, same'] using h
  | renewing b next => simpa only [Task.Booked, same, same'] using h

theorem Task.booked_quiet {o : Op} {i : Nat} {ms : List (Move Op)} {t t' : Task α}
    (h : t.Quiet t') (keeps : t.Keeps c r o i ms) (booked : t.Booked r i ms) :
    t'.Booked r i ms := by
  cases h with
  | fork => exact fun unjoined => ⟨[], .start _ _ (booked unjoined)⟩
  | @begin b next s room row =>
    intro unjoined
    obtain ⟨out, books⟩ := booked unjoined
    exact ⟨_, books.begin (keeps.2.1 unjoined _ (Nat.le_refl _)) s⟩
  | @finish b next k o calling under =>
    intro unjoined
    obtain ⟨out, books⟩ := booked unjoined
    obtain ⟨s, own, row, -, whole, ends⟩ := keeps.2.2 k _ under
    rw [whole unjoined] at ends
    exact ⟨_, books.finish under row ends⟩

theorem Task.booked_renewal {o : Op} {i k : Nat} {ms : List (Move Op)} {b : Batch}
    {next : Option (List Renewal) → Flow α} {l l' : Line Renewal} {w w' : Shared} {d : Deed}
    (under : b.begun[k]? = some (some l)) (h : l.Step w d w' l')
    (booked : (renewing b next).Booked r i ms) :
    (renewing (b.set k (some l')) next).Booked r i (ms ++ [⟨⟨i, some k⟩, o, w, d, w'⟩]) := by
  intro unjoined
  rw [past_append_other _ (by simp)] at unjoined
  obtain ⟨out, books⟩ := booked unjoined
  have sends := (books.under k l under).2.step h
  refine ⟨out, books.step under ?_ ?_⟩
  · rw [past_append_own, calls_append_own]
    exact sends
  · intro j hj
    have other : (⟨i, some k⟩ : Actor) ≠ ⟨i, some j⟩ := by
      simp only [ne_eq, Actor.mk.injEq, Option.some.injEq, true_and]
      exact Ne.symm hj
    exact ⟨past_append_other ms other _ _ _ _, calls_append_other ms other _ _ _ _⟩

theorem Task.booked_step {o : Op} {i : Nat} {ms : List (Move Op)} {k : Option Nat} {t t' : Task α}
    {w w' : Shared} {d : Deed} (h : t.Step w k d w' t') (booked : t.Booked r i ms) :
    Joins r ms ⟨⟨i, k⟩, o, w, d, w'⟩ ∧ t'.Booked r i (ms ++ [⟨⟨i, k⟩, o, w, d, w'⟩]) := by
  have apart : ∀ j, (⟨i, none⟩ : Actor) ≠ ⟨i, some j⟩ := by simp
  cases h with
  | line h =>
    refine ⟨?_, ?_⟩
    · rintro limit rows ended rfl
      cases h with
      | answer answers single awaited => exact absurd trivial single
    · intro unjoined j
      rw [past_append_own] at unjoined
      rw [calls_append_other ms (apart j)]
      exact booked unjoined.of_append j
  | renewal under h =>
    refine ⟨?_, Task.booked_renewal under h booked⟩
    rintro limit rows ended rfl
    cases h with
    | answer answers single awaited => exact absurd trivial single
  | @joined b next complete =>
    refine ⟨?_, ?_⟩
    · intro limit rows ended deed unjoined
      cases deed
      obtain ⟨out, books⟩ := booked unjoined
      exact books.close complete
    · intro unjoined
      rw [past_append_own] at unjoined
      exact absurd trivial (unjoined _ List.mem_concat_self)
  | broken under =>
    refine ⟨?_, ?_⟩
    · intro limit rows ended deed
      cases deed
    · intro unjoined
      rw [past_append_own] at unjoined
      exact absurd trivial (unjoined _ List.mem_concat_self)

section

variable {flow : Op → Flow α} {ms : List (Move Op)} {s s' : System Op α}

theorem Booked.quiet (booked : Booked r ms s) (orderly : Orderly c r ms s)
    (h : Step flow s none s') : Booked r ms s' := by
  cases h with
  | begin o =>
    refine ⟨?_, booked.joins⟩
    intro i t at_i
    simp only at at_i
    by_cases hlt : i < s.threads.length
    · rw [List.getElem?_append_left hlt] at at_i
      exact booked.tasks i t at_i
    · rw [List.getElem?_append_right (by omega), List.getElem?_singleton] at at_i
      split at at_i
      case isFalse => cases at_i
      case isTrue =>
        cases at_i
        -- Nothing was sent in the name of a thread that did not exist.
        intro _ k
        refine calls_eq_nil fun m hm actor => ?_
        have known := orderly.known m hm
        rw [actor, List.getElem?_eq_none (by simp only; omega)] at known
        simp at known
  | shutDown => exact ⟨booked.tasks, booked.joins⟩
  | @quiet i o t t' at_i h =>
    refine ⟨?_, booked.joins⟩
    intro j u at_j
    rcases getElem?_set_cases at_i at_j with ⟨rfl, rfl⟩ | ⟨-, at_j⟩
    · exact Task.booked_quiet h (orderly.tasks j _ at_i) (booked.tasks j _ at_i)
    · exact booked.tasks j u at_j

theorem Booked.move {m : Move Op} (booked : Booked r ms s) (h : Step flow s (some m) s') :
    Booked r (ms ++ [m]) s' := by
  cases h with
  | @move i o t t' k d w at_i h =>
    obtain ⟨joins, next⟩ := Task.booked_step (o := o) h (booked.tasks i _ at_i)
    refine ⟨?_, ?_⟩
    · intro j u at_j
      rcases getElem?_set_cases at_i at_j with ⟨rfl, rfl⟩ | ⟨ne, at_j⟩
      · exact next
      · exact Task.booked_append_of_ne (booked.tasks j u at_j) (Ne.symm ne)
    · intro pre x post split
      rcases append_singleton_split split with ⟨post', -, split⟩ | ⟨rfl, rfl, -⟩
      · exact booked.joins pre x post' split
      · exact joins

/-- In every run from the start, what is joined are the outcomes of the rows. -/
theorem Run.booked (operations : ∀ o, (flow o).Keeps (c o) [])
    (renewals : ∀ s, (Sweep.renewOne s).Keeps (r s) []) {w : Shared}
    (run : Run flow (.start w) ms s) : Booked r ms s := by
  induction run with
  | start => exact ⟨nofun, fun pre m post split => by simp at split⟩
  | quiet run h ih => exact ih.quiet (run.orderly operations renewals) h
  | move run h ih => exact ih.move h

end

end WebSub.Interleaving
