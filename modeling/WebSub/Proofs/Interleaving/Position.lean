import WebSub.Proofs.Interleaving.Conduct
import WebSub.Proofs.Store.SubscriptionRows

/-!
# Positions in a trace

Which move came before which, and what the subscriptions were at each point of a run.
-/

namespace WebSub.Interleaving

variable {Op α : Type} {ms : List (Move Op)} {m : Move Op} {k q : Nat}

theorem split_at (at_k : ms[k]? = some m) : ms = ms.take k ++ m :: ms.drop (k + 1) := by
  obtain ⟨inside, rfl⟩ := List.getElem?_eq_some_iff.mp at_k
  rw [← List.drop_eq_getElem_cons inside, List.take_append_drop]

theorem position_of_mem_past {a : Actor} {x : Exchange} (h : x ∈ past a (ms.take q)) :
    ∃ k m, k < q ∧ ms[k]? = some m ∧ m.actor = a ∧ m.deed = .answered x := by
  obtain ⟨m, hm, actor, deed⟩ := mem_past.mp h
  obtain ⟨k, hk⟩ := List.mem_iff_getElem?.mp hm
  rw [List.getElem?_take] at hk
  split at hk
  case isTrue before => exact ⟨k, m, before, hk, actor, deed⟩
  case isFalse => cases hk

theorem mem_past_take {x : Exchange} (at_k : ms[k]? = some m) (before : k < q)
    (deed : m.deed = .answered x) : x ∈ past m.actor (ms.take q) := by
  refine mem_past.mpr ⟨m, ?_, rfl, deed⟩
  rw [List.mem_iff_getElem?]
  exact ⟨k, by rw [List.getElem?_take_of_lt before]; exact at_k⟩

theorem path_append {a : Actor} {own after : List Exchange} (h : past a ms = own ++ after)
    (ms' : List (Move Op)) : past a (ms ++ ms') = own ++ (after ++ past a ms') := by
  rw [past_append, h, List.append_assoc]

theorem mem_past_append {a : Actor} {x : Exchange} (h : x ∈ past a ms) (ms' : List (Move Op)) :
    x ∈ past a (ms ++ ms') := by
  rw [past_append]
  exact List.mem_append_left _ h

theorem mem_past_of_take {x : Exchange} (a : Actor) (h : x ∈ past a (ms.take q)) :
    x ∈ past a ms := by
  rw [← List.take_append_drop q ms]
  exact mem_past_append h _

theorem past_take_mono {p : Nat} {x : Exchange} (a : Actor) (le : p ≤ q)
    (h : x ∈ past a (ms.take p)) :
    x ∈ past a (ms.take q) := by
  rw [← Nat.min_eq_left le, ← List.take_take] at h
  exact mem_past_of_take a h

theorem position_of_past {a : Actor} {own rest : List Exchange} {x : Exchange}
    (h : past a (ms.take q) = own ++ x :: rest) :
    ∃ n m, n < q ∧ ms[n]? = some m ∧ m.actor = a ∧ m.deed = .answered x ∧
      past a (ms.take n) = own ∧
      ∀ j m' x', n < j → j < q → ms[j]? = some m' → m'.actor = a → m'.deed = .answered x' →
        x' ∈ rest := by
  obtain ⟨pre, m, post, split, rfl, deed, before⟩ := past_split h
  have inside : pre.length < (ms.take q).length := by
    rw [split]
    simp
  have first : ms.take pre.length = pre := by
    have cut : (ms.take q).take pre.length = pre := by
      rw [split]
      simp
    rw [List.length_take] at inside
    rwa [List.take_take, Nat.min_eq_left (by omega)] at cut
  have at_q : ∀ {j : Nat}, j < q → ms[j]? = (pre ++ m :: post)[j]? := by
    intro j hj
    rw [← split, List.getElem?_take_of_lt hj]
  rw [List.length_take] at inside
  refine ⟨pre.length, m, by omega, ?_, rfl, deed, by rw [first, before], ?_⟩
  · rw [at_q (by omega)]
    simp
  · intro j m' x' low high at_j actor' deed'
    have since : rest = past m.actor post := by
      rw [split, past_append, before, ← List.singleton_append, past_append,
        past_of_answered deed] at h
      simpa using h.symm
    rw [at_q high, List.getElem?_append_right (by omega), List.getElem?_cons, if_neg (by omega)]
      at at_j
    rw [since]
    exact mem_past.mpr ⟨m', List.mem_of_getElem? at_j, actor', deed'⟩

/-! ## The subscriptions over time -/

/-- The subscriptions before the move at a position, or those at the end if there is none. -/
def storeAt (ms : List (Move Op)) (last : Shared) (k : Nat) : Store.Subscriptions :=
  ((ms[k]?).elim last (·.before)).subscriptions

theorem storeAt_before (last : Shared) (at_k : ms[k]? = some m) :
    storeAt ms last k = m.before.subscriptions := by
  unfold storeAt
  rw [at_k]
  rfl

theorem storeAt_end (last : Shared) (past_end : ms.length ≤ k) :
    storeAt ms last k = last.subscriptions := by
  unfold storeAt
  rw [List.getElem?_eq_none past_end]
  rfl

variable {flow : Op → Flow α} {s₀ s : System Op α} {w : Shared}

theorem Shared.Answers.failed {v v' : Shared} {c : Store.SubscriptionCall} {a : c.Answer}
    (h : v.Answers v' (.subscriptions c) a) (failed : ∀ b, a ≠ some (.ok b)) :
    v'.subscriptions = v.subscriptions := by
  rcases h with ⟨answer, after⟩ | ⟨-, after⟩
  · rw [after]
    refine Store.Subscriptions.answer_of_not_ok _ ?_
    rw [← show a = _ from answer]
    exact failed
  · rw [after]

theorem Shared.Answers.ne_none {v v' : Shared} {c : Store.SubscriptionCall} {a : c.Answer}
    (h : v.Answers v' (.subscriptions c) a) (plain : Store.Subscriptions.IsPlain c) :
    a ≠ none := by
  rintro rfl
  rcases h with ⟨broken, -⟩ | ⟨⟨e, fault⟩, -⟩
  · exact v.subscriptions.answer_ne_none plain broken.symm
  · cases fault

theorem Move.Allowed.failed (h : m.Allowed) {c : Store.SubscriptionCall} {a : c.Answer}
    (deed : m.deed = .answered ⟨.subscriptions c, a⟩) (failed : ∀ v, a ≠ some (.ok v)) :
    m.after.subscriptions = m.before.subscriptions :=
  Shared.Answers.failed (h.answered deed) failed

theorem Move.Allowed.settles (h : m.Allowed) {c : Store.SubscriptionCall} {a : c.Answer}
    (deed : m.deed = .answered ⟨.subscriptions c, a⟩)
    (answered : a = (m.before.subscriptions.answer c).1) :
    m.after.subscriptions = (m.before.subscriptions.answer c).2 := by
  rcases h.answered deed with ⟨-, after⟩ | ⟨⟨e, fault⟩, after⟩
  · rw [after]
  · rw [after, Store.Subscriptions.answer_of_not_ok]
    intro v ok
    rw [← answered] at ok
    exact absurd (fault.symm.trans ok) (by simp)

theorem Move.Allowed.aside (h : m.Allowed)
    (other : ∀ x, m.deed = .answered x → ∀ c, x.request ≠ .subscriptions c) :
    m.after.subscriptions = m.before.subscriptions := by
  rcases h.subscriptions with same | ⟨c, deed, -⟩
  · exact same
  · exact absurd rfl (other _ deed c)

theorem storeAt_succ (run : Run flow s₀ ms s) (at_k : ms[k]? = some m) :
    storeAt ms s.shared (k + 1) = m.after.subscriptions := by
  induction run with
  | start => cases at_k
  | @quiet ms s s' run h ih =>
    obtain ⟨b, same⟩ := h.shared_of_quiet
    rw [← ih at_k, same]
    unfold storeAt
    cases ms[k + 1]? <;> rfl
  | @move ms m' s s' run h ih =>
    obtain ⟨before, after, -⟩ := h.allowed
    obtain ⟨inside, -⟩ := List.getElem?_eq_some_iff.mp at_k
    rw [List.length_append, List.length_singleton] at inside
    by_cases last : k = ms.length
    · subst last
      rw [List.getElem?_concat_length] at at_k
      cases at_k
      rw [storeAt_end _ (by simp), after]
    · rw [List.getElem?_append_left (by omega)] at at_k
      rw [← ih at_k]
      by_cases next : k + 1 = ms.length
      · rw [next, storeAt_end _ (Nat.le_refl _)]
        rw [storeAt_before _ List.getElem?_concat_length, before]
      · unfold storeAt
        rw [List.getElem?_append_left (by omega), List.getElem?_eq_getElem (by omega)]
        rfl

theorem run_take (run : Run flow s₀ ms s) (k : Nat) :
    ∃ s', Run flow s₀ (ms.take k) s' ∧ storeAt ms s.shared k = s'.shared.subscriptions := by
  cases at_k : ms[k]? with
  | none =>
    have past_end := List.getElem?_eq_none_iff.mp at_k
    rw [List.take_of_length_le past_end, storeAt_end _ past_end]
    exact ⟨s, run, rfl⟩
  | some m =>
    obtain ⟨s₁, s₂, first, step, -⟩ := run.split (split_at at_k)
    rw [storeAt_before _ at_k, step.allowed.1]
    exact ⟨s₁, first, rfl⟩

theorem uniqueIds_of_run (ids : w.subscriptions.UniqueIds) (run : Run flow (.start w) ms s) :
    s.shared.subscriptions.UniqueIds := by
  induction run with
  | start => exact ids
  | quiet run h ih =>
    obtain ⟨b, same⟩ := h.shared_of_quiet
    rw [same]
    exact ih
  | move run h ih =>
    obtain ⟨before, after, allowed⟩ := h.allowed
    rw [← after]
    rw [← before] at ih
    rcases allowed.subscriptions with same | ⟨c, -, called⟩
    · rw [same]
      exact ih
    · rw [called]
      exact ih.answer c

theorem uniqueIds_before (ids : w.subscriptions.UniqueIds) (run : Run flow (.start w) ms s)
    (at_k : ms[k]? = some m) : m.before.subscriptions.UniqueIds := by
  obtain ⟨s', first, here⟩ := run_take run k
  rw [← storeAt_before s.shared at_k, here]
  exact uniqueIds_of_run ids first

theorem answered_of_past {a : Actor} {c : Store.SubscriptionCall} {rows : c.Value}
    (ids : w.subscriptions.UniqueIds) (run : Run flow (.start w) ms s)
    (found : ⟨.subscriptions c, some (.ok rows)⟩ ∈ past a (ms.take q)) :
    ∃ store : Store.Subscriptions, store.UniqueIds ∧ (store.answer c).1 = some (.ok rows) := by
  obtain ⟨k, m, -, at_k, -, deed⟩ := position_of_mem_past found
  obtain ⟨answer, -⟩ := (run.allowed m (List.mem_of_getElem? at_k)).answer deed (by simp)
  exact ⟨m.before.subscriptions, uniqueIds_before ids run at_k, answer.symm⟩

theorem get?_of_given {c : Store.SubscriptionCall} {v : c.Value} {r : Subscription}
    (ids : w.subscriptions.UniqueIds) (run : Run flow (.start w) ms s) (at_k : ms[k]? = some m)
    (deed : m.deed = .answered ⟨.subscriptions c, some (.ok v)⟩) (given : r ∈ c.given v) :
    (storeAt ms s.shared (k + 1)).get? r.id = some r := by
  obtain ⟨answer, after⟩ := (run.allowed m (List.mem_of_getElem? at_k)).answer deed (by simp)
  rw [storeAt_succ run at_k, after]
  apply Store.Subscriptions.UniqueIds.get?
  · exact (uniqueIds_before ids run at_k).answer c
  · exact Store.Subscriptions.mem_after_of_given _ answer.symm given

/-- What each move between two positions keeps of the subscriptions holds at the second one if it
holds at the first one. -/
theorem storeAt_onward {p : Nat} {P : Store.Subscriptions → Prop} (run : Run flow s₀ ms s)
    (le : p ≤ q)
    (step : ∀ n m, p ≤ n → n < q → ms[n]? = some m → P m.before.subscriptions →
      P m.after.subscriptions) (here : P (storeAt ms s.shared p)) : P (storeAt ms s.shared q) := by
  induction le with
  | refl => exact here
  | @step n le ih =>
    have before := ih fun k m low high => step k m low (Nat.lt_succ_of_lt high)
    cases at_n : ms[n]? with
    | none =>
      have past_end := List.getElem?_eq_none_iff.mp at_n
      rw [storeAt_end _ past_end] at before
      rw [storeAt_end _ (by omega)]
      exact before
    | some m =>
      rw [storeAt_before _ at_n] at before
      rw [storeAt_succ run at_n]
      exact step n m le (Nat.lt_succ_self n) at_n before

theorem get?_onward {p : Nat} {id : Uuid} {r : Subscription} (run : Run flow s₀ ms s) (le : p ≤ q)
    (untouched : ∀ n m c b, p ≤ n → n < q → ms[n]? = some m →
      m.deed = .answered ⟨.subscriptions c, b⟩ → ¬ Store.Subscriptions.Touches id c)
    (here : (storeAt ms s.shared p).get? id = some r) :
    (storeAt ms s.shared q).get? id = some r := by
  refine storeAt_onward (P := fun store => store.get? id = some r) run le ?_ here
  intro n m low high at_n before
  rcases (run.allowed m (List.mem_of_getElem? at_n)).subscriptions with same | ⟨c, deed, after⟩
  · rw [same]
    exact before
  · rw [after]
    exact Store.Subscriptions.get?_answer before (untouched n m c _ low high at_n deed)

theorem storeAt_zero (run : Run flow s₀ ms s) :
    storeAt ms s.shared 0 = s₀.shared.subscriptions := by
  obtain ⟨s', first, here⟩ := run_take run 0
  rw [here]
  exact first.unchanged (·.subscriptions) (fun _ _ => rfl) fun m hm => absurd hm List.not_mem_nil

/-! ## Identities -/

theorem Shared.drawn_of_answers {w w' : Shared} {q : Request} {a : q.Answer}
    (h : w.Answers w' q a) {id : Uuid} (drawn : id ∈ w.drawn) : id ∈ w'.drawn := by
  cases q with
  | freshId =>
    rw [h.2]
    exact List.mem_append_left _ drawn
  | subscriptions c | events c =>
    rcases h with ⟨-, h⟩ | ⟨-, h⟩
    · rw [h]
      exact drawn
    · rw [h]
      exact drawn
  | now | hubUnlessStopped | stopped | lockSweeps =>
    rw [h.2]
    exact drawn
  | handle | unlockSweeps | hub | renewAll | count =>
    simp only [Shared.Answers] at h
    rw [h]
    exact drawn

theorem Move.Allowed.drawn (h : m.Allowed) {id : Uuid} (drawn : id ∈ m.before.drawn) :
    id ∈ m.after.drawn := by
  unfold Move.Allowed at h
  split at h
  case h_1 q deed =>
    rw [h.2]
    exact drawn
  case h_2 x deed => exact Shared.drawn_of_answers h drawn

theorem drawn_of_run {id : Uuid} (run : Run flow s₀ ms s) (hm : m ∈ ms)
    (deed : m.deed = .answered ⟨.freshId, id⟩) : id ∈ s.shared.drawn := by
  induction run with
  | start => cases hm
  | quiet run h ih =>
    obtain ⟨b, same⟩ := h.shared_of_quiet
    rw [same]
    exact ih hm
  | move run h ih =>
    obtain ⟨before, after, allowed⟩ := h.allowed
    rw [← after]
    rcases List.mem_append.mp hm with hm | hm
    · apply allowed.drawn
      rw [before]
      exact ih hm
    · rw [List.mem_singleton] at hm
      subst hm
      unfold Move.Allowed at allowed
      rw [deed] at allowed
      rw [allowed.2]
      exact List.mem_concat_self

theorem undrawn_before {id : Uuid} {m' : Move Op} (run : Run flow s₀ ms s) (at_k : ms[k]? = some m')
    (at_q : ms[q]? = some m) (deed' : m'.deed = .answered ⟨.freshId, id⟩)
    (deed : m.deed = .answered ⟨.freshId, id⟩) : ¬ k < q := by
  intro before
  obtain ⟨s₁, s₂, first, step, -⟩ := run.split (split_at at_q)
  have taken : m' ∈ ms.take q :=
    List.mem_of_getElem? (by rw [List.getElem?_take_of_lt before]; exact at_k)
  have drawn := drawn_of_run first taken deed'
  obtain ⟨here, -, allowed⟩ := step.allowed
  unfold Move.Allowed at allowed
  rw [deed] at allowed
  rw [← here] at drawn
  exact allowed.1 drawn

theorem draws_once {id : Uuid} {m' : Move Op} (run : Run flow s₀ ms s) (at_k : ms[k]? = some m')
    (at_q : ms[q]? = some m) (deed' : m'.deed = .answered ⟨.freshId, id⟩)
    (deed : m.deed = .answered ⟨.freshId, id⟩) : k = q := by
  have first := undrawn_before run at_k at_q deed' deed
  have second := undrawn_before run at_q at_k deed deed'
  omega

/-! ## Conduct -/

variable {c : Op → Conduct α} {r : Subscription → Conduct Sweep.Renewal}

theorem Orderly.conforms_at (orderly : Orderly c r ms s) (at_k : ms[k]? = some m) :
    Conforms c r (ms.take k) m :=
  orderly.moves _ _ _ (split_at at_k)

theorem Orderly.same_operation (orderly : Orderly c r ms s) {m' : Move Op} (hm : m ∈ ms)
    (hm' : m' ∈ ms) (same : m.actor.thread = m'.actor.thread) : m.operation = m'.operation := by
  have known := orderly.known m hm
  rw [same, orderly.known m' hm'] at known
  exact (Option.some.inj known).symm

end WebSub.Interleaving
