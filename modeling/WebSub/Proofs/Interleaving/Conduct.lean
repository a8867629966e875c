import WebSub.Proofs.Interleaving.Run

/-!
# The conduct of operations

What an operation may do is told by what it has gone through, whatever happens around it. This is
shown of its flow alone, and then holds of each of its moves in every interleaving.
-/

namespace WebSub

namespace Interleaving

def Possible (q : Request) (a : q.Answer) : Prop := ∃ w w' : Shared, w.Answers w' q a

/-- What a flow may ask for, what it may end with and when it may break down. -/
structure Conduct (α : Type) where
  asks : List Exchange → Request → Prop
  ends : List Exchange → α → Prop
  breaks : List Exchange → Prop

def Conduct.free {α : Type} : Conduct α := ⟨fun _ _ => True, fun _ _ => True, fun _ => True⟩

end Interleaving

open Interleaving

/-- A flow that has gone through a past keeps to its conduct whatever it is answered. -/
def Flow.Keeps {α : Type} (c : Conduct α) : Flow α → List Exchange → Prop
  | .done a, past => c.ends past a
  | .crash, past => c.breaks past
  | .ask q next, past =>
    c.asks past q ∧ ∀ a, Possible q a → (next a).Keeps c (past ++ [⟨q, a⟩])

/-- What is left of a flow after some exchanges. -/
inductive Flow.Follows {α : Type} : Flow α → List Exchange → Flow α → Prop
  | here (f : Flow α) : Follows f [] f
  | ask {q : Request} {next : q.Answer → Flow α} {a : q.Answer} {rest : List Exchange} {f : Flow α}
      (h : (next a).Follows rest f) : Follows (.ask q next) (⟨q, a⟩ :: rest) f

namespace Interleaving

open Sweep (Renewal)

variable {Op α β : Type}

/-- No renewals were joined. -/
def Unjoined (own : List Exchange) : Prop := ∀ x ∈ own, ¬ IsRenewal x.request

/-! ## Composition -/

theorem bind_assoc {γ : Type} (f : Flow α) (g : α → Flow β) (h : β → Flow γ) :
    (f.bind g).bind h = f.bind fun a => (g a).bind h := by
  induction f with
  | done a => rfl
  | crash => rfl
  | ask q next ih =>
    simp only [Flow.bind]
    congr 1
    funext a
    exact ih a

theorem keeps_ask {c : Conduct α} {q : Request} {next : q.Answer → Flow α} {past : List Exchange}
    (asked : c.asks past q) (rest : ∀ a, (next a).Keeps c (past ++ [⟨q, a⟩])) :
    (Flow.ask q next).Keeps c past :=
  ⟨asked, fun a _ => rest a⟩

theorem keeps_bind {c : Conduct α} {c' : Conduct β} {f : Flow α} {g : α → Flow β}
    {past : List Exchange} (asks : ∀ p q, c.asks p q → c'.asks p q)
    (breaks : ∀ p, c.breaks p → c'.breaks p) (ends : ∀ p a, c.ends p a → (g a).Keeps c' p)
    (h : f.Keeps c past) : (f.bind g).Keeps c' past := by
  induction f generalizing past with
  | done a => exact ends past a h
  | crash => exact breaks past h
  | ask q next ih => exact ⟨asks past q h.1, fun a possible => ih a (h.2 a possible)⟩

theorem keeps_ensuring {c c' : Conduct α} {f : Flow α} {last : Flow Unit} {past : List Exchange}
    (asks : ∀ p q, c.asks p q → c'.asks p q)
    (breaks : ∀ p, c.breaks p → (last.bind fun _ => (.crash : Flow α)).Keeps c' p)
    (ends : ∀ p a, c.ends p a → (last.bind fun _ => .done a).Keeps c' p) (h : f.Keeps c past) :
    (f.ensuring last).Keeps c' past := by
  induction f generalizing past with
  | done a => exact ends past a h
  | crash => exact breaks past h
  | ask q next ih => exact ⟨asks past q h.1, fun a possible => ih a (h.2 a possible)⟩

theorem keeps_free (f : Flow α) (past : List Exchange) : f.Keeps .free past := by
  induction f generalizing past with
  | done a => trivial
  | crash => trivial
  | ask q next ih => exact ⟨trivial, fun a _ => ih a _⟩

theorem keeps_of_follows {c : Conduct α} {f g : Flow α} {past own : List Exchange}
    (h : f.Follows own g) (possible : ∀ x ∈ own, Possible x.request x.answer)
    (keeps : f.Keeps c past) : g.Keeps c (past ++ own) := by
  induction h generalizing past with
  | here f =>
    rw [List.append_nil]
    exact keeps
  | @ask q next a rest f h ih =>
    have first := keeps.2 a (possible ⟨q, a⟩ List.mem_cons_self)
    rw [← List.singleton_append, ← List.append_assoc]
    exact ih (fun x hx => possible x (List.mem_cons_of_mem _ hx)) first

/-! ## From flows to runs -/

variable (c : Op → Conduct α) (r : Subscription → Conduct Renewal)

/-- What is left of an operation keeps to its conduct, and so does what is left of its renewals.
Those of its first batch have no other past than their own. -/
def Task.Keeps (o : Op) (i : Nat) (ms : List (Move Op)) : Task α → Prop
  | line l =>
    l.rest.Keeps (c o) (past ⟨i, none⟩ ms) ∧
    (Unjoined (past ⟨i, none⟩ ms) → ∀ k, past ⟨i, some k⟩ ms = [])
  | renewing b next =>
    (Flow.ask (.renewAll b.limit b.rows) next).Keeps (c o) (past ⟨i, none⟩ ms) ∧
    (Unjoined (past ⟨i, none⟩ ms) → ∀ k, b.begun.length ≤ k → past ⟨i, some k⟩ ms = []) ∧
    ∀ k l, b.begun[k]? = some (some l) → ∃ s own, b.rows[k]? = some s ∧
      own <:+ past ⟨i, some k⟩ ms ∧ (Unjoined (past ⟨i, none⟩ ms) → own = past ⟨i, some k⟩ ms) ∧
      l.rest.Keeps (r s) own

/-- A move keeps to the conduct of its operation, or of the renewal of a row that the operation
had asked to renew. -/
def Conforms (pre : List (Move Op)) (m : Move Op) : Prop :=
  match m.actor.renewal with
  | none => (c m.operation).asks (past m.actor pre) m.deed.request
  | some k => ∃ limit rows s own,
      (c m.operation).asks (past ⟨m.actor.thread, none⟩ pre) (.renewAll limit rows) ∧
      rows[k]? = some s ∧ own <:+ past m.actor pre ∧
      (Unjoined (past ⟨m.actor.thread, none⟩ pre) → own = past m.actor pre) ∧
      (r s).asks own m.deed.request

/-- What holds of a trace and the system that it leads to. -/
structure Orderly (ms : List (Move Op)) (s : System Op α) : Prop where
  tasks : ∀ (i : Nat) (t : Thread Op α), s.threads[i]? = some t →
    t.task.Keeps c r t.operation i ms
  moves : ∀ pre m post, ms = pre ++ m :: post → Conforms c r pre m
  known : ∀ m ∈ ms, (s.threads[m.actor.thread]?).map (·.operation) = some m.operation

variable {c r}

theorem orderly_start (w : Shared) : Orderly c r [] (System.start w : System Op α) := by
  refine ⟨?_, ?_, ?_⟩
  · intro i t h
    simp [System.start] at h
  · intro pre m post h
    simp at h
  · simp

theorem Task.keeps_append_of_ne {o : Op} {i : Nat} {ms : List (Move Op)} {m : Move Op}
    {t : Task α} (h : t.Keeps c r o i ms) (ne : m.actor.thread ≠ i) :
    t.Keeps c r o i (ms ++ [m]) := by
  have same : ∀ k, past ⟨i, k⟩ (ms ++ [m]) = past ⟨i, k⟩ ms := by
    intro k
    rw [past_append, past_of_ne, List.append_nil]
    intro ha
    exact ne (by rw [ha])
  cases t with
  | line l => simpa only [Task.Keeps, same] using h
  | renewing b next => simpa only [Task.Keeps, same] using h

theorem Line.keeps_step {c : Conduct α} {w w' : Shared} {l l' : Line α} {d : Deed}
    {own : List Exchange} (h : l.Step w d w' l') (keeps : l.rest.Keeps c own) :
    c.asks own d.request ∧ l'.rest.Keeps c (own ++ d.exchange?.toList) := by
  cases h with
  | call h =>
    refine ⟨keeps.1, ?_⟩
    simpa only [Deed.exchange?, Option.toList_none, List.append_nil] using keeps
  | answer h single awaited =>
    obtain ⟨asked, rest⟩ := keeps
    exact ⟨asked, rest _ ⟨w, w', h⟩⟩

theorem past_append_own (ms : List (Move Op)) (a : Actor) (o : Op) (w w' : Shared) (d : Deed) :
    past a (ms ++ [⟨a, o, w, d, w'⟩]) = past a ms ++ d.exchange?.toList := by
  rw [past_append]
  congr 1
  cases d with
  | called q => exact past_of_called rfl
  | answered x => exact past_of_answered rfl

theorem past_append_other (ms : List (Move Op)) {a b : Actor} (ne : a ≠ b) (o : Op)
    (w w' : Shared) (d : Deed) : past b (ms ++ [⟨a, o, w, d, w'⟩]) = past b ms := by
  rw [past_append, past_of_ne ne, List.append_nil]

theorem possible_renewAll (limit : Nat) (rows : List Subscription)
    (a : Option (List Renewal)) (w : Shared) : Possible (.renewAll limit rows) a :=
  ⟨w, w, rfl⟩

theorem Unjoined.of_append {own own' : List Exchange} (h : Unjoined (own ++ own')) :
    Unjoined own :=
  fun x hx => h x (List.mem_append_left _ hx)

section

variable {o : Op} {i : Nat} {w w' : Shared} {d : Deed} {ms : List (Move Op)}

theorem Task.keeps_line {l : Line α}
    (rest : l.rest.Keeps (c o) (past ⟨i, none⟩ ms ++ d.exchange?.toList))
    (bare : Unjoined (past ⟨i, none⟩ ms ++ d.exchange?.toList) → ∀ k, past ⟨i, some k⟩ ms = []) :
    (line l).Keeps c r o i (ms ++ [⟨⟨i, none⟩, o, w, d, w'⟩]) := by
  refine ⟨?_, ?_⟩
  · rw [past_append_own]
    exact rest
  · intro unjoined k
    rw [past_append_other _ (by simp)]
    rw [past_append_own] at unjoined
    exact bare unjoined k

theorem Task.keeps_renewal {b : Batch} {next : Option (List Renewal) → Flow α} {k : Nat}
    {l l' : Line Renewal} (under : b.begun[k]? = some (some l)) (h : l.Step w d w' l')
    (keeps : (renewing b next).Keeps c r o i ms) :
    Conforms c r ms ⟨⟨i, some k⟩, o, w, d, w'⟩ ∧
      (renewing (b.set k (some l')) next).Keeps c r o i
        (ms ++ [⟨⟨i, some k⟩, o, w, d, w'⟩]) := by
  obtain ⟨parent, ahead, children⟩ := keeps
  obtain ⟨s, own, row, suffix, whole, kept⟩ := children k l under
  obtain ⟨asked, rest⟩ := Line.keeps_step h kept
  obtain ⟨inside, -⟩ := List.getElem?_eq_some_iff.mp under
  refine ⟨⟨b.limit, b.rows, s, own, parent.1, row, suffix, whole, asked⟩, ?_, ?_, ?_⟩
  · rw [past_append_other _ (by simp)]
    exact parent
  · intro unjoined k' hk'
    rw [past_append_other _ (by simp)] at unjoined
    simp only [Batch.set, List.length_set] at hk'
    rw [past_append_other]
    · exact ahead unjoined k' hk'
    · simp only [ne_eq, Actor.mk.injEq, Option.some.injEq, true_and]
      omega
  · intro k' l₁ under'
    rw [past_append_other ms (by simp : (⟨i, some k⟩ : Actor) ≠ ⟨i, none⟩)]
    by_cases hk : k' = k
    · subst hk
      simp only [Batch.set, List.getElem?_set_self inside, Option.some.injEq] at under'
      subst under'
      refine ⟨s, own ++ d.exchange?.toList, row, ?_, ?_, rest⟩
      · rw [past_append_own]
        obtain ⟨before, hb⟩ := suffix
        exact ⟨before, by rw [← hb, List.append_assoc]⟩
      · intro unjoined
        rw [past_append_own, whole unjoined]
    · simp only [Batch.set, List.getElem?_set_ne (Ne.symm hk)] at under'
      obtain ⟨s', own', row', suffix', whole', kept'⟩ := children k' l₁ under'
      have other : (⟨i, some k⟩ : Actor) ≠ ⟨i, some k'⟩ := by
        simp only [ne_eq, Actor.mk.injEq, Option.some.injEq, true_and]
        exact Ne.symm hk
      rw [past_append_other ms other]
      exact ⟨s', own', row', suffix', whole', kept'⟩

theorem Task.keeps_step {k : Option Nat} {t t' : Task α} (h : t.Step w k d w' t')
    (keeps : t.Keeps c r o i ms) :
    Conforms c r ms ⟨⟨i, k⟩, o, w, d, w'⟩ ∧
      t'.Keeps c r o i (ms ++ [⟨⟨i, k⟩, o, w, d, w'⟩]) := by
  cases h with
  | line h =>
    obtain ⟨asked, rest⟩ := Line.keeps_step h keeps.1
    exact ⟨asked, Task.keeps_line rest fun unjoined => keeps.2 unjoined.of_append⟩
  | renewal under h => exact Task.keeps_renewal under h keeps
  | joined complete =>
    refine ⟨keeps.1.1, Task.keeps_line (keeps.1.2 _ (possible_renewAll _ _ _ w)) ?_⟩
    intro unjoined
    exact absurd trivial (unjoined _ List.mem_concat_self)
  | broken under =>
    refine ⟨keeps.1.1, Task.keeps_line (keeps.1.2 _ (possible_renewAll _ _ _ w)) ?_⟩
    intro unjoined
    exact absurd trivial (unjoined _ List.mem_concat_self)

end

theorem Task.keeps_quiet (renewals : ∀ s, (Sweep.renewOne s).Keeps (r s) []) {o : Op} {i : Nat}
    {ms : List (Move Op)} {t t' : Task α} (h : t.Quiet t') (keeps : t.Keeps c r o i ms) :
    t'.Keeps c r o i ms := by
  cases h with
  | fork =>
    refine ⟨keeps.1, fun unjoined k _ => keeps.2 unjoined k, ?_⟩
    intro k l under
    simp [Batch.start] at under
  | @begin b next s room row =>
    obtain ⟨parent, ahead, children⟩ := keeps
    refine ⟨parent, ?_, ?_⟩
    · intro unjoined k hk
      simp only [List.length_append, List.length_singleton] at hk
      exact ahead unjoined k (by omega)
    · intro k l under
      simp only at under
      by_cases hk : k < b.begun.length
      · rw [List.getElem?_append_left hk] at under
        exact children k l under
      · rw [List.getElem?_append_right (by omega), List.getElem?_singleton] at under
        split at under
        case isTrue hz =>
          simp only [Option.some.injEq] at under
          subst under
          have hk' : k = b.begun.length := by omega
          refine ⟨s, [], by rw [hk']; exact row, List.nil_suffix, ?_, renewals s⟩
          intro unjoined
          exact (ahead unjoined k (by omega)).symm
        case isFalse => cases under
  | @finish b next j r' calling under =>
    obtain ⟨parent, ahead, children⟩ := keeps
    refine ⟨parent, ?_, ?_⟩
    · intro unjoined k hk
      simp only [Batch.set, List.length_set] at hk
      exact ahead unjoined k hk
    · intro k l under'
      by_cases hk : k = j
      · subst hk
        have hlt := List.getElem?_eq_some_iff.mp under
        simp [Batch.set, List.getElem?_set_self hlt.1] at under'
      · simp only [Batch.set, List.getElem?_set_ne (Ne.symm hk)] at under'
        exact children k l under'

/-! ## From steps to runs -/

theorem getElem?_set_cases {ts : List (Thread Op α)} {i j : Nat} {t₀ t₁ t : Thread Op α}
    (at_i : ts[i]? = some t₀) (h : (ts.set i t₁)[j]? = some t) :
    (j = i ∧ t = t₁) ∨ (j ≠ i ∧ ts[j]? = some t) := by
  by_cases hj : j = i
  · subst hj
    obtain ⟨hlt, -⟩ := List.getElem?_eq_some_iff.mp at_i
    rw [List.getElem?_set_self hlt] at h
    exact Or.inl ⟨rfl, (Option.some.inj h).symm⟩
  · rw [List.getElem?_set_ne (Ne.symm hj)] at h
    exact Or.inr ⟨hj, h⟩

theorem operation_set {ts : List (Thread Op α)} {i : Nat} {o : Op} {t t' : Task α}
    (at_i : ts[i]? = some ⟨o, t⟩) (j : Nat) :
    ((ts.set i ⟨o, t'⟩)[j]?).map (·.operation) = (ts[j]?).map (·.operation) := by
  by_cases hj : j = i
  · subst hj
    obtain ⟨hlt, -⟩ := List.getElem?_eq_some_iff.mp at_i
    rw [List.getElem?_set_self hlt, at_i]
    rfl
  · rw [List.getElem?_set_ne (Ne.symm hj)]

section

variable {flow : Op → Flow α} {ms : List (Move Op)} {s s' : System Op α}

theorem Run.possible {s₀ : System Op α} (run : Run flow s₀ ms s) {a : Actor} :
    ∀ x ∈ past a ms, Possible x.request x.answer := by
  intro x hx
  obtain ⟨m, hm, -, deed⟩ := mem_past.mp hx
  have allowed := run.allowed m hm
  unfold Move.Allowed at allowed
  rw [deed] at allowed
  exact ⟨_, _, allowed⟩

theorem Orderly.quiet (operations : ∀ o, (flow o).Keeps (c o) [])
    (renewals : ∀ s, (Sweep.renewOne s).Keeps (r s) []) (orderly : Orderly c r ms s)
    (h : Step flow s none s') : Orderly c r ms s' := by
  cases h with
  | begin o =>
    refine ⟨?_, orderly.moves, ?_⟩
    · intro i t hi
      simp only at hi
      by_cases hlt : i < s.threads.length
      · rw [List.getElem?_append_left hlt] at hi
        exact orderly.tasks i t hi
      · rw [List.getElem?_append_right (by omega), List.getElem?_singleton] at hi
        split at hi
        case isTrue hz =>
          simp only [Option.some.injEq] at hi
          subst hi
          -- Nothing was done in the name of a thread that did not exist.
          have fresh : ∀ k, past ⟨i, k⟩ ms = [] := by
            intro k
            apply past_eq_nil
            intro m hm ha
            have hk := orderly.known m hm
            rw [ha, List.getElem?_eq_none (by simp only; omega)] at hk
            simp at hk
          refine ⟨?_, fun _ k => fresh (some k)⟩
          show Flow.Keeps _ _ _
          rw [fresh]
          exact operations o
        case isFalse => cases hi
    · intro m hm
      have hk := orderly.known m hm
      have hlt : m.actor.thread < s.threads.length := by
        apply Nat.lt_of_not_le
        intro hge
        rw [List.getElem?_eq_none hge] at hk
        cases hk
      simp only [List.getElem?_append_left hlt]
      exact hk
  | shutDown => exact ⟨orderly.tasks, orderly.moves, orderly.known⟩
  | @quiet i o t t' at_i h =>
    refine ⟨?_, orderly.moves, ?_⟩
    · intro j u hj
      rcases getElem?_set_cases at_i hj with ⟨rfl, rfl⟩ | ⟨-, hj⟩
      · exact Task.keeps_quiet renewals h (orderly.tasks j _ at_i)
      · exact orderly.tasks j u hj
    · intro m hm
      simp only [operation_set at_i]
      exact orderly.known m hm

theorem Orderly.move {m : Move Op} (orderly : Orderly c r ms s) (h : Step flow s (some m) s') :
    Orderly c r (ms ++ [m]) s' := by
  cases h with
  | @move i o t t' k d w at_i h =>
    obtain ⟨conforms, kept⟩ := Task.keeps_step h (orderly.tasks i _ at_i)
    refine ⟨?_, ?_, ?_⟩
    · intro j u hj
      rcases getElem?_set_cases at_i hj with ⟨rfl, rfl⟩ | ⟨ne, hj⟩
      · exact kept
      · exact Task.keeps_append_of_ne (orderly.tasks j u hj) (Ne.symm ne)
    · intro pre x post hsplit
      rcases append_singleton_split hsplit with ⟨post', -, hms⟩ | ⟨rfl, rfl, -⟩
      · exact orderly.moves pre x post' hms
      · exact conforms
    · intro x hx
      simp only [operation_set at_i]
      rcases List.mem_append.mp hx with hx | hx
      · exact orderly.known x hx
      · rw [List.mem_singleton.mp hx]
        simp only [at_i, Option.map_some]

/-- In every run from the start, operations whose flows keep to their conduct do so by each move,
and so does what is left of them. -/
theorem Run.orderly (operations : ∀ o, (flow o).Keeps (c o) [])
    (renewals : ∀ s, (Sweep.renewOne s).Keeps (r s) []) {w : Shared}
    (run : Run flow (.start w) ms s) : Orderly c r ms s := by
  induction run with
  | start => exact orderly_start w
  | quiet run h ih => exact ih.quiet operations renewals h
  | move run h ih => exact ih.move h

end

theorem Orderly.ended {ms : List (Move Op)} {s : System Op α} (orderly : Orderly c r ms s) {i : Nat}
    {t : Thread Op α} (at_i : s.threads[i]? = some t) {a : α} (h : t.task.result? = some a) :
    (c t.operation).ends (past ⟨i, none⟩ ms) a := by
  have keeps := orderly.tasks i t at_i
  unfold Task.result? at h
  split at h
  case h_1 b calling same =>
    rw [same] at keeps
    rw [← Option.some.inj h]
    exact keeps.1
  case h_2 => cases h

theorem Orderly.broken {ms : List (Move Op)} {s : System Op α} (orderly : Orderly c r ms s)
    {i : Nat} {t : Thread Op α} (at_i : s.threads[i]? = some t) (h : t.task.rest = .crash) :
    (c t.operation).breaks (past ⟨i, none⟩ ms) := by
  have keeps := orderly.tasks i t at_i
  cases same : t.task with
  | line l =>
    rw [same] at h keeps
    simp only [Task.rest] at h
    simp only [Task.Keeps, h] at keeps
    exact keeps.1
  | renewing b next =>
    rw [same] at h
    cases h

theorem Orderly.operation_of_thread {ms : List (Move Op)} {s : System Op α}
    (orderly : Orderly c r ms s) {i : Nat} {t : Thread Op α} (at_i : s.threads[i]? = some t)
    {m : Move Op} (hm : m ∈ ms) (thread : m.actor.thread = i) : m.operation = t.operation := by
  have known := orderly.known m hm
  rw [thread, at_i, Option.map_some, Option.some.injEq] at known
  exact known.symm

theorem Orderly.move_of_past {ms : List (Move Op)} {s : System Op α} (orderly : Orderly c r ms s)
    {i : Nat} {k : Option Nat} {t : Thread Op α} (at_i : s.threads[i]? = some t) {x : Exchange}
    (h : x ∈ past ⟨i, k⟩ ms) :
    ∃ m ∈ ms, m.actor = ⟨i, k⟩ ∧ m.operation = t.operation ∧ m.deed = .answered x := by
  obtain ⟨m, hm, actor, deed⟩ := mem_past.mp h
  exact ⟨m, hm, actor, orderly.operation_of_thread at_i hm (by rw [actor]), deed⟩

theorem Orderly.asked {ms : List (Move Op)} {s : System Op α} (orderly : Orderly c r ms s) {i : Nat}
    {t : Thread Op α} (at_i : s.threads[i]? = some t) {own rest : List Exchange} {x : Exchange}
    (h : past ⟨i, none⟩ ms = own ++ x :: rest) : (c t.operation).asks own x.request := by
  obtain ⟨pre, m, post, rfl, actor, deed, hpre⟩ := past_split h
  have conforms := orderly.moves pre m post rfl
  have operation := orderly.operation_of_thread at_i (m := m) (by simp) (by rw [actor])
  simp only [Conforms, actor, deed, Deed.request, hpre] at conforms
  rw [← operation]
  exact conforms

theorem Orderly.own_onward {ms : List (Move Op)} {s : System Op α} (orderly : Orderly c r ms s)
    {i : Nat} {t : Thread Op α} (at_i : s.threads[i]? = some t) {P : List Exchange → Prop}
    (step : ∀ own x, (c t.operation).asks own x.request → P own → P (own ++ [x]))
    {own rest : List Exchange} (here : P own) (h : past ⟨i, none⟩ ms = own ++ rest) :
    P (past ⟨i, none⟩ ms) := by
  induction rest generalizing own with
  | nil =>
    rw [h, List.append_nil]
    exact here
  | cons x rest ih =>
    refine ih (step own x (orderly.asked at_i h) here) ?_
    rw [h, List.append_assoc, List.singleton_append]

theorem Orderly.own_induction {ms : List (Move Op)} {s : System Op α} (orderly : Orderly c r ms s)
    {i : Nat} {t : Thread Op α} (at_i : s.threads[i]? = some t) {P : List Exchange → Prop}
    (nil : P [])
    (step : ∀ own x, (c t.operation).asks own x.request → P own → P (own ++ [x])) :
    P (past ⟨i, none⟩ ms) :=
  orderly.own_onward at_i step nil (List.nil_append _).symm

end Interleaving

end WebSub
