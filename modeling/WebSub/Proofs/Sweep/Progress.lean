import WebSub.Proofs.Sweep.Course

/-!
# Sweeps go on

Whatever a sweep has gone through, it can take a step unless it has ended or broken down, for there
is an answer to each of its requests.
-/

namespace WebSub.Sweep

open Interleaving

variable {w : Shared} {ms : List (Move Errand)} {s : System Errand Errand.Result}
  {settings : Settings} {i : Nat} {r : Subscription} {own : List Exchange} {q : Request}

/-! ## What is asked for -/

theorem known_of_sweep (steps : StepsOfSweep settings own q) : q ≠ .freshId := by
  rintro rfl
  exact steps

theorem known_of_renewal (steps : StepsOfRenewal r own q) : q ≠ .freshId ∧ ¬ IsRenewal q := by
  refine ⟨?_, ?_⟩
  · rintro rfl
    exact steps
  · intro renewal
    cases q with
    | renewAll n rows => exact steps
    | _ => exact renewal

theorem exists_line_step {β : Type} {v v' : Shared} {good : Deed → Shared → Prop} {a : q.Answer}
    (next : q.Answer → Flow β) (calling : Bool) (single : ¬ IsRenewal q)
    (answers : v.Answers v' q a) (answered : good (.answered ⟨q, a⟩) v')
    (called : good (.called q) v) :
    ∃ d v' l', Line.Step v ⟨.ask q next, calling⟩ d v' l' ∧ good d v' := by
  cases calling with
  | true => exact ⟨_, v', _, .answer answers single fun _ => rfl, answered⟩
  | false =>
    by_cases leaves : Leaves v q
    · exact ⟨_, _, _, .call leaves, called⟩
    · refine ⟨_, v', _, .answer answers single fun from_hub => absurd ?_ leaves, answered⟩
      cases q with
      | hub => trivial
      | hubUnlessStopped p =>
        exact Bool.eq_false_iff.mpr fun stopped => from_hub (answers.1.mpr stopped)
      | _ => exact from_hub.elim

/-! ## Tasks -/

theorem begun_le (run : Run Errand.flow (.start w) ms s) {b : Batch}
    {next : Option (List Renewal) → Flow Errand.Result}
    (at_i : s.threads[i]? = some ⟨.sweep settings, .renewing b next⟩) :
    b.begun.length ≤ b.rows.length := by
  obtain ⟨parent, -, children⟩ := (orderly run).tasks i _ at_i
  have found : Found settings (past ⟨i, none⟩ ms) b.rows := parent.1.2
  obtain ⟨out, books⟩ := (booked run).tasks i _ at_i found.unjoined
  by_contra more
  have inside : b.rows.length < b.begun.length := by omega
  have outside : b.rows[b.rows.length]? = none := List.getElem?_eq_none (Nat.le_refl _)
  cases state : b.begun[b.rows.length] with
  | none =>
    obtain ⟨o, r, -, row, -⟩ := books.finished b.rows.length
      (by rw [List.getElem?_eq_getElem inside, state])
    rw [outside] at row
    cases row
  | some l =>
    obtain ⟨r, own, row, -⟩ := children b.rows.length l
      (by rw [List.getElem?_eq_getElem inside, state])
    rw [outside] at row
    cases row

/-- Each request can be answered, or its call can leave, by a good step. -/
def Served (v : Shared) (good : Option Nat → Deed → Shared → Prop) : Prop :=
  (∀ (β : Type) (k : Option Nat) (q : Request) (next : q.Answer → Flow β) (calling : Bool),
    q ≠ .freshId → ¬ IsRenewal q →
      ∃ d v' l', Line.Step v ⟨.ask q next, calling⟩ d v' l' ∧ good k d v') ∧
  ∀ n rows a, good none (.answered ⟨.renewAll n rows, a⟩) v

variable {good : Option Nat → Deed → Shared → Prop}

theorem batch_goes_on (run : Run Errand.flow (.start w) ms s) (served : Served s.shared good)
    {b : Batch} {next : Option (List Renewal) → Flow Errand.Result}
    (at_i : s.threads[i]? = some ⟨.sweep settings, .renewing b next⟩) :
    (∃ t', (Task.renewing b next).Quiet t') ∨
      ∃ k d v' t', (Task.renewing b next).Step s.shared k d v' t' ∧ good k d v' := by
  obtain ⟨parent, -, children⟩ := (orderly run).tasks i _ at_i
  obtain ⟨limit, -⟩ : b.limit = settings.width ∧ Found settings (past ⟨i, none⟩ ms) b.rows :=
    parent.1
  by_cases some_under : ∃ (k : Nat) (l : Line Renewal), b.begun[k]? = some (some l)
  · -- One of the renewals that are under way goes on.
    obtain ⟨k, ⟨rest, calling⟩, under⟩ := some_under
    cases rest with
    | done o => exact Or.inl ⟨_, .finish under⟩
    | crash => exact Or.inr ⟨none, _, _, _, .broken under, served.2 _ _ _⟩
    | ask q next' =>
      obtain ⟨r, own, -, -, -, kept⟩ := children k _ under
      obtain ⟨known, single⟩ := known_of_renewal kept.1
      obtain ⟨d, v', l', step, fine⟩ := served.1 _ (some k) q next' calling known single
      exact Or.inr ⟨some k, d, v', _, .renewal under step, fine⟩
  · have idle : b.underWay = 0 := by
      refine List.countP_eq_zero.mpr ?_
      intro l hl some_l
      obtain ⟨k, at_k⟩ := List.mem_iff_getElem?.mp hl
      obtain ⟨l', rfl⟩ := Option.isSome_iff_exists.mp some_l
      exact some_under ⟨k, l', at_k⟩
    by_cases room : b.begun.length < b.rows.length
    · refine Or.inl ⟨_, .begin ?_ (List.getElem?_eq_getElem room)⟩
      rw [idle, limit, Settings.width]
      omega
    · have all : b.begun.length = b.rows.length := by
        have le := begun_le run at_i
        omega
      exact Or.inr ⟨none, _, _, _, .joined ⟨all, idle⟩, served.2 _ _ _⟩

theorem goes_on (run : Run Errand.flow (.start w) ms s) (served : Served s.shared good)
    {t : Interleaving.Task Errand.Result} (at_i : s.threads[i]? = some ⟨.sweep settings, t⟩)
    (unended : t.result? = none) (unbroken : t.rest ≠ .crash) :
    (∃ t', t.Quiet t') ∨ ∃ k d v' t', t.Step s.shared k d v' t' ∧ good k d v' := by
  match t, at_i, unended, unbroken with
  | .renewing b next, at_i, _, _ => exact batch_goes_on run served at_i
  | .line ⟨.done x, _⟩, _, unended, _ => cases unended
  | .line ⟨.crash, _⟩, _, _, unbroken => exact absurd rfl unbroken
  | .line ⟨.ask q next, calling⟩, at_i, _, _ =>
    have kept := ((orderly run).tasks i _ at_i).1
    by_cases single : IsRenewal q
    case pos =>
      cases q with
      | renewAll n rows => exact Or.inl ⟨_, .fork⟩
      | _ => exact single.elim
    case neg =>
      obtain ⟨d, v', l', step, fine⟩ :=
        served.1 _ none q next calling (known_of_sweep kept.1) single
      exact Or.inr ⟨none, d, v', _, .line step, fine⟩

end WebSub.Sweep
