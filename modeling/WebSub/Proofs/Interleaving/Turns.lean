import WebSub.Proofs.Interleaving.Position

/-!
# Operations in turn

Traces in which an operation has made all its moves before the next one makes its first, and traces
along which the clock never goes back. The shutdown comes once, and stays.
-/

namespace WebSub.Interleaving

variable {Op : Type} {ms : List (Move Op)} {m m' m'' : Move Op} {k p n q : Nat} {t u : Instant}

/-- Operations move in the order of their beginnings. -/
def InTurn (ms : List (Move Op)) : Prop := (ms.map (·.actor.thread)).Pairwise (· ≤ ·)

theorem InTurn.le (turn : InTurn ms) (at_p : ms[p]? = some m) (at_q : ms[q]? = some m')
    (le : p ≤ q) : m.actor.thread ≤ m'.actor.thread := by
  rcases Nat.eq_or_lt_of_le le with rfl | lt
  · rw [at_p, Option.some.injEq] at at_q
    exact Nat.le_of_eq (by rw [at_q])
  · obtain ⟨hp, rfl⟩ := List.getElem?_eq_some_iff.mp at_p
    obtain ⟨hq, rfl⟩ := List.getElem?_eq_some_iff.mp at_q
    have ordered := List.pairwise_iff_getElem.mp turn p q (by simpa using hp) (by simpa using hq) lt
    simpa using ordered

theorem InTurn.between (turn : InTurn ms) (at_p : ms[p]? = some m) (at_n : ms[n]? = some m')
    (at_q : ms[q]? = some m'') (pn : p ≤ n) (nq : n ≤ q)
    (same : m.actor.thread = m''.actor.thread) : m'.actor.thread = m''.actor.thread := by
  have low := turn.le at_p at_n pn
  have high := turn.le at_n at_q nq
  omega

/-! ## The clock -/

/-- By the move at a position, the clock showed an instant. -/
def ReadAt (ms : List (Move Op)) (k : Nat) (t : Instant) : Prop :=
  ∃ m, ms[k]? = some m ∧ m.deed = .answered ⟨.now, t⟩

/-- The clock never goes back. -/
def Steady (ms : List (Move Op)) : Prop :=
  ∀ j k t u, j ≤ k → ReadAt ms j t → ReadAt ms k u → t ≤ u

theorem readAt_of_mem_past {a : Actor} (h : ⟨.now, t⟩ ∈ past a ms) : ∃ k, ReadAt ms k t := by
  obtain ⟨m, hm, -, deed⟩ := mem_past.mp h
  obtain ⟨k, at_k⟩ := List.mem_iff_getElem?.mp hm
  exact ⟨k, m, at_k, deed⟩

theorem ReadAt.append (h : ReadAt ms k t) (ms' : List (Move Op)) :
    ReadAt (ms ++ ms') k t := by
  obtain ⟨m, at_k, deed⟩ := h
  refine ⟨m, ?_, deed⟩
  rw [List.getElem?_append_left (List.getElem?_eq_some_iff.mp at_k).1]
  exact at_k

/-! ## The shutdown -/

section

variable {α : Type} {flow : Op → Flow α} {s₀ s : System Op α} {j : Nat}

theorem stopped_of_answers {v v' : Shared} {q : Request} {a : q.Answer} (h : v.Answers v' q a) :
    v'.stopped = v.stopped := by
  cases q with
  | subscriptions c | events c =>
    rcases h with ⟨-, h⟩ | ⟨-, h⟩
    · rw [h]
    · rw [h]
  | now | freshId | hubUnlessStopped | stopped | lockSweeps => rw [h.2]
  | handle | unlockSweeps | hub | renewAll | count =>
    simp only [Shared.Answers] at h
    rw [h]

theorem stopped_of_allowed (h : m.Allowed) : m.after.stopped = m.before.stopped := by
  unfold Move.Allowed at h
  split at h
  case h_1 q deed => rw [h.2]
  case h_2 x deed => exact stopped_of_answers h

theorem stopped_of_run (run : Run flow s₀ ms s) (stopped : s₀.shared.stopped = true) :
    s.shared.stopped = true ∧ ∀ m ∈ ms, m.before.stopped = true := by
  induction run with
  | start => exact ⟨stopped, fun m hm => absurd hm List.not_mem_nil⟩
  | quiet run h ih =>
    refine ⟨?_, ih.2⟩
    cases h with
    | begin o => exact ih.1
    | shutDown => rfl
    | quiet at_i h => exact ih.1
  | @move ms m s s' run h ih =>
    obtain ⟨before, after, allowed⟩ := h.allowed
    have here : m.before.stopped = true := by
      rw [before]
      exact ih.1
    refine ⟨?_, ?_⟩
    · rw [← after, stopped_of_allowed allowed]
      exact here
    · intro m' hm'
      rcases List.mem_append.mp hm' with hm' | hm'
      · exact ih.2 m' hm'
      · rw [List.mem_singleton.mp hm']
        exact here

theorem stopped_onward {m' : Move Op} (run : Run flow s₀ ms s) (at_j : ms[j]? = some m)
    (at_k : ms[k]? = some m') (le : j ≤ k) (stopped : m.before.stopped = true) :
    m'.before.stopped = true := by
  rcases Nat.eq_or_lt_of_le le with rfl | lt
  · rw [at_j] at at_k
    cases at_k
    exact stopped
  · obtain ⟨s₁, s₂, -, step, rest⟩ := run.split (split_at at_j)
    obtain ⟨before, after, allowed⟩ := step.allowed
    have there : s₂.shared.stopped = true := by
      rw [← after, stopped_of_allowed allowed]
      exact stopped
    refine (stopped_of_run rest there).2 m' ?_
    refine List.mem_of_getElem? (i := k - (j + 1)) ?_
    rw [List.getElem?_drop, show j + 1 + (k - (j + 1)) = k by omega]
    exact at_k

theorem running_of_run (run : Run flow s₀ ms s) (running : s.shared.stopped = false)
    (hm : m ∈ ms) : m.before.stopped = false := by
  by_contra stopped
  obtain ⟨pre, post, split⟩ := List.append_of_mem hm
  obtain ⟨s₁, s₂, -, step, rest⟩ := run.split split
  have here : s₁.shared.stopped = true := by
    rw [← step.allowed.1]
    simpa using stopped
  have later := (stopped_of_run ((Run.start.move step).trans rest) here).1
  rw [running] at later
  cases later

theorem stopped_of_look {a : Actor} {b : Bool} (run : Run flow s₀ ms s)
    (seen : ⟨.stopped, b⟩ ∈ past a ms) : ∃ m ∈ ms, m.actor = a ∧ m.before.stopped = b := by
  obtain ⟨m, hm, actor, deed⟩ := mem_past.mp seen
  exact ⟨m, hm, actor, ((run.allowed m hm).answered deed).1.symm⟩

theorem stopped_of_abandoned {a : Actor} {p : Hub.Request} (run : Run flow s₀ ms s)
    (abandoned : ⟨.hubUnlessStopped p, none⟩ ∈ past a ms) :
    ∃ m ∈ ms, m.actor = a ∧ m.before.stopped = true := by
  obtain ⟨m, hm, actor, deed⟩ := mem_past.mp abandoned
  exact ⟨m, hm, actor, ((run.allowed m hm).answered deed).1.mp rfl⟩

end

end WebSub.Interleaving
