import WebSub.Proofs.Interleaving.Position

/-!
# What holds of all rows

A property of single rows that the writes of every move keep holds of all rows that are stored, and
of all copies that were ever handed out.
-/

namespace WebSub.Interleaving

variable {Op α : Type} {ms : List (Move Op)} {m : Move Op} {P P' : Subscription → Prop}

/-- Every row that is stored and every row that was ever handed out has a property. -/
structure Upheld (P : Subscription → Prop) (ms : List (Move Op)) (now : Shared) : Prop where
  rows : ∀ r ∈ now.subscriptions.rows, P r
  given : ∀ a c v, ⟨.subscriptions c, some (.ok v)⟩ ∈ past a ms → ∀ r ∈ c.given v, P r

/-- What a move must do for the rows after it to have a property, if those before it had another
one. -/
structure Upholds (P P' : Subscription → Prop) (m : Move Op) : Prop where
  onward : ∀ r, P r → P' r
  created : ∀ y b, m.deed = .answered ⟨.subscriptions (.create y), some (.ok b)⟩ → P' y
  written : ∀ y b, m.deed = .answered ⟨.subscriptions (.update y), some (.ok b)⟩ →
    ∀ r ∈ m.before.subscriptions.rows, r.id = y.id → P' (m.before.subscriptions.written y r)
  lapsed : ∀ r now, P r → P' (r.markExpired now).1

theorem Upheld.start {now : Shared} (rows : ∀ r ∈ now.subscriptions.rows, P r) :
    Upheld P ([] : List (Move Op)) now :=
  ⟨rows, fun _ _ _ h => absurd h List.not_mem_nil⟩

theorem Upheld.move (h : Upheld P ms m.before) (allowed : m.Allowed) (upholds : Upholds P P' m) :
    Upheld P' (ms ++ [m]) m.after := by
  have old : ∀ r ∈ m.before.subscriptions.rows, P' r :=
    fun r hr => upholds.onward r (h.rows r hr)
  refine ⟨?_, ?_⟩
  · intro r hr
    rcases allowed.subscriptions with same | ⟨c, deed, after⟩
    · rw [same] at hr
      exact old r hr
    · rw [after] at hr
      rcases Store.Subscriptions.mem_answer _ c hr with
        stored | rfl | ⟨y, stored, hs, rfl, id, rfl⟩ | ⟨t, stored, hs, rfl, rfl⟩
      · exact old r stored
      · rcases Store.Subscriptions.answer_create m.before.subscriptions r with refused | ⟨ok, -⟩
        · rw [refused] at hr
          exact old r hr
        · rw [ok] at deed
          exact upholds.created r r deed
      · rcases Store.Subscriptions.answer_update m.before.subscriptions y with
          ⟨-, -, absent⟩ | ⟨⟨b, ok⟩, -⟩
        · exact absurd id (absent stored hs)
        · rw [ok] at deed
          exact upholds.written y b deed stored hs id
      · exact upholds.lapsed stored t (h.rows stored hs)
  · intro a c v hx r hr
    rw [past_append] at hx
    rcases List.mem_append.mp hx with hx | hx
    · exact upholds.onward r (h.given a c v hx r hr)
    · obtain ⟨m', hm', -, deed⟩ := mem_past.mp hx
      rw [List.mem_singleton.mp hm'] at deed
      have answer := (allowed.answer deed (by simp)).1
      rcases Store.Subscriptions.mem_of_given _ answer.symm hr with stored | rfl
      · exact old r stored
      · exact upholds.created r v deed

/-- Along a run, what holds of the rows may tell of the moves so far. -/
theorem Run.upheld {flow : Op → Flow α} {s₀ s : System Op α}
    {P : List (Move Op) → Subscription → Prop} (run : Run flow s₀ ms s)
    (start : ∀ r ∈ s₀.shared.subscriptions.rows, P [] r)
    (step : ∀ pre m post s₁ s₂, ms = pre ++ m :: post → Run flow s₀ pre s₁ →
      Step flow s₁ (some m) s₂ → Upheld (P pre) pre m.before →
        Upholds (P pre) (P (pre ++ [m])) m) :
    Upheld (P ms) ms s.shared := by
  induction run with
  | start => exact .start start
  | quiet run h ih =>
    obtain ⟨b, same⟩ := h.shared_of_quiet
    rw [same]
    exact ⟨(ih step).rows, (ih step).given⟩
  | @move ms m s s' run h ih =>
    obtain ⟨before, after, allowed⟩ := h.allowed
    have earlier : Upheld (P ms) ms m.before := by
      rw [before]
      refine ih fun pre x post s₁ s₂ split => ?_
      exact step pre x (post ++ [m]) s₁ s₂ (by rw [split, List.append_assoc]; rfl)
    rw [← after]
    exact earlier.move allowed (step ms m [] s s' rfl run h earlier)

end WebSub.Interleaving
