import WebSub.Proofs.Interleaving.Run

/-!
# Runs under other names

Operations that go by other names, and whose results are put in other words, run alike: what is
shared goes through the same states.
-/

namespace WebSub.Interleaving

variable {Op Op' α β : Type} {f : Op → Op'} {g : α → β} {w w' : Shared} {d : Deed}

/-! ## One step -/

def Line.renamed (g : α → β) (l : Line α) : Line β := ⟨l.rest.bind (.done <| g ·), l.calling⟩

theorem Line.Step.renamed {l l' : Line α} (h : l.Step w d w' l') :
    (l.renamed g).Step w d w' (l'.renamed g) := by
  cases h with
  | call leaves => exact .call leaves
  | answer answers single awaited => exact .answer answers single awaited

namespace Task

/-- The renewals of a batch go by the same names. -/
def renamed (g : α → β) : Task α → Task β
  | line l => line (l.renamed g)
  | renewing b next => renewing b fun ended => (next ended).bind (.done <| g ·)

theorem Step.renamed {t t' : Task α} {k : Option Nat} (h : t.Step w k d w' t') :
    (t.renamed g).Step w k d w' (t'.renamed g) := by
  cases h with
  | line step => exact .line step.renamed
  | renewal under step => exact .renewal under step
  | joined complete => exact .joined complete
  | broken under => exact .broken under

theorem Quiet.renamed {t t' : Task α} (h : t.Quiet t') : (t.renamed g).Quiet (t'.renamed g) := by
  cases h with
  | fork => exact .fork
  | begin room row => exact .begin room row
  | finish under => exact .finish under

end Task

/-! ## A whole run -/

def Thread.renamed (f : Op → Op') (g : α → β) (t : Thread Op α) : Thread Op' β :=
  ⟨f t.operation, t.task.renamed g⟩

def System.renamed (f : Op → Op') (g : α → β) (s : System Op α) : System Op' β :=
  ⟨s.shared, s.threads.map (·.renamed f g)⟩

def Move.renamed (f : Op → Op') (m : Move Op) : Move Op' :=
  ⟨m.actor, f m.operation, m.before, m.deed, m.after⟩

variable {flow : Op → Flow α} {flow' : Op' → Flow β} {s₀ s s' : System Op α}

theorem System.renamed_thread {i : Nat} {o : Op} {t : Task α}
    (at_i : s.threads[i]? = some ⟨o, t⟩) :
    (s.renamed f g).threads[i]? = some ⟨f o, t.renamed g⟩ := by
  rw [System.renamed, List.getElem?_map, at_i]
  rfl

theorem System.renamed_set {i : Nat} {o : Op} {t : Task α} :
    System.renamed f g ⟨w, s.threads.set i ⟨o, t⟩⟩ =
      ⟨w, (s.renamed f g).threads.set i ⟨f o, t.renamed g⟩⟩ := by
  rw [System.renamed, List.map_set]
  rfl

theorem Step.renamed {m : Option (Move Op)} (h : Step flow s m s')
    (same : ∀ o, flow' (f o) = (flow o).bind (.done <| g ·)) :
    Step flow' (s.renamed f g) (m.map (·.renamed f)) (s'.renamed f g) := by
  cases h with
  | begin o =>
    have step : Step flow' (s.renamed f g) none
        ⟨s.shared, (s.renamed f g).threads ++ [⟨f o, .begin (flow' (f o))⟩]⟩ := .begin _ _
    rw [same] at step
    simp only [System.renamed, List.map_append]
    exact step
  | shutDown => exact .shutDown _
  | quiet at_i quiet =>
    rw [System.renamed_set]
    exact .quiet (System.renamed_thread at_i) quiet.renamed
  | move at_i step =>
    rw [System.renamed_set]
    exact .move (System.renamed_thread at_i) step.renamed

theorem Run.renamed {ms : List (Move Op)} (run : Run flow s₀ ms s)
    (same : ∀ o, flow' (f o) = (flow o).bind (.done <| g ·)) :
    Run flow' (s₀.renamed f g) (ms.map (·.renamed f)) (s.renamed f g) := by
  induction run with
  | start => exact .start
  | quiet run step ih => exact ih.quiet (step.renamed same)
  | move run step ih =>
    rw [List.map_append]
    exact ih.move (step.renamed same)

end WebSub.Interleaving
