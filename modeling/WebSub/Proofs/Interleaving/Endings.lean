import Mathlib.Logic.Hydra
import WebSub.Proofs.Interleaving.Run

/-!
# Nothing goes on forever

However its requests are answered and in whatever order its renewals go on, an operation makes only
so many steps. A flow is a tree without infinite branches, and a batch is a bag of such trees.
-/

namespace WebSub.Interleaving

open Sweep (Renewal)

variable {α : Type}

/-! ## Lines -/

def Line.Goes (l l' : Line α) : Prop := ∃ w d w', l.Step w d w' l'

theorem Line.acc (f : Flow α) : ∀ calling, Acc (fun l' l => Line.Goes l l') ⟨f, calling⟩ := by
  -- An answer leads to a branch of the flow, and a call can leave but once.
  induction f with
  | done a =>
    refine fun calling => .intro _ ?_
    rintro l' ⟨w, d, w', step⟩
    cases step
  | crash =>
    refine fun calling => .intro _ ?_
    rintro l' ⟨w, d, w', step⟩
    cases step
  | ask q next ih =>
    have waiting : Acc (fun l' l => Line.Goes l l') ⟨.ask q next, true⟩ := by
      refine .intro _ ?_
      rintro l' ⟨w, d, w', step⟩
      cases step with
      | answer answers single awaited => exact ih _ false
    intro calling
    cases calling with
    | true => exact waiting
    | false =>
      refine .intro _ ?_
      rintro l' ⟨w, d, w', step⟩
      cases step with
      | call leaves => exact waiting
      | answer answers single awaited => exact ih _ false

/-! ## Batches -/

/-- What is left to do about one row: all of it, or what is left of its renewal. -/
inductive Job where
  | waiting
  | line (l : Line Renewal)

inductive Job.Goes : Job → Job → Prop
  | begin (l : Line Renewal) : Goes waiting (line l)
  | step {l l' : Line Renewal} (h : l.Goes l') : Goes (line l) (line l')

theorem Job.acc_line {l : Line Renewal} (h : Acc (fun l' l => Line.Goes l l') l) :
    Acc (fun j' j => Job.Goes j j') (.line l) := by
  induction h with
  | intro l _ ih =>
    refine .intro _ ?_
    rintro j' (_ | h)
    exact ih _ h

theorem Job.wellFounded : WellFounded fun j' j => Job.Goes j j' := by
  refine ⟨?_⟩
  rintro (_ | l)
  · refine .intro _ ?_
    rintro j' (l | _)
    exact acc_line (Line.acc l.rest l.calling)
  · exact acc_line (Line.acc l.rest l.calling)

/-- The jobs of the renewals that were begun and have not ended. -/
def pending (begun : List (Option (Line Renewal))) : List Job :=
  begun.filterMap fun x => x.map Job.line

def Batch.jobs (b : Batch) : Multiset Job :=
  ↑(pending b.begun) + Multiset.replicate (b.rows.length - b.begun.length) Job.waiting

theorem pending_set {begun : List (Option (Line Renewal))} {k : Nat} {l : Line Renewal}
    (under : begun[k]? = some (some l)) (x : Option (Line Renewal)) :
    (pending (begun.set k x) ++ [Job.line l]).Perm
      (pending begun ++ (x.map Job.line).toList) := by
  induction begun generalizing k with
  | nil => cases under
  | cons y begun ih =>
    cases k with
    | zero =>
      cases under
      unfold pending
      cases x with
      | none => simp
      | some l' =>
        show (Job.line l' :: (_ ++ [Job.line l])).Perm (Job.line l :: (_ ++ [Job.line l']))
        exact ((List.perm_append_singleton _ _).cons _).trans
          ((List.Perm.swap _ _ _).trans ((List.perm_append_singleton _ _).symm.cons _))
    | succ k =>
      have rest := ih (k := k) (by simpa using under)
      unfold pending at *
      cases y with
      | none => simpa using rest
      | some l' => simpa using rest

theorem Batch.jobs_set {b : Batch} {k : Nat} {l : Line Renewal}
    (under : b.begun[k]? = some (some l)) {x : Option (Line Renewal)}
    (less : ∀ l', x = some l' → l.Goes l') (ended : List Renewal) :
    Relation.CutExpand (fun j' j => Job.Goes j j')
      (jobs { b.set k x with ended }) b.jobs := by
  refine ⟨↑(x.map Job.line).toList, .line l, ?_, ?_⟩
  · intro j hj
    simp only [Multiset.mem_coe, Option.mem_toList, Option.map_eq_some_iff] at hj
    obtain ⟨l', rfl, rfl⟩ := hj
    exact .step (less l' rfl)
  · have same : ((pending (b.begun.set k x) : List Job) : Multiset Job) + {.line l} =
        (pending b.begun : Multiset Job) + ((x.map Job.line).toList : Multiset Job) := by
      rw [← Multiset.coe_singleton, Multiset.coe_add, Multiset.coe_add]
      exact Multiset.coe_eq_coe.mpr (pending_set under x)
    simp only [jobs, Batch.set, List.length_set]
    rw [add_right_comm, same, add_right_comm]

theorem Batch.jobs_begin {b : Batch} (room : b.begun.length < b.rows.length) (l : Line Renewal) :
    Relation.CutExpand (fun j' j => Job.Goes j j')
      (jobs { b with begun := b.begun ++ [some l] }) b.jobs := by
  refine ⟨{.line l}, .waiting, ?_, ?_⟩
  · intro j hj
    rw [Multiset.mem_singleton.mp hj]
    exact .begin l
  · have left : b.rows.length - b.begun.length = b.rows.length - (b.begun.length + 1) + 1 := by
      omega
    have new : ((pending (b.begun ++ [some l]) : List Job) : Multiset Job) =
        (pending b.begun : Multiset Job) + {.line l} := by
      rw [← Multiset.coe_singleton, Multiset.coe_add]
      simp [pending]
    simp only [jobs, List.length_append, List.length_singleton]
    rw [new, left, Multiset.replicate_succ, ← Multiset.singleton_add]
    ac_rfl

/-! ## Operations -/

def Task.Goes (t t' : Task α) : Prop := t.Quiet t' ∨ ∃ w k d w', t.Step w k d w' t'

theorem Task.acc_renewing {next : Option (List Renewal) → Flow α}
    (after : ∀ a, Acc (fun t' t => Task.Goes t t') (.begin (next a))) (b : Batch) :
    Acc (fun t' t => Task.Goes t t') (.renewing b next) := by
  have wf := Job.wellFounded.cutExpand
  generalize left : b.jobs = jobs
  induction jobs using wf.induction generalizing b with
  | _ jobs ih =>
    subst left
    refine .intro _ ?_
    rintro t' (quiet | ⟨w, k, d, w', step⟩)
    · cases quiet with
      | begin room row =>
        exact ih _ (Batch.jobs_begin (List.getElem?_eq_some_iff.mp row).1 _) _ rfl
      | finish under => exact ih _ (Batch.jobs_set under (by simp) _) _ rfl
    · cases step with
      | renewal under step =>
        refine ih _ (Batch.jobs_set (b := b) under ?_ b.ended) _ rfl
        rintro l' ⟨⟩
        exact ⟨w, d, w', step⟩
      | joined complete => exact after _
      | broken under => exact after _

theorem Task.acc_line (f : Flow α) :
    ∀ calling, Acc (fun t' t => Task.Goes t t') (.line ⟨f, calling⟩) := by
  -- Renewals that are under way come to an end before the flow goes on to a branch.
  induction f with
  | done a =>
    refine fun calling => .intro _ ?_
    rintro t' (quiet | ⟨w, k, d, w', step⟩)
    · cases quiet
    · cases step with
      | line step => cases step
  | crash =>
    refine fun calling => .intro _ ?_
    rintro t' (quiet | ⟨w, k, d, w', step⟩)
    · cases quiet
    · cases step with
      | line step => cases step
  | ask q next ih =>
    have waiting : ∀ t', Task.Goes (.line ⟨.ask q next, true⟩) t' →
        Acc (fun t' t => Task.Goes t t') t' := by
      rintro t' (quiet | ⟨w, k, d, w', step⟩)
      · cases quiet with
        | fork => exact acc_renewing (fun a => ih a false) _
      · cases step with
        | line step =>
          cases step with
          | answer answers single awaited => exact ih _ false
    intro calling
    cases calling with
    | true => exact .intro _ waiting
    | false =>
      refine .intro _ ?_
      rintro t' (quiet | ⟨w, k, d, w', step⟩)
      · cases quiet with
        | fork => exact acc_renewing (fun a => ih a false) _
      · cases step with
        | line step =>
          cases step with
          | call leaves => exact .intro _ waiting
          | answer answers single awaited => exact ih _ false

theorem Task.wellFounded : WellFounded fun t' t : Task α => t.Goes t' := by
  refine ⟨?_⟩
  rintro (l | ⟨b, next⟩)
  · exact acc_line l.rest l.calling
  · exact acc_renewing (fun a => acc_line (next a) false) b

/-- No operation goes on forever. -/
theorem Task.stops (f : Nat → Task α) : ∃ n, ¬ (f n).Goes (f (n + 1)) := by
  by_contra! goes
  exact (wellFounded_iff_isEmpty_descending_chain.mp Task.wellFounded).elim ⟨f, goes⟩

end WebSub.Interleaving
