import WebSub.Proofs.Store.SubscriptionRows
import WebSub.Proofs.Sweep.Callers

/-!
# The lock of the sweeps

What a single step may do with the lock. A sweep that holds it goes on holding it until it gives it
back and is over, and has at most so many renewals under way, each about a row of its own.
-/

namespace WebSub

open Interleaving
open Store (Subscriptions)
open Sweep (Renewal)

variable {α : Type} {settings : Sweep.Settings} {w w' : Shared} {d : Deed}

/-! ## Answers -/

namespace Interleaving.Shared

variable {q : Request} {a : q.Answer}

theorem sane_of_answers (ids : w.subscriptions.UniqueIds) (h : w.Answers w' q a) : Sane q a := by
  cases q with
  | subscriptions c =>
    cases c with
    | findExpiring before limit =>
      match a, h with
      | none, _ => trivial
      | some (.error e), _ => trivial
      | some (.ok rows), Or.inl ⟨found, _⟩ => exact ids.findExpiring found.symm
      | some (.ok rows), Or.inr ⟨⟨e, fault⟩, _⟩ => cases fault
    | _ => trivial
  | _ => trivial

theorem uniqueIds_of_answers (ids : w.subscriptions.UniqueIds) (h : w.Answers w' q a) :
    w'.subscriptions.UniqueIds := by
  rcases (unchanged_of_answers h).2.2 with same | ⟨c, rfl⟩
  · rw [same]
    exact ids
  · rcases h with ⟨-, after⟩ | ⟨-, after⟩
    · rw [after]
      exact ids.answer c
    · rw [after]
      exact ids

theorem sweeping_of_answers (h : w.Answers w' q a) (unlocked : q ≠ .lockSweeps)
    (held : q ≠ .unlockSweeps) : w'.sweeping = w.sweeping := by
  cases q with
  | lockSweeps => exact absurd rfl unlocked
  | unlockSweeps => exact absurd rfl held
  | subscriptions c | events c =>
    rcases h with ⟨-, h⟩ | ⟨-, h⟩
    · rw [h]
    · rw [h]
  | now | freshId | hubUnlessStopped | stopped => rw [h.2]
  | handle | hub | renewAll | count =>
    simp only [Answers] at h
    rw [h]

end Interleaving.Shared

/-! ## Lines -/

/-- A request that leaves the lock alone. -/
def LeavesLock (q : Request) : Prop := q ≠ .lockSweeps ∧ q ≠ .unlockSweeps

theorem IsPlain.leavesLock {q : Request} (h : IsPlain q) : LeavesLock q := by
  constructor <;> rintro rfl <;> exact h

theorem Sweep.IsLocked.leavesLock {q : Request} (h : Sweep.IsLocked settings q) : LeavesLock q := by
  constructor <;> rintro rfl <;> exact h

theorem Sweep.IsRenewing.leavesLock {q : Request} {r : Subscription} (h : Sweep.IsRenewing r q) :
    LeavesLock q := by
  constructor <;> rintro rfl <;> exact h

namespace Interleaving

/-- A step that leaves the lock alone, and identities apart. -/
structure Aside (w : Shared) (d : Deed) (w' : Shared) : Prop where
  request : LeavesLock d.request
  sweeping : w'.sweeping = w.sweeping
  ids : w'.subscriptions.UniqueIds

theorem Line.Step.aside {l l' : Line α} (step : l.Step w d w' l') (ids : w.subscriptions.UniqueIds)
    (leaves : LeavesLock d.request) : Aside w d w' := by
  cases step with
  | call => exact ⟨leaves, rfl, ids⟩
  | answer answers single awaited =>
    exact ⟨leaves, Shared.sweeping_of_answers answers leaves.1 leaves.2,
      Shared.uniqueIds_of_answers ids answers⟩

theorem Line.Step.only {p : Request → Prop} {l l' : Line α} (step : l.Step w d w' l')
    (ids : w.subscriptions.UniqueIds) (only : l.rest.Only p) : p d.request ∧ l'.rest.Only p := by
  cases step with
  | call => exact ⟨only.1, only⟩
  | answer answers single awaited =>
    exact ⟨only.1, only.2 _ (Shared.sane_of_answers ids answers)⟩

theorem Line.Step.returns {l l' : Line α} (step : l.Step w d w' l')
    (ids : w.subscriptions.UniqueIds) (returns : l.rest.Returns settings) :
    (l'.rest.Returns settings ∧ Aside w d w') ∨
      (d = .answered ⟨.unlockSweeps, ()⟩ ∧ l'.rest.IsOver ∧ w'.sweeping = false ∧
        w'.subscriptions.UniqueIds) := by
  have step' := step
  cases step with
  | @call q next leaves =>
    rcases returns with ⟨rfl, -⟩ | ⟨locked, rest⟩
    · exact leaves.elim
    · exact Or.inl ⟨Or.inr ⟨locked, rest⟩, step'.aside ids locked.leavesLock⟩
  | @answer q next calling a w' answers single awaited =>
    rcases returns with ⟨rfl, finished⟩ | ⟨locked, rest⟩
    · refine Or.inr ⟨rfl, finished a, ?_, Shared.uniqueIds_of_answers ids answers⟩
      rw [show w' = _ from answers]
    · exact Or.inl ⟨rest a (Shared.sane_of_answers ids answers), step'.aside ids locked.leavesLock⟩

/-! ## Renewals -/

/-- The renewals of a sweep are about different rows, and not too many. -/
structure Batch.Guarded (settings : Sweep.Settings) (b : Batch) : Prop where
  limit : b.limit = settings.width
  nodup : (b.rows.map (·.id)).Nodup
  width : b.underWay ≤ b.limit
  lines : ∀ (k : Nat) l, b.begun[k]? = some (some l) →
    ∃ r, b.rows[k]? = some r ∧ l.rest.Only (Sweep.IsRenewing r)

namespace Batch.Guarded

variable {b : Batch} {k : Nat}

theorem start {rows : List Subscription} (nodup : (rows.map (·.id)).Nodup) :
    (Batch.start settings.width rows).Guarded settings :=
  ⟨rfl, nodup, Nat.zero_le _, nofun⟩

theorem begin (h : b.Guarded settings) {s : Subscription} (room : b.underWay < b.limit)
    (row : b.rows[b.begun.length]? = some s) :
    Guarded settings { b with begun := b.begun ++ [some (.begin (Sweep.renewOne s))] } := by
  refine ⟨h.limit, h.nodup, ?_, ?_⟩
  · simp only [underWay, List.countP_append, List.countP_singleton, Option.isSome_some, if_true]
    exact room
  · intro k l under
    simp only at under
    by_cases hk : k < b.begun.length
    · rw [List.getElem?_append_left hk] at under
      exact h.lines k l under
    · rw [List.getElem?_append_right (by omega), List.getElem?_singleton] at under
      split at under
      case isFalse => cases under
      case isTrue hz =>
        cases under
        exact ⟨s, by rw [show k = b.begun.length by omega]; exact row, Sweep.only_renewOne s⟩

theorem set (h : b.Guarded settings) {l : Line Renewal} (under : b.begun[k]? = some (some l))
    {x : Option (Line Renewal)}
    (kept : ∀ l' r, x = some l' → b.rows[k]? = some r → l.rest.Only (Sweep.IsRenewing r) →
      l'.rest.Only (Sweep.IsRenewing r)) (ended : List Renewal) :
    Guarded settings { b.set k x with ended } := by
  obtain ⟨inside, at_k⟩ := List.getElem?_eq_some_iff.mp under
  refine ⟨h.limit, h.nodup, ?_, ?_⟩
  · have width := h.width
    have before : 0 < b.underWay := by
      refine List.countP_pos_iff.mpr ⟨_, List.mem_of_getElem? under, rfl⟩
    simp only [underWay, Batch.set] at *
    rw [List.countP_set inside, at_k]
    cases x <;> simp <;> omega
  · intro j l' under'
    simp only [Batch.set] at under'
    by_cases hj : j = k
    · subst hj
      rw [List.getElem?_set_self inside] at under'
      cases under'
      obtain ⟨r, row, only⟩ := h.lines j l under
      exact ⟨r, row, kept l' r rfl row only⟩
    · rw [List.getElem?_set_ne (Ne.symm hj)] at under'
      exact h.lines j l' under'

end Batch.Guarded

/-! ## Sweeps -/

/-- What is left of an operation that holds the lock. -/
def Task.Holds (settings : Sweep.Settings) : Task α → Prop
  | line l => l.rest.Returns settings
  | renewing b next => b.Guarded settings ∧ ∀ a, (next a).Returns settings

theorem Task.Holds.not_over {t : Task α} (h : t.Holds settings) : ¬ t.rest.IsOver := by
  match t, h with
  | .line ⟨.done _, _⟩, h => exact h.elim
  | .line ⟨.crash, _⟩, h => exact h.elim
  | .line ⟨.ask _ _, _⟩, _ => exact id
  | .renewing _ _, _ => exact id

theorem Task.Holds.quiet {t t' : Task α} (h : t.Holds settings) (step : t.Quiet t') :
    t'.Holds settings := by
  cases step with
  | fork =>
    rcases h with ⟨other, -⟩ | ⟨⟨rfl, nodup⟩, rest⟩
    · cases other
    · exact ⟨.start nodup, fun a => rest a trivial⟩
  | begin room row => exact ⟨h.1.begin room row, h.2⟩
  | finish under => exact ⟨h.1.set under (by simp) _, h.2⟩

theorem Task.Holds.step {t t' : Task α} {k : Option Nat} (h : t.Holds settings)
    (step : t.Step w k d w' t') (ids : w.subscriptions.UniqueIds) :
    (t'.Holds settings ∧ Aside w d w') ∨
      (k = none ∧ d = .answered ⟨.unlockSweeps, ()⟩ ∧ t'.rest.IsOver ∧ w'.sweeping = false ∧
        w'.subscriptions.UniqueIds) := by
  cases step with
  | line step =>
    rcases step.returns ids h with holds | given
    · exact Or.inl holds
    · exact Or.inr ⟨rfl, given⟩
  | @renewal b next k l l' d w' under step =>
    obtain ⟨r, row, only⟩ := h.1.lines k l under
    have leaves := (step.only ids only).1.leavesLock
    refine Or.inl ⟨⟨h.1.set under ?_ b.ended, h.2⟩, step.aside ids leaves⟩
    rintro l₁ r' ⟨⟩ - only'
    exact (step.only ids only').2
  | joined complete =>
    exact Or.inl ⟨h.2 _, ⟨⟨by simp [Deed.request], by simp [Deed.request]⟩, rfl, ids⟩⟩
  | broken under =>
    exact Or.inl ⟨h.2 _, ⟨⟨by simp [Deed.request], by simp [Deed.request]⟩, rfl, ids⟩⟩

end Interleaving

end WebSub
