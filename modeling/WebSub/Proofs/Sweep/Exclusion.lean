import Mathlib.Data.List.Perm.Subperm
import WebSub.Proofs.Sweep.Lock
import WebSub.Proofs.Sweep.Rows

/-!
# Sweeps never overlap

However the background loop, requests and direct calls try to sweep, and however their clients and
callers go away, at most one sweep is between taking the lock and its end. The lock is taken just
as long as there is one.
-/

namespace WebSub.Sweep

open Interleaving

/-! ## Histories -/

/-- What becomes of a request when its client goes away: a sweep that it has started goes on in a
task of its own, and anything else is given up. -/
def left (app : Http.App) (r : Http.Request) (t : Interleaving.Task Caller.Reply) :
    Interleaving.Task Caller.Reply :=
  if app.triggers r then t else .line ⟨.crash, false⟩

/-- A sweep has taken the lock and is not over. -/
def Runs (ms : List (Move Caller)) (s : System Caller Caller.Reply) (i : Nat) : Prop :=
  ⟨.lockSweeps, true⟩ ∈ past ⟨i, none⟩ ms ∧
    ∃ t, s.threads[i]? = some t ∧ ¬ t.task.rest.IsOver

/-- A run in which clients and callers may go away. -/
inductive History (app : Http.App) (w : Shared) :
    List (Move Caller) → System Caller Caller.Reply → Prop
  | start : History app w [] (.start w)
  | quiet {ms : List (Move Caller)} {s s' : System Caller Caller.Reply} (h : History app w ms s)
      (step : Step (Caller.flow app) s none s') : History app w ms s'
  | move {ms : List (Move Caller)} {m : Move Caller} {s s' : System Caller Caller.Reply}
      (h : History app w ms s) (step : Step (Caller.flow app) s (some m) s') :
      History app w (ms ++ [m]) s'
  /-- The client of a request goes away. -/
  | left {ms : List (Move Caller)} {s : System Caller Caller.Reply} {i : Nat} {r : Http.Request}
      {t : Interleaving.Task Caller.Reply} (h : History app w ms s)
      (at_i : s.threads[i]? = some ⟨.request r, t⟩) :
      History app w ms ⟨s.shared, s.threads.set i ⟨.request r, left app r t⟩⟩
  /-- A caller drops its sweep, and the lock that it holds with it. -/
  | dropped {ms : List (Move Caller)} {s : System Caller Caller.Reply} {i : Nat} {o : Caller}
      {t : Interleaving.Task Caller.Reply} (h : History app w ms s)
      (at_i : s.threads[i]? = some ⟨o, t⟩) (direct : ∀ r, o ≠ .request r) (runs : Runs ms s i) :
      History app w ms
        ⟨{ s.shared with sweeping := false }, s.threads.set i ⟨o, .line ⟨.crash, false⟩⟩⟩
  /-- A caller gives up before it has tried. -/
  | withdrawn {ms : List (Move Caller)} {s : System Caller Caller.Reply} {i : Nat} {o : Caller}
      (h : History app w ms s) (at_i : s.threads[i]? = some ⟨o, .begin (o.flow app)⟩)
      (direct : ∀ r, o ≠ .request r) :
      History app w ms ⟨s.shared, s.threads.set i ⟨o, .line ⟨.crash, false⟩⟩⟩

/-! ## How far an operation is -/

variable {app : Http.App} {w w' : Shared} {ms ms' : List (Move Caller)} {m : Move Caller}
  {s s' : System Caller Caller.Reply} {i j : Nat} {k : Option Nat} {o : Caller}
  {t t' : Interleaving.Task Caller.Reply}

def Took (ms : List (Move Caller)) (i : Nat) : Prop :=
  ⟨.lockSweeps, true⟩ ∈ past ⟨i, none⟩ ms ∧ ⟨.lockSweeps, false⟩ ∉ past ⟨i, none⟩ ms

/-- How far an operation is, which may have nothing to do with sweeps. -/
inductive Stage (app : Http.App) (ms : List (Move Caller)) (i : Nat) :
    Caller → Interleaving.Task Caller.Reply → Prop
  | other {o : Caller} {l : Line Caller.Reply} (other : o.tries app = false)
      (plain : l.rest.Only IsPlain) (apart : ∀ b, ⟨.lockSweeps, b⟩ ∉ past ⟨i, none⟩ ms) :
      Stage app ms i o (.line l)
  | fresh {o : Caller} (tries : o.tries app = true) (idle : ∀ m ∈ ms, m.actor.thread ≠ i) :
      Stage app ms i o (.begin (o.flow app))
  | withdrawn {o : Caller} (apart : ∀ b, ⟨.lockSweeps, b⟩ ∉ past ⟨i, none⟩ ms) :
      Stage app ms i o (.line ⟨.crash, false⟩)
  | refused {o : Caller} (tries : o.tries app = true)
      (some_try : ⟨.lockSweeps, false⟩ ∈ past ⟨i, none⟩ ms)
      (only : ∀ m ∈ ms, m.actor.thread = i →
        m.actor = ⟨i, none⟩ ∧ m.deed = .answered ⟨.lockSweeps, false⟩) :
      Stage app ms i o (.begin (.done o.refusal))
  | holding {o : Caller} {t : Interleaving.Task Caller.Reply} (tries : o.tries app = true)
      (took : Took ms i) (holds : t.Holds app.sweeps) : Stage app ms i o t
  | finished {o : Caller} {t : Interleaving.Task Caller.Reply} (tries : o.tries app = true)
      (took : Took ms i) (finished : t.rest.IsOver) : Stage app ms i o t

/-- An operation of this trace that runs. -/
def Live (ms : List (Move Caller)) (i : Nat) (t : Interleaving.Task Caller.Reply) : Prop :=
  ⟨.lockSweeps, true⟩ ∈ past ⟨i, none⟩ ms ∧ ¬ t.rest.IsOver

theorem Stage.append_of_ne (h : Stage app ms i o t) (ne : m.actor.thread ≠ i) :
    Stage app (ms ++ [m]) i o t := by
  have same : past ⟨i, none⟩ (ms ++ [m]) = past ⟨i, none⟩ ms :=
    past_append_other ms (fun actor => ne (by rw [actor])) _ _ _ _
  cases h with
  | other other plain apart => exact .other other plain fun b => by rw [same]; exact apart b
  | fresh tries idle =>
    refine .fresh tries fun m' hm' => ?_
    rcases List.mem_append.mp hm' with hm' | hm'
    · exact idle m' hm'
    · rw [List.mem_singleton.mp hm']
      exact ne
  | withdrawn apart => exact .withdrawn fun b => by rw [same]; exact apart b
  | refused tries some_try only =>
    refine .refused tries (by rw [same]; exact some_try) fun m' hm' thread => ?_
    rcases List.mem_append.mp hm' with hm' | hm'
    · exact only m' hm' thread
    · rw [List.mem_singleton.mp hm'] at thread
      exact absurd thread ne
  | holding tries took holds => exact .holding tries (by unfold Took; rw [same]; exact took) holds
  | finished tries took finished =>
    exact .finished tries (by unfold Took; rw [same]; exact took) finished

/-- A lock is held just as long as somebody runs, and no two of them do. -/
structure Alone (held : Bool) (runs : Nat → Prop) : Prop where
  held : held = true ↔ ∃ i, runs i
  one : ∀ i j, runs i → runs j → i = j

/-- What a step makes of the lock: nothing, or it takes it for an operation that runs from then on,
or it gives it back for one that ran until then. -/
def Turns (before : Bool) (live : Prop) (after : Bool) (live' : Prop) : Prop :=
  (after = before ∧ (live' ↔ live)) ∨ (before = false ∧ after = true ∧ live') ∨
    (live ∧ after = false ∧ ¬ live')

theorem Alone.turn {before after : Bool} {runs runs' : Nat → Prop} (h : Alone before runs)
    (apart : ∀ j, j ≠ i → (runs' j ↔ runs j)) (turns : Turns before (runs i) after (runs' i)) :
    Alone after runs' := by
  rcases turns with ⟨rfl, same⟩ | ⟨rfl, rfl, live⟩ | ⟨live, rfl, dead⟩
  · have all : runs' = runs := by
      funext j
      by_cases hj : j = i
      · rw [hj]
        exact propext same
      · exact propext (apart j hj)
    rw [all]
    exact h
  · have only : ∀ j, runs' j → j = i := by
      intro j live'
      by_contra hj
      cases h.held.mpr ⟨j, (apart j hj).mp live'⟩
    exact ⟨iff_of_true rfl ⟨i, live⟩, fun j k hj hk => (only j hj).trans (only k hk).symm⟩
  · have nobody : ∀ j, ¬ runs' j := by
      intro j live'
      by_cases hj : j = i
      · exact dead (hj ▸ live')
      · exact hj (h.one j i ((apart j hj).mp live') live)
    exact ⟨iff_of_false Bool.false_ne_true fun ⟨j, live'⟩ => nobody j live',
      fun j k hj _ => absurd hj (nobody j)⟩

theorem mem_past_of_leavesLock {a : Actor} {d : Deed} (leaves : LeavesLock d.request) (b : Bool) :
    ⟨.lockSweeps, b⟩ ∈ past a (ms ++ [⟨⟨i, k⟩, o, w, d, w'⟩]) ↔ ⟨.lockSweeps, b⟩ ∈ past a ms := by
  rw [past_append, List.mem_append]
  refine ⟨?_, Or.inl⟩
  rintro (before | here)
  · exact before
  · obtain ⟨m, hm, -, deed⟩ := mem_past.mp here
    rw [List.mem_singleton.mp hm] at deed
    cases deed
    exact absurd rfl leaves.1

theorem idle_past (idle : ∀ m ∈ ms, m.actor.thread ≠ i) : past ⟨i, none⟩ ms = [] :=
  past_eq_nil fun m hm actor => idle m hm (by rw [actor])

/-- A move takes an operation from stage to stage, and the lock with it. -/
structure Advances (app : Http.App) (ms : List (Move Caller)) (m : Move Caller)
    (t t' : Interleaving.Task Caller.Reply) : Prop where
  stage : Stage app (ms ++ [m]) m.actor.thread m.operation t'
  ids : m.after.subscriptions.UniqueIds
  turns : Turns m.before.sweeping (Live ms m.actor.thread t) m.after.sweeping
    (Live (ms ++ [m]) m.actor.thread t')

theorem Advances.of_fresh {d : Deed} (tries : o.tries app = true)
    (idle : ∀ m ∈ ms, m.actor.thread ≠ i) (ids : w.subscriptions.UniqueIds)
    (step : (Interleaving.Task.begin (o.flow app)).Step w k d w' t') :
    Advances app ms ⟨⟨i, k⟩, o, w, d, w'⟩ (.begin (o.flow app)) t' := by
  obtain ⟨next, flow, refused, taken⟩ := Caller.flow_of_tries tries
  have none_before := idle_past idle
  rw [flow] at step ⊢
  cases step with
  | line step =>
    cases step with
    | call leaves => exact leaves.elim
    | @answer _ _ _ b _ answers single awaited =>
      obtain ⟨rfl, rfl⟩ := answers
      have own := past_append_own ms ⟨i, none⟩ o w { w with sweeping := true }
        (.answered ⟨.lockSweeps, !w.sweeping⟩)
      rw [none_before, List.nil_append] at own
      have untaken : ¬ Live ms i (.begin (.ask .lockSweeps next)) := by
        rintro ⟨taken, -⟩
        rw [none_before] at taken
        cases taken
      cases held : w.sweeping with
      | true =>
        -- Somebody holds the lock: the flow ends with the refusal.
        rw [held] at own
        refine ⟨?_, ids, Or.inl ⟨held.symm, iff_of_false (fun live => live.2 ?_) untaken⟩⟩
        · show Stage app _ i o (.line ⟨next false, false⟩)
          rw [refused]
          refine .refused tries (by rw [own]; exact List.mem_singleton_self _) ?_
          intro m hm thread
          rcases List.mem_append.mp hm with hm | hm
          · exact absurd thread (idle m hm)
          · rw [List.mem_singleton.mp hm]
            exact ⟨rfl, rfl⟩
        · show (next false).IsOver
          rw [refused]
          trivial
      | false =>
        rw [held, Bool.not_false] at own
        have took : Took (ms ++ [⟨⟨i, none⟩, o, w, .answered ⟨.lockSweeps, true⟩,
            { w with sweeping := true }⟩]) i := by
          unfold Took
          rw [own]
          simp [Deed.exchange?]
        have holds : (Interleaving.Task.line ⟨next true, false⟩).Holds app.sweeps := taken
        exact ⟨.holding tries took holds, ids,
          Or.inr (Or.inl ⟨held, rfl, took.1, holds.not_over⟩)⟩

theorem Advances.of_holding {d : Deed} (tries : o.tries app = true) (took : Took ms i)
    (holds : t.Holds app.sweeps) (ids : w.subscriptions.UniqueIds) (step : t.Step w k d w' t') :
    Advances app ms ⟨⟨i, k⟩, o, w, d, w'⟩ t t' := by
  have live : Live ms i t := ⟨took.1, holds.not_over⟩
  rcases holds.step step ids with ⟨holds', aside⟩ | ⟨rfl, rfl, finished, given, ids'⟩
  · have took' : Took (ms ++ [⟨⟨i, k⟩, o, w, d, w'⟩]) i := by
      unfold Took
      rw [mem_past_of_leavesLock aside.request, mem_past_of_leavesLock aside.request]
      exact took
    refine ⟨.holding tries took' holds', aside.ids, Or.inl ⟨aside.sweeping, ?_⟩⟩
    exact iff_of_true ⟨took'.1, holds'.not_over⟩ live
  · have took' : Took (ms ++ [⟨⟨i, none⟩, o, w, .answered ⟨.unlockSweeps, ()⟩, w'⟩]) i := by
      unfold Took
      rw [past_append_own]
      simpa [Deed.exchange?, Took] using took
    exact ⟨.finished tries took' finished, ids',
      Or.inr (Or.inr ⟨live, given, fun live' => live'.2 finished⟩)⟩

theorem Stage.step {d : Deed} (h : Stage app ms i o t) (ids : w.subscriptions.UniqueIds)
    (step : t.Step w k d w' t') : Advances app ms ⟨⟨i, k⟩, o, w, d, w'⟩ t t' := by
  cases h with
  | @other l other plain apart =>
    cases step with
    | line step =>
      obtain ⟨request, rest⟩ := step.only ids plain
      have aside := step.aside ids request.leavesLock
      have apart' : ∀ b, ⟨.lockSweeps, b⟩ ∉ past ⟨i, none⟩ (ms ++ [⟨⟨i, none⟩, o, w, d, w'⟩]) :=
        fun b => by rw [mem_past_of_leavesLock aside.request]; exact apart b
      refine ⟨.other other rest apart', aside.ids, Or.inl ⟨aside.sweeping, ?_⟩⟩
      exact iff_of_false (fun live => apart' true live.1) fun live => apart true live.1
  | fresh tries idle => exact .of_fresh tries idle ids step
  | withdrawn | refused =>
    -- What is over takes no step.
    cases step with
    | line step => cases step
  | holding tries took holds => exact .of_holding tries took holds ids step
  | finished tries took finished =>
    exfalso
    cases step with
    | line step => cases step <;> exact finished
    | _ => exact finished

theorem Stage.quiet (h : Stage app ms i o t) (step : t.Quiet t') :
    Stage app ms i o t' ∧ (Live ms i t' ↔ Live ms i t) := by
  cases h with
  | other other plain apart =>
    cases step with
    | fork => exact plain.1.elim
  | fresh tries idle =>
    obtain ⟨next, flow, -⟩ := Caller.flow_of_tries tries
    rw [flow] at step
    cases step
  | withdrawn | refused => cases step
  | holding tries took holds =>
    have holds' := holds.quiet step
    exact ⟨.holding tries took holds', iff_of_true ⟨took.1, holds'.not_over⟩
      ⟨took.1, holds.not_over⟩⟩
  | finished tries took finished =>
    exfalso
    cases step <;> exact finished

/-! ## The whole system -/

/-- The lock is taken just as long as some sweep runs, and no two of them do. -/
structure Sound (app : Http.App) (ms : List (Move Caller)) (s : System Caller Caller.Reply) :
    Prop where
  ids : s.shared.subscriptions.UniqueIds
  known : ∀ m ∈ ms, m.actor.thread < s.threads.length
  stages : ∀ (i : Nat) o t, s.threads[i]? = some ⟨o, t⟩ → Stage app ms i o t
  alone : Alone s.shared.sweeping (Runs ms s)

theorem runs_iff (at_i : s.threads[i]? = some ⟨o, t⟩) : Runs ms s i ↔ Live ms i t := by
  constructor
  · rintro ⟨taken, u, at_i', unended⟩
    rw [at_i] at at_i'
    cases at_i'
    exact ⟨taken, unended⟩
  · rintro ⟨taken, unended⟩
    exact ⟨taken, _, at_i, unended⟩

theorem Sound.set (h : Sound app ms s) (at_i : s.threads[i]? = some ⟨o, t⟩)
    (ids : w.subscriptions.UniqueIds) (known : ∀ m ∈ ms', m.actor.thread < s.threads.length)
    (stage : Stage app ms' i o t')
    (others : ∀ j o t, j ≠ i → Stage app ms j o t → Stage app ms' j o t)
    (pasts : ∀ j, j ≠ i → past ⟨j, none⟩ ms' = past ⟨j, none⟩ ms)
    (turns : Turns s.shared.sweeping (Live ms i t) w.sweeping (Live ms' i t')) :
    Sound app ms' ⟨w, s.threads.set i ⟨o, t'⟩⟩ := by
  obtain ⟨inside, -⟩ := List.getElem?_eq_some_iff.mp at_i
  refine ⟨ids, by simpa using known, ?_, h.alone.turn (i := i) ?_ ?_⟩
  · intro j o' u at_j
    rcases getElem?_set_cases at_i at_j with ⟨rfl, same⟩ | ⟨ne, at_j⟩
    · cases same
      exact stage
    · exact others j o' u ne (h.stages j o' u at_j)
  · intro j ne
    unfold Runs
    rw [pasts j ne]
    simp only [List.getElem?_set_ne (Ne.symm ne)]
  · rw [runs_iff at_i, runs_iff (List.getElem?_set_self inside)]
    exact turns

theorem Sound.stay (h : Sound app ms s) (at_i : s.threads[i]? = some ⟨o, t⟩)
    (ids : w.subscriptions.UniqueIds) (stage : Stage app ms i o t')
    (turns : Turns s.shared.sweeping (Live ms i t) w.sweeping (Live ms i t')) :
    Sound app ms ⟨w, s.threads.set i ⟨o, t'⟩⟩ :=
  h.set at_i ids h.known stage (fun _ _ _ _ stage => stage) (fun _ _ => rfl) turns

theorem Sound.start (ids : w.subscriptions.UniqueIds) (free : w.sweeping = false) :
    Sound app [] (.start w) where
  ids := ids
  known := fun _ hm => absurd hm List.not_mem_nil
  stages := fun i o t at_i => by simp [System.start] at at_i
  alone := by
    have nobody : ∀ i, ¬ Runs [] (.start w) i := by
      rintro i ⟨taken, -⟩
      cases taken
    refine ⟨iff_of_false ?_ ?_, fun i j runs _ => absurd runs (nobody i)⟩
    · show ¬ w.sweeping = true
      rw [free]
      exact Bool.false_ne_true
    · rintro ⟨i, runs⟩
      exact nobody i runs

theorem Sound.begin (h : Sound app ms s) (o : Caller) :
    Sound app ms ⟨s.shared, s.threads ++ [⟨o, .begin (o.flow app)⟩]⟩ := by
  have idle : ∀ m ∈ ms, m.actor.thread ≠ s.threads.length :=
    fun m hm => Nat.ne_of_lt (h.known m hm)
  have runs : Runs ms ⟨s.shared, s.threads ++ [⟨o, .begin (o.flow app)⟩]⟩ = Runs ms s := by
    funext i
    unfold Runs
    by_cases hi : i < s.threads.length
    · simp only [List.getElem?_append_left hi]
    · -- Nothing was done in the name of a thread that did not exist.
      have none_before : past ⟨i, none⟩ ms = [] :=
        idle_past fun m hm same => hi (by rw [← same]; exact h.known m hm)
      rw [none_before]
      simp
  refine ⟨h.ids, ?_, ?_, by rw [runs]; exact h.alone⟩
  · intro m hm
    have before := h.known m hm
    simp only [List.length_append, List.length_singleton]
    omega
  · intro i o' t at_i
    simp only at at_i
    by_cases hi : i < s.threads.length
    · rw [List.getElem?_append_left hi] at at_i
      exact h.stages i o' t at_i
    · rw [List.getElem?_append_right (by omega), List.getElem?_singleton] at at_i
      split at at_i
      case isFalse => cases at_i
      case isTrue hz =>
        cases at_i
        obtain rfl : i = s.threads.length := by omega
        cases tries : o.tries app with
        | true => exact .fresh tries idle
        | false =>
          refine .other tries (Caller.plain_of_not_tries tries) fun b => ?_
          rw [idle_past idle]
          exact List.not_mem_nil

theorem Sound.quiet (h : Sound app ms s) (step : Step (Caller.flow app) s none s') :
    Sound app ms s' := by
  cases step with
  | begin o => exact h.begin o
  | shutDown => exact ⟨h.ids, h.known, h.stages, h.alone⟩
  | quiet at_i step =>
    obtain ⟨stage, same⟩ := (h.stages _ _ _ at_i).quiet step
    exact h.stay at_i h.ids stage (Or.inl ⟨rfl, same⟩)

theorem Sound.move (h : Sound app ms s) (step : Step (Caller.flow app) s (some m) s') :
    Sound app (ms ++ [m]) s' := by
  cases step with
  | @move i o t t' k d w at_i step =>
    obtain ⟨stage, ids, turns⟩ := (h.stages i o t at_i).step h.ids step
    refine h.set at_i ids ?_ stage (fun j o u ne stage => stage.append_of_ne (Ne.symm ne)) ?_ turns
    · intro m hm
      rcases List.mem_append.mp hm with hm | hm
      · exact h.known m hm
      · rw [List.mem_singleton.mp hm]
        exact (List.getElem?_eq_some_iff.mp at_i).1
    · intro j ne
      exact past_append_other ms (fun same => ne (congrArg Actor.thread same).symm) _ _ _ _

theorem Sound.left {r : Http.Request} (h : Sound app ms s)
    (at_i : s.threads[i]? = some ⟨.request r, t⟩) :
    Sound app ms ⟨s.shared, s.threads.set i ⟨.request r, Sweep.left app r t⟩⟩ := by
  have stage := h.stages i _ t at_i
  unfold Sweep.left
  cases triggers : app.triggers r with
  | true => exact h.stay at_i h.ids stage (Or.inl ⟨rfl, Iff.rfl⟩)
  | false =>
    have other : (Caller.request r).tries app ≠ true := by
      show app.triggers r ≠ true
      rw [triggers]
      exact Bool.false_ne_true
    cases stage with
    | other other plain apart =>
      refine h.stay at_i h.ids (.other other trivial apart) (Or.inl ⟨rfl, ?_⟩)
      exact iff_of_false (fun live => apart true live.1) fun live => apart true live.1
    | withdrawn apart =>
      exact h.stay at_i h.ids (.withdrawn apart) (Or.inl ⟨rfl, Iff.rfl⟩)
    | fresh tries | refused tries | holding tries | finished tries => exact absurd tries other

theorem Sound.dropped (h : Sound app ms s) (at_i : s.threads[i]? = some ⟨o, t⟩)
    (runs : Runs ms s i) :
    Sound app ms
      ⟨{ s.shared with sweeping := false }, s.threads.set i ⟨o, .line ⟨.crash, false⟩⟩⟩ := by
  have live := (runs_iff at_i).mp runs
  obtain ⟨tries, took⟩ : o.tries app = true ∧ Took ms i := by
    cases h.stages i o t at_i with
    | other _ _ apart | withdrawn apart => exact absurd live.1 (apart true)
    | fresh tries idle =>
      have taken := live.1
      rw [idle_past idle] at taken
      cases taken
    | refused tries some_try only => exact absurd trivial live.2
    | holding tries took holds => exact ⟨tries, took⟩
    | finished tries took finished => exact absurd finished live.2
  exact h.stay at_i h.ids (.finished tries took trivial)
    (Or.inr (Or.inr ⟨live, rfl, fun dead => dead.2 trivial⟩))

theorem Sound.withdrawn (h : Sound app ms s)
    (at_i : s.threads[i]? = some ⟨o, .begin (o.flow app)⟩) (direct : ∀ r, o ≠ .request r) :
    Sound app ms ⟨s.shared, s.threads.set i ⟨o, .line ⟨.crash, false⟩⟩⟩ := by
  have tries : o.tries app = true := by
    cases o with
    | tick | call => rfl
    | request r => exact absurd rfl (direct r)
  obtain ⟨next, flow, -⟩ := Caller.flow_of_tries tries
  have untaken : ∀ b, ⟨.lockSweeps, b⟩ ∉ past ⟨i, none⟩ ms := by
    have stage := h.stages i _ _ at_i
    rw [flow] at stage
    generalize task_eq : Interleaving.Task.begin (Flow.ask .lockSweeps next) = task at stage
    cases stage with
    | other _ _ apart | withdrawn apart => exact apart
    | fresh tries idle =>
      intro b
      rw [idle_past idle]
      exact List.not_mem_nil
    | refused => cases task_eq
    | holding tries took holds =>
      cases task_eq
      rcases holds with ⟨other, -⟩ | ⟨locked, -⟩
      · cases other
      · exact locked.elim
    | finished tries took finished =>
      cases task_eq
      exact finished.elim
  refine h.stay at_i h.ids (.withdrawn untaken) (Or.inl ⟨rfl, ?_⟩)
  exact iff_of_false (fun live => untaken true live.1) fun live => untaken true live.1

theorem History.sound (h : History app w ms s) (ids : w.subscriptions.UniqueIds)
    (free : w.sweeping = false) : Sound app ms s := by
  induction h with
  | start => exact .start ids free
  | quiet h step ih => exact ih.quiet step
  | move h step ih => exact ih.move step
  | left h at_i ih => exact ih.left at_i
  | dropped h at_i direct runs ih => exact ih.dropped at_i runs
  | withdrawn h at_i direct ih => exact ih.withdrawn at_i direct

/-! ## Calls in flight -/

def call? : Request → Option Hub.Request
  | .hub _ p | .hubUnlessStopped p => some p
  | _ => none

/-- A call of a sweep that has left and is not answered yet. -/
inductive InFlight (app : Http.App) (s : System Caller Caller.Reply) : Actor → Hub.Request → Prop
  | line {i : Nat} {o : Caller} {q : Request} {next : q.Answer → Flow Caller.Reply}
      {p : Hub.Request} (at_i : s.threads[i]? = some ⟨o, .line ⟨.ask q next, true⟩⟩)
      (tries : o.tries app = true) (call : call? q = some p) : InFlight app s ⟨i, none⟩ p
  | renewal {i k : Nat} {o : Caller} {b : Batch} {after : Option (List Renewal) → Flow Caller.Reply}
      {q : Request} {next : q.Answer → Flow Renewal} {p : Hub.Request}
      (at_i : s.threads[i]? = some ⟨o, .renewing b after⟩) (tries : o.tries app = true)
      (under : b.begun[k]? = some (some ⟨.ask q next, true⟩)) (call : call? q = some p) :
      InFlight app s ⟨i, some k⟩ p

inductive About (s : System Caller Caller.Reply) : Actor → Subscription → Prop
  | row {i k : Nat} {o : Caller} {b : Batch} {after : Option (List Renewal) → Flow Caller.Reply}
      {r : Subscription} (at_i : s.threads[i]? = some ⟨o, .renewing b after⟩)
      (row : b.rows[k]? = some r) : About s ⟨i, some k⟩ r

theorem Sound.holds (h : Sound app ms s) {b : Batch}
    {after : Option (List Renewal) → Flow Caller.Reply}
    (at_i : s.threads[i]? = some ⟨o, .renewing b after⟩) :
    b.Guarded app.sweeps ∧ Runs ms s i := by
  generalize task_eq : Interleaving.Task.renewing b after = task at at_i
  cases h.stages i o task at_i with
  | other | fresh | withdrawn | refused => cases task_eq
  | holding tries took holds =>
    cases task_eq
    exact ⟨holds.1, took.1, _, at_i, id⟩
  | finished tries took finished =>
    cases task_eq
    exact finished.elim

theorem Sound.of_inFlight (h : Sound app ms s) {a : Actor} {p : Hub.Request}
    (call : InFlight app s a p) :
    Runs ms s a.thread ∧ ∃ r, About s a r ∧ p = r.hubRequest := by
  cases call with
  | @line i o q next p at_i tries call =>
    -- The hub is called by renewals only.
    exfalso
    generalize task_eq : Interleaving.Task.line ⟨Flow.ask q next, true⟩ = task at at_i
    cases h.stages i o task at_i with
    | other other =>
      rw [tries] at other
      cases other
    | fresh tries idle =>
      obtain ⟨next', flow, -⟩ := Caller.flow_of_tries tries
      rw [flow] at task_eq
      cases task_eq
    | withdrawn | refused => cases task_eq
    | holding tries took holds =>
      cases task_eq
      rcases holds with ⟨rfl, -⟩ | ⟨locked, -⟩
      · cases call
      · cases q with
        | hub | hubUnlessStopped => exact locked
        | _ => cases call
    | finished tries took finished =>
      cases task_eq
      exact finished
  | @renewal i k o b after q next p at_i tries under call =>
    obtain ⟨guarded, runs⟩ := h.holds at_i
    obtain ⟨r, row, only⟩ := guarded.lines k _ under
    refine ⟨runs, r, .row at_i row, ?_⟩
    have asked := only.1
    cases q with
    | hubUnlessStopped p' =>
      cases call
      exact asked
    | hub => exact asked.elim
    | _ => cases call

theorem Sound.apart (h : Sound app ms s) {a a' : Actor} {r r' : Subscription} (about : About s a r)
    (about' : About s a' r') (same : r.id = r'.id) : a = a' := by
  cases about with
  | @row i k o b after r at_i row =>
    cases about' with
    | @row i' k' o' b' after' r' at_i' row' =>
      obtain ⟨guarded, runs⟩ := h.holds at_i
      obtain rfl := h.alone.one i i' runs (h.holds at_i').2
      rw [at_i] at at_i'
      cases at_i'
      have place := findIdx?_of_nodup guarded.nodup row
      rw [same, findIdx?_of_nodup guarded.nodup row'] at place
      rw [Option.some.inj place]

theorem places_le {begun : List (Option (Line Renewal))} {places : List Nat}
    (nodup : places.Nodup) (under : ∀ k ∈ places, ∃ l, begun[k]? = some (some l)) :
    places.length ≤ begun.countP (·.isSome) := by
  have within : places ⊆ (begun.zipIdx.filter (·.1.isSome)).map (·.2) := by
    intro k hk
    obtain ⟨l, at_k⟩ := under k hk
    refine List.mem_map.mpr ⟨(some l, k), List.mem_filter.mpr ⟨?_, rfl⟩, rfl⟩
    exact List.mk_mem_zipIdx_iff_getElem?.mpr at_k
  have short := (List.Nodup.subperm nodup within).length_le
  rw [List.length_map, ← List.countP_eq_length_filter] at short
  rw [← List.zipIdx_map_fst 0 begun, List.countP_map]
  exact short

theorem Sound.width (h : Sound app ms s) {calls : List Actor} (nodup : calls.Nodup)
    (flying : ∀ a ∈ calls, ∃ p, InFlight app s a p) :
    calls.length ≤ max app.sweeps.concurrency 1 := by
  cases calls with
  | nil => exact Nat.zero_le _
  | cons first rest =>
    obtain ⟨p, call⟩ := flying first List.mem_cons_self
    obtain ⟨runs, r, about, -⟩ := h.of_inFlight call
    cases about with
    | @row i k o b after r at_i row =>
      obtain ⟨guarded, -⟩ := h.holds at_i
      -- All of them belong to the one sweep that runs, each to a place of its batch.
      have each : ∀ a ∈ (⟨i, some k⟩ :: rest : List Actor),
          ∃ (k : Nat) (l : Line Renewal), a = ⟨i, some k⟩ ∧ b.begun[k]? = some (some l) := by
        intro a ha
        obtain ⟨p', call'⟩ := flying a ha
        have one := h.alone.one _ _ (h.of_inFlight call').1 runs
        cases call' with
        | line at_j tries call =>
          cases one
          rw [at_i] at at_j
          cases at_j
        | renewal at_j tries under call =>
          cases one
          rw [at_i] at at_j
          cases at_j
          exact ⟨_, _, rfl, under⟩
      have places : ((⟨i, some k⟩ :: rest : List Actor).map fun a => a.renewal.getD 0).length ≤
          b.underWay := places_le ?_ ?_
      · rw [List.length_map] at places
        have width := guarded.width
        rw [guarded.limit] at width
        exact Nat.le_trans places width
      · refine (List.nodup_map_iff_inj_on nodup).mpr ?_
        intro a ha a' ha' same
        obtain ⟨k, -, rfl, -⟩ := each a ha
        obtain ⟨k', -, rfl, -⟩ := each a' ha'
        simp only [Option.getD_some] at same
        rw [same]
      · intro place hp
        obtain ⟨a, ha, rfl⟩ := List.mem_map.mp hp
        obtain ⟨k, l, rfl, under⟩ := each a ha
        exact ⟨l, under⟩

/-! ## Attempts -/

theorem Sound.told (h : Sound app ms s) (step : Step (Caller.flow app) s (some m) s') {b : Bool}
    (deed : m.deed = .answered ⟨.lockSweeps, b⟩) : b = true ↔ ∀ j, ¬ Runs ms s j := by
  obtain ⟨before, -, allowed⟩ := step.allowed
  have answer : b = !m.before.sweeping := (allowed.answered deed).1
  rw [answer, before, Bool.not_eq_true', ← not_exists, ← h.alone.held, Bool.not_eq_true]

theorem Sound.gets (h : Sound app ms s) (nobody : ∀ j, ¬ Runs ms s j)
    (at_i : s.threads[i]? = some ⟨o, .begin (o.flow app)⟩) (tries : o.tries app = true) :
    ∃ m s', Step (Caller.flow app) s (some m) s' ∧ m.actor = ⟨i, none⟩ ∧
      m.deed = .answered ⟨.lockSweeps, true⟩ ∧ Runs (ms ++ [m]) s' i := by
  obtain ⟨next, flow, -, returns⟩ := Caller.flow_of_tries tries
  have free : s.shared.sweeping = false := by
    rw [← Bool.not_eq_true, h.alone.held]
    rintro ⟨j, runs⟩
    exact nobody j runs
  rw [flow] at at_i
  have step : Step (Caller.flow app) s _ _ := Step.answer at_i true
    (show s.shared.Answers { s.shared with sweeping := true } .lockSweeps true from
      ⟨by rw [free]; rfl, rfl⟩) id False.elim
  refine ⟨_, _, step, rfl, rfl, ?_, _,
    List.getElem?_set_self (List.getElem?_eq_some_iff.mp at_i).1, ?_⟩
  · rw [past_append_own]
    exact List.mem_append_right _ (List.mem_singleton_self _)
  · have holds : (Interleaving.Task.line ⟨next true, false⟩).Holds app.sweeps := returns
    exact holds.not_over

theorem Sound.refused (h : Sound app ms s)
    (refused : ⟨.lockSweeps, false⟩ ∈ past ⟨i, none⟩ ms) :
    (∀ m ∈ ms, m.actor.thread = i →
      m.actor = ⟨i, none⟩ ∧ m.deed = .answered ⟨.lockSweeps, false⟩) ∧
      ∃ o, s.threads[i]? = some ⟨o, .begin (.done o.refusal)⟩ := by
  obtain ⟨m, hm, actor, -⟩ := mem_past.mp refused
  have known := h.known m hm
  rw [actor] at known
  obtain ⟨⟨o, t⟩, at_i⟩ : ∃ t, s.threads[i]? = some t := ⟨_, List.getElem?_eq_getElem known⟩
  cases h.stages i o t at_i with
  | other _ _ apart | withdrawn apart => exact absurd refused (apart false)
  | fresh tries idle => exact absurd (by rw [actor]) (idle m hm)
  | refused tries some_try only => exact ⟨only, o, at_i⟩
  | holding tries took | finished tries took => exact absurd refused took.2

/-- What holds of the sweeps at any time. -/
structure Exclusive (app : Http.App) (ms : List (Move Caller)) (s : System Caller Caller.Reply) :
    Prop where
  one : ∀ i j, Runs ms s i → Runs ms s j → i = j
  /-- Who asks for the lock is told whether a sweep runs. -/
  told : ∀ m s' b, Step (Caller.flow app) s (some m) s' → m.deed = .answered ⟨.lockSweeps, b⟩ →
    (b = true ↔ ∀ j, ¬ Runs ms s j)
  /-- When no sweep runs, for whatever reason the last one ended, the next one gets the lock. -/
  gets : (∀ j, ¬ Runs ms s j) → ∀ i o, s.threads[i]? = some ⟨o, .begin (o.flow app)⟩ →
    o.tries app = true → ∃ m s', Step (Caller.flow app) s (some m) s' ∧ m.actor = ⟨i, none⟩ ∧
      m.deed = .answered ⟨.lockSweeps, true⟩ ∧ Runs (ms ++ [m]) s' i
  /-- Who was refused has done nothing but to ask for the lock, and is told so. -/
  refused : ∀ i, ⟨.lockSweeps, false⟩ ∈ past ⟨i, none⟩ ms →
    (∀ m ∈ ms, m.actor.thread = i →
      m.actor = ⟨i, none⟩ ∧ m.deed = .answered ⟨.lockSweeps, false⟩) ∧
      ∃ o, s.threads[i]? = some ⟨o, .begin (.done o.refusal)⟩
  /-- A call of a sweep is about a row of its own, while the sweep runs, -/
  calls : ∀ a p, InFlight app s a p →
    Runs ms s a.thread ∧ ∃ r, About s a r ∧ p = r.hubRequest
  /-- about no row there are two of them, -/
  apart : ∀ a a' r r' p p', InFlight app s a p → InFlight app s a' p' → About s a r →
    About s a' r' → r.id = r'.id → a = a'
  /-- and there are not too many. -/
  width : ∀ calls : List Actor, calls.Nodup → (∀ a ∈ calls, ∃ p, InFlight app s a p) →
    calls.length ≤ max app.sweeps.concurrency 1

/-- However sweeps are tried, end and are abandoned, they exclude each other. -/
theorem sweeps_exclude (history : History app w ms s) (ids : w.subscriptions.UniqueIds)
    (free : w.sweeping = false) : Exclusive app ms s := by
  have sound := history.sound ids free
  exact {
    one := sound.alone.one
    told := fun _ _ _ step deed => sound.told step deed
    gets := fun nobody _ _ at_i tries => sound.gets nobody at_i tries
    refused := fun _ refused => sound.refused refused
    calls := fun _ _ call => sound.of_inFlight call
    apart := fun _ _ _ _ _ _ _ _ about about' same => sound.apart about about' same
    width := fun _ nodup flying => sound.width nodup flying }

/-! ## A sample -/

def plainApp : Http.App := ⟨Errand.plainAccess.defaults, ⟨none⟩, plainSettings, "/hook"⟩

/-- A request for a sweep. -/
def plainTrigger : Http.Request := ⟨"POST", "/v1/renewals", [], []⟩

theorem plainApp_triggers : plainApp.triggers plainTrigger = true := by
  decide

/-- A request is refused while a direct call sweeps. The caller drops its sweep, another request
gets the lock, and its client goes away. -/
theorem sweeps_exclude_abandoned :
    ∃ ms s, History plainApp (plainShared 60) ms s ∧
      (plainShared 60).subscriptions.UniqueIds ∧ (plainShared 60).sweeping = false ∧
      ⟨.lockSweeps, false⟩ ∈ past ⟨1, none⟩ ms ∧ Runs ms s 2 ∧ Exclusive plainApp ms s := by
  have direct : Caller.tries plainApp .call = true := rfl
  obtain ⟨first, first_flow, -, first_returns⟩ := Caller.flow_of_tries direct
  have tries : Caller.tries plainApp (.request plainTrigger) = true := plainApp_triggers
  obtain ⟨next, flow, refused, returns⟩ := Caller.flow_of_tries tries
  have h : History plainApp (plainShared 60) [] (.start (plainShared 60)) := .start
  have h := h.quiet (.begin _ .call)
  rw [first_flow] at h
  have h := h.move (Step.answer (i := 0) rfl true (by exact ⟨rfl, rfl⟩) id False.elim)
  have h := h.quiet (.begin _ (.request plainTrigger))
  rw [flow] at h
  have h := h.move (Step.answer (i := 1) rfl false (by exact ⟨rfl, rfl⟩) id False.elim)
  -- The caller is dropped, and the next request gets the lock.
  have first_holds : (Interleaving.Task.line ⟨first true, false⟩).Holds plainSettings :=
    first_returns
  have h := h.dropped (i := 0) rfl (by simp)
    ⟨List.mem_cons_self, _, rfl, first_holds.not_over⟩
  have h := h.quiet (.begin _ (.request plainTrigger))
  rw [flow] at h
  have h := h.move (Step.answer (i := 2) rfl true (by exact ⟨rfl, rfl⟩) id False.elim)
  have h := h.left (i := 2) rfl
  have holds : (Interleaving.Task.line ⟨next true, false⟩).Holds plainSettings := returns
  have unmoved : left plainApp plainTrigger (.line ⟨next true, false⟩) =
      .line ⟨next true, false⟩ := if_pos plainApp_triggers
  refine ⟨_, _, h, plainShared_uniqueIds 60, rfl, List.mem_cons_self, ?_,
    sweeps_exclude h (plainShared_uniqueIds 60) rfl⟩
  refine ⟨List.mem_cons_self, _, rfl, ?_⟩
  show ¬ (left plainApp plainTrigger (.line ⟨next true, false⟩)).rest.IsOver
  rw [unmoved]
  exact holds.not_over

end WebSub.Sweep
