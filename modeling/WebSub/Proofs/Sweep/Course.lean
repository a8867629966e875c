import WebSub.Proofs.Interleaving.Tally
import WebSub.Proofs.Subscription.Errand

/-!
# The course of a sweep

Step by step: a sweep takes the lock, reads the clock, looks for the rows that run out, renews them,
marks what has run out unless the shutdown was called for, counts and gives the lock back. The
renewal of a row looks for the shutdown, calls the hub, reads the clock and writes.
-/

namespace WebSub.Sweep

open Interleaving

/-! ## Renewals -/

/-- What becomes of a row by the hub's answer and by the answer of the store to the write. -/
def verdict : Hub.Result → Except Store.Error Subscription → Renewal
  | .ok _, .ok _ => .renewed
  | _, _ => .failed

/-- What a renewal went through, and how it ended. -/
inductive Outcome (s : Subscription) : List Exchange → Renewal → Prop
  | early : Outcome s [⟨.stopped, true⟩] .skipped
  | late : Outcome s [⟨.stopped, false⟩, ⟨.hubUnlessStopped s.hubRequest, none⟩] .skipped
  | tried {result : Hub.Result} {now : Instant} {y : Subscription}
      {a : Except Store.Error Subscription} (change : s.settled result now = .ok y) :
      Outcome s [⟨.stopped, false⟩, ⟨.hubUnlessStopped s.hubRequest, some result⟩, ⟨.now, now⟩,
        ⟨.subscriptions (.update y), some a⟩] (verdict result a)

/-- What a renewal asks for, and after what. -/
def StepsOfRenewal (s : Subscription) (own : List Exchange) : Request → Prop
  | .stopped => own = []
  | .hubUnlessStopped q => q = s.hubRequest ∧ own = [⟨.stopped, false⟩]
  | .now => ∃ result,
    own = [⟨.stopped, false⟩, ⟨.hubUnlessStopped s.hubRequest, some result⟩]
  | .subscriptions (.update y) =>
    ∃ result now, Hears own s result now ∧ s.settled result now = .ok y
  | _ => False

def renewal (s : Subscription) : Conduct Renewal where
  asks := StepsOfRenewal s
  ends := Outcome s
  breaks := Breaks s

theorem keeps_renewal (s : Subscription) : (renewOne s).Keeps (renewal s) [] := by
  refine keeps_ask rfl fun stopped => ?_
  cases stopped with
  | true => exact .early
  | false =>
    refine keeps_ask ⟨rfl, rfl⟩ fun heard => ?_
    match heard with
    | none => exact .late
    | some (.error e) =>
      refine keeps_ask ⟨.error e, rfl⟩ fun now => ?_
      refine keeps_ask ⟨.error e, now, rfl, rfl⟩ fun written => ?_
      match written with
      | none => exact Or.inl ⟨_, List.mem_concat_self⟩
      | some (.ok _) => exact .tried rfl
      | some (.error _) => exact .tried rfl
    | some (.ok response) =>
      refine keeps_ask ⟨.ok response, rfl⟩ fun now => ?_
      show Flow.Keeps _ (((Flow.ofChange (s.markActive now response.leaseSeconds)).bind _).bind _) _
      cases change : s.markActive now response.leaseSeconds with
      | error y => exact Or.inr ⟨.ok response, now, y, rfl, change⟩
      | ok y =>
        have settled : s.settled (.ok response) now = .ok y := change
        refine keeps_ask ⟨.ok response, now, rfl, settled⟩ fun written => ?_
        match written with
        | none => exact Or.inl ⟨_, List.mem_concat_self⟩
        | some (.ok _) => exact .tried settled
        | some (.error _) => exact .tried settled

/-! ## Sweeps -/

/-- A sweep that holds the lock has found some rows. -/
def Found (settings : Settings) (own : List Exchange) (rows : List Subscription) : Prop :=
  ∃ t before, settings.lookahead?.bind t.add? = some before ∧
    own = [⟨.lockSweeps, true⟩, ⟨.now, t⟩,
      ⟨.subscriptions (.findExpiring before settings.batchSize), some (.ok rows)⟩]

/-- The renewals of the rows that a sweep has found were joined. -/
def Joined (settings : Settings) (own : List Exchange) (rows : List Subscription)
    (ended : List Renewal) : Prop :=
  ∃ head, Found settings head rows ∧ own = head ++ [⟨.renewAll settings.width rows, some ended⟩]

/-- How the marking of what has run out goes, and how much it counts. -/
inductive Marking : List Exchange → Nat → Prop
  | stopped : Marking [⟨.stopped, true⟩] 0
  | marked {t : Instant} {n : Nat} :
      Marking [⟨.stopped, false⟩, ⟨.now, t⟩, ⟨.subscriptions (.markLapsed t), some (.ok n)⟩] n
  | fault {t : Instant} {e : Store.Error} :
      Marking [⟨.stopped, false⟩, ⟨.now, t⟩, ⟨.subscriptions (.markLapsed t), some (.error e)⟩] 0

/-- Counting, and giving the lock back. -/
def IsClosing : Request → Prop
  | .count .. | .unlockSweeps => True
  | _ => False

/-- What a sweep went through, and how it ended. -/
inductive Course (settings : Settings) : List Exchange → Except Error Report → Prop
  | refused : Course settings [⟨.lockSweeps, false⟩] (.error .alreadyRunning)
  | unlisted {t before : Instant} {e : Store.Error} {rest : List Exchange}
      (reach : settings.lookahead?.bind t.add? = some before)
      (closing : ∀ x ∈ rest, IsClosing x.request) :
      Course settings ([⟨.lockSweeps, true⟩, ⟨.now, t⟩,
        ⟨.subscriptions (.findExpiring before settings.batchSize), some (.error e)⟩] ++ rest)
        (.error (.listing e))
  | reported {own marks rest : List Exchange} {rows : List Subscription} {ended : List Renewal}
      {lapsed : Nat} (joined : Joined settings own rows ended) (marking : Marking marks lapsed)
      (closing : ∀ x ∈ rest, IsClosing x.request) :
      Course settings (own ++ marks ++ rest) (.ok (.ofRenewals ended lapsed))

/-- What a sweep asks for, and after what. -/
def StepsOfSweep (settings : Settings) (own : List Exchange) : Request → Prop
  | .lockSweeps => own = []
  | .now | .stopped | .count .. | .unlockSweeps => True
  | .subscriptions (.findExpiring before limit) => limit = settings.batchSize ∧
    ∃ t, settings.lookahead?.bind t.add? = some before ∧ own = [⟨.lockSweeps, true⟩, ⟨.now, t⟩]
  | .subscriptions (.markLapsed t) => ∃ head rows ended, Joined settings head rows ended ∧
    own = head ++ [⟨.stopped, false⟩, ⟨.now, t⟩]
  | .renewAll limit rows => limit = settings.width ∧ Found settings own rows
  | _ => False

def course (settings : Settings) : Conduct (Except Error Report) where
  asks := StepsOfSweep settings
  ends := Course settings
  breaks _ := True

/-- The same while the lock is still to be given back. -/
def courseLocked (settings : Settings) : Conduct (Except Error Report) where
  asks := StepsOfSweep settings
  ends own r := Course settings (own ++ [⟨.unlockSweeps, ()⟩]) r
  breaks _ := True

theorem keeps_report {settings : Settings} {own marks : List Exchange} {rows : List Subscription}
    {ended : List Renewal} {lapsed : Nat} (joined : Joined settings own rows ended)
    (marking : Marking marks lapsed) :
    ((countReport (.ofRenewals ended lapsed)).bind fun _ =>
      .done (.ok (.ofRenewals ended lapsed))).Keeps (courseLocked settings) (own ++ marks) := by
  refine keeps_ask trivial fun _ => ?_
  refine keeps_ask trivial fun _ => ?_
  refine keeps_ask trivial fun _ => ?_
  refine keeps_ask trivial fun _ => ?_
  refine keeps_ask trivial fun _ => ?_
  show Course settings _ _
  simp only [List.append_assoc, List.cons_append, List.nil_append]
  rw [← List.append_assoc]
  exact .reported joined marking (by simp [IsClosing])

theorem keeps_sweepLocked (settings : Settings) :
    (sweepLocked settings).Keeps (courseLocked settings) [⟨.lockSweeps, true⟩] := by
  refine keeps_ask trivial fun t => ?_
  show Flow.Keeps _ ((Flow.bind (Flow.ofOption (settings.lookahead?.bind t.add?)) _).bind _) _
  cases reach : settings.lookahead?.bind t.add? with
  | none => trivial
  | some before =>
    refine keeps_ask ⟨rfl, t, reach, rfl⟩ fun listed => ?_
    match listed with
    | none => trivial
    | some (.error e) =>
      refine keeps_ask trivial fun _ => ?_
      exact @Course.unlisted _ _ _ _ [_, _] reach (by simp [IsClosing])
    | some (.ok rows) =>
      have found : Found settings [⟨.lockSweeps, true⟩, ⟨.now, t⟩,
          ⟨.subscriptions (.findExpiring before settings.batchSize), some (.ok rows)⟩] rows :=
        ⟨t, before, reach, rfl⟩
      refine keeps_ask ⟨rfl, found⟩ fun renewals => ?_
      match renewals with
      | none => trivial
      | some ended =>
        have joined : Joined settings _ rows ended := ⟨_, found, rfl⟩
        refine keeps_ask trivial fun stopped => ?_
        cases stopped with
        | true => exact keeps_report joined .stopped
        | false =>
          refine keeps_ask trivial fun t' => ?_
          refine keeps_ask ⟨_, rows, ended, joined, rfl⟩ fun marked => ?_
          match marked with
          | none => trivial
          | some (.ok n) =>
            have report := keeps_report joined (.marked (t := t') (n := n))
            exact report
          | some (.error e) =>
            have report := keeps_report joined (.fault (t := t') (e := e))
            exact report

theorem keeps_sweep (settings : Settings) : (sweep settings).Keeps (course settings) [] := by
  refine keeps_ask rfl fun free => ?_
  cases free with
  | false => exact .refused
  | true =>
    refine keeps_ensuring (c := courseLocked settings) (fun _ _ h => h) ?_ ?_
      (keeps_sweepLocked settings)
    · intro own _
      exact keeps_ask trivial fun _ => trivial
    · intro own r course
      exact keeps_ask trivial fun _ => course

/-! ## Sweeps among other operations -/

/-- The course of each sweep; other operations are free to do anything. -/
def courses : Errand → Conduct Errand.Result
  | .sweep settings =>
    { course settings with ends := fun own r => ∃ x, r = .swept x ∧ Course settings own x }
  | _ => .free

theorem keeps_courses (e : Errand) : e.flow.Keeps (courses e) [] := by
  cases e with
  | sweep settings =>
    exact keeps_bind (c := course settings) (fun _ _ h => h) (fun _ h => h)
      (fun _ x course => ⟨x, rfl, course⟩) (keeps_sweep settings)
  | _ => exact keeps_free _ _

variable {w : Shared} {ms : List (Move Errand)} {s : System Errand Errand.Result}
  {settings : Settings} {i : Nat}

theorem orderly (run : Run Errand.flow (.start w) ms s) : Orderly courses renewal ms s :=
  run.orderly keeps_courses keeps_renewal

theorem booked (run : Run Errand.flow (.start w) ms s) : Booked renewal ms s :=
  run.booked keeps_courses keeps_renewal

theorem Found.unjoined {own : List Exchange} {rows : List Subscription}
    (h : Found settings own rows) : Unjoined own := by
  obtain ⟨t, before, -, rfl⟩ := h
  intro x hx
  simp only [List.mem_cons, List.not_mem_nil, or_false] at hx
  rcases hx with rfl | rfl | rfl <;> exact id

/-- All that an operation does is the sweep's own. -/
def IsSweep (settings : Settings) (i : Nat) (ms : List (Move Errand)) : Prop :=
  ∀ m ∈ ms, m.actor.thread = i → m.operation = .sweep settings

section

variable {pre post : List (Move Errand)} {m : Move Errand}

theorem steps_of_sweep (orderly : Orderly courses renewal ms s) (mine : IsSweep settings i ms)
    (split : ms = pre ++ m :: post) (actor : m.actor = ⟨i, none⟩) :
    StepsOfSweep settings (past ⟨i, none⟩ pre) m.deed.request := by
  have conforms := orderly.moves pre m post split
  have operation := mine m (by rw [split]; simp) (by rw [actor])
  unfold Conforms at conforms
  rw [operation, actor] at conforms
  exact conforms

theorem steps_of_renewal {k : Nat} (orderly : Orderly courses renewal ms s)
    (mine : IsSweep settings i ms) (split : ms = pre ++ m :: post) (actor : m.actor = ⟨i, some k⟩) :
    ∃ rows r, Found settings (past ⟨i, none⟩ pre) rows ∧ rows[k]? = some r ∧
      StepsOfRenewal r (past ⟨i, some k⟩ pre) m.deed.request := by
  have conforms := orderly.moves pre m post split
  have operation := mine m (by rw [split]; simp) (by rw [actor])
  unfold Conforms at conforms
  rw [operation, actor] at conforms
  obtain ⟨limit, rows, r, own, ⟨-, found⟩, row, -, whole, asked⟩ := conforms
  rw [whole found.unjoined] at asked
  exact ⟨rows, r, found, row, asked⟩

/-! ## After the renewals -/

theorem still_of_long (orderly : Orderly courses renewal ms s) (mine : IsSweep settings i ms)
    (split : ms = pre ++ post) (long : 3 < (past ⟨i, none⟩ pre).length) :
    ∀ m ∈ post, ∀ k, m.actor ≠ ⟨i, some k⟩ := by
  intro m hm k actor
  obtain ⟨pre', post', rfl⟩ := List.append_of_mem hm
  rw [← List.append_assoc] at split
  obtain ⟨rows, r, ⟨t, before, -, own⟩, -⟩ := steps_of_renewal orderly mine split actor
  have size := congrArg List.length own
  rw [past_append, List.length_append] at size
  simp at size
  omega

variable {n : Nat} {rows : List Subscription} {a : Option (List Renewal)}

theorem found_of_joined (orderly : Orderly courses renewal ms s) (mine : IsSweep settings i ms)
    (split : ms = pre ++ m :: post) (actor : m.actor = ⟨i, none⟩)
    (deed : m.deed = .answered ⟨.renewAll n rows, a⟩) :
    n = settings.width ∧ Found settings (past ⟨i, none⟩ pre) rows := by
  have steps := steps_of_sweep orderly mine split actor
  rw [deed] at steps
  exact steps

theorem all_of_joined (orderly : Orderly courses renewal ms s) (mine : IsSweep settings i ms)
    (split : ms = pre ++ m :: post) (actor : m.actor = ⟨i, none⟩)
    (deed : m.deed = .answered ⟨.renewAll n rows, a⟩) (k : Nat) :
    past ⟨i, some k⟩ ms = past ⟨i, some k⟩ pre ∧ calls ⟨i, some k⟩ ms = calls ⟨i, some k⟩ pre := by
  have long : 3 < (past ⟨i, none⟩ (pre ++ [m])).length := by
    obtain ⟨-, t, reach, -, own⟩ := found_of_joined orderly mine split actor deed
    rw [past_append, own, ← actor, past_of_answered deed]
    simp
  have after := still_of_long orderly mine (show ms = (pre ++ [m]) ++ post by rw [split]; simp) long
  have idle : ∀ m' ∈ m :: post, m'.actor ≠ ⟨i, some k⟩ := by
    intro m' hm' actor'
    rcases List.mem_cons.mp hm' with rfl | hm'
    · rw [actor] at actor'
      cases actor'
    · exact after m' hm' k actor'
  rw [split, past_append, calls_append, past_eq_nil idle, calls_eq_nil idle, List.append_nil,
    List.append_nil]
  exact ⟨rfl, rfl⟩

/-- When a sweep goes on from its renewals, each row that it has found has its outcome. -/
theorem closed_of_past (run : Run Errand.flow (.start w) ms s) (mine : IsSweep settings i ms)
    {head rest : List Exchange} {ended : List Renewal} (joined : Joined settings head rows ended)
    (own : past ⟨i, none⟩ ms = head ++ rest) :
    ∃ out, Closed renewal rows (fun k => past ⟨i, some k⟩ ms) (fun k => calls ⟨i, some k⟩ ms)
      ended out := by
  obtain ⟨head, found, rfl⟩ := joined
  rw [List.append_assoc, List.singleton_append] at own
  obtain ⟨pre, m, post, split, actor, deed, before⟩ := past_split own
  have joins := (booked run).joins pre m post split settings.width rows ended deed
  rw [actor, before] at joins
  have all := all_of_joined (orderly run) mine split actor deed
  simp only [fun k => (all k).1, fun k => (all k).2]
  exact joins found.unjoined

theorem ofRenewals_perm {out out' : List Renewal} (same : out.Perm out') (lapsed : Nat) :
    Report.ofRenewals out lapsed = .ofRenewals out' lapsed := by
  simp only [Report.ofRenewals, same.count_eq]

theorem called_of_sweep (orderly : Orderly courses renewal ms s) (mine : IsSweep settings i ms)
    (hm : m ∈ ms) (thread : m.actor.thread = i) (allowed : m.Allowed) {p : Request}
    (deed : m.deed = .called p) :
    ∃ k rows r own rest, m.actor = ⟨i, some k⟩ ∧ past ⟨i, none⟩ ms = own ++ rest ∧
      Found settings own rows ∧ rows[k]? = some r ∧ p = .hubUnlessStopped r.hubRequest := by
  have leaves := (allowed.called deed).1
  obtain ⟨pre, post, split⟩ := List.append_of_mem hm
  cases place : m.actor.renewal with
  | none =>
    have actor : m.actor = ⟨i, none⟩ := by rw [← thread, ← place]
    have steps := steps_of_sweep orderly mine split actor
    rw [deed] at steps
    cases p with
    | hub | hubUnlessStopped => exact steps.elim
    | _ => exact leaves.elim
  | some k =>
    have actor : m.actor = ⟨i, some k⟩ := by rw [← thread, ← place]
    obtain ⟨rows, r, found, row, steps⟩ := steps_of_renewal orderly mine split actor
    rw [deed] at steps
    refine ⟨k, rows, r, _, _, actor, by rw [split, past_append], found, row, ?_⟩
    cases p with
    | hubUnlessStopped h => exact congrArg Request.hubUnlessStopped steps.1
    | hub => exact steps.elim
    | _ => exact leaves.elim

theorem breaks_of_joined (run : Run Errand.flow (.start w) ms s) (mine : IsSweep settings i ms)
    (broken : ⟨.renewAll n rows, none⟩ ∈ past ⟨i, none⟩ ms) :
    ∃ own rest k r, past ⟨i, none⟩ ms = own ++ rest ∧ Found settings own rows ∧
      rows[k]? = some r ∧ Breaks r (past ⟨i, some k⟩ ms) := by
  obtain ⟨own, rest, path⟩ := List.append_of_mem broken
  obtain ⟨pre, m, post, split, actor, deed, before⟩ := past_split path
  obtain ⟨-, found⟩ := found_of_joined (orderly run) mine split actor deed
  obtain ⟨s₁, s₂, first, step, -⟩ := run.split split
  have all := all_of_joined (orderly run) mine split actor deed
  cases step with
  | @move j o t t' place d v at_j step =>
    cases actor
    cases step with
    | line step =>
      cases step with
      | call leaves => cases deed
      | answer answers single awaited =>
        cases deed
        exact absurd trivial single
    | joined complete => cases deed
    | @broken b next k calling under =>
      cases deed
      obtain ⟨-, -, children⟩ := (orderly first).tasks i _ at_j
      obtain ⟨r, own', row, -, whole, breaks⟩ := children k _ under
      rw [whole found.unjoined, ← (all k).1] at breaks
      exact ⟨own, _, k, r, path, by rw [← before]; exact found, row, breaks⟩

end

end WebSub.Sweep
