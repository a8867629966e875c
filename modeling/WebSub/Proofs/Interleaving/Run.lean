import WebSub.Proofs.Interleaving.Shared
import WebSub.Sweep.Basic

/-!
# Interleaved runs

Any number of operations side by side: each goes on by single steps, in any order, and a new one
may begin at any time. The renewals of a sweep are begun in the order of their rows, as long as
fewer than the limit are under way, and go on in any order.
-/

namespace WebSub.Interleaving

open Sweep (Renewal)

variable {Op α : Type}

/-! ## One flow -/

structure Line (α : Type) where
  rest : Flow α
  /-- A call to the hub has left and is not answered yet. -/
  calling : Bool

def Line.begin (f : Flow α) : Line α := ⟨f, false⟩

/-- Whether a call to the hub may leave; none leaves after the shutdown was seen. -/
def Leaves (w : Shared) : Request → Prop
  | .hub .. => True
  | .hubUnlessStopped _ => w.stopped = false
  | _ => False

/-- The answers that only the hub can give. -/
def FromHub : (q : Request) → q.Answer → Prop
  | .hub .., _ => True
  | .hubUnlessStopped _, a => a ≠ none
  | _, _ => False

/-- Renewals take many steps, so that they are not answered in one. -/
def IsRenewal : Request → Prop
  | .renewAll .. => True
  | _ => False

inductive Line.Step (w : Shared) : Line α → Deed → Shared → Line α → Prop
  | call {q : Request} {next : q.Answer → Flow α} (h : Leaves w q) :
      Step w ⟨.ask q next, false⟩ (.called q) w ⟨.ask q next, true⟩
  | answer {q : Request} {next : q.Answer → Flow α} {calling : Bool} {a : q.Answer} {w' : Shared}
      (h : w.Answers w' q a) (single : ¬ IsRenewal q) (awaited : FromHub q a → calling = true) :
      Step w ⟨.ask q next, calling⟩ (.answered ⟨q, a⟩) w' ⟨next a, false⟩

/-! ## One operation -/

structure Batch where
  limit : Nat
  rows : List Subscription
  /-- What is left of each renewal that was begun, in the order of the rows; none if it ended. -/
  begun : List (Option (Line Renewal))
  ended : List Renewal

namespace Batch

def start (limit : Nat) (rows : List Subscription) : Batch := ⟨limit, rows, [], []⟩

def underWay (b : Batch) : Nat := b.begun.countP (·.isSome)

def set (b : Batch) (k : Nat) (l : Option (Line Renewal)) : Batch :=
  { b with begun := b.begun.set k l }

/-- All renewals have ended. -/
def IsOver (b : Batch) : Prop := b.begun.length = b.rows.length ∧ b.underWay = 0

end Batch

inductive Task (α : Type) where
  | line (l : Line α)
  | renewing (b : Batch) (next : Option (List Renewal) → Flow α)

namespace Task

def begin (f : Flow α) : Task α := line (.begin f)

def rest : Task α → Flow α
  | line l => l.rest
  | renewing b next => .ask (.renewAll b.limit b.rows) next

def result? : Task α → Option α
  | line ⟨.done a, _⟩ => some a
  | _ => none

/-- A step that is seen from outside; its second argument is the place of the row, if one of the
renewals does it. -/
inductive Step (w : Shared) : Task α → Option Nat → Deed → Shared → Task α → Prop
  | line {l l' : Line α} {d : Deed} {w' : Shared} (h : l.Step w d w' l') :
      Step w (line l) none d w' (line l')
  | renewal {b : Batch} {next : Option (List Renewal) → Flow α} {k : Nat} {l l' : Line Renewal}
      {d : Deed} {w' : Shared} (under : b.begun[k]? = some (some l)) (h : l.Step w d w' l') :
      Step w (renewing b next) (some k) d w' (renewing (b.set k (some l')) next)
  | joined {b : Batch} {next : Option (List Renewal) → Flow α} (complete : b.IsOver) :
      Step w (renewing b next) none (.answered ⟨.renewAll b.limit b.rows, some b.ended⟩) w
        (.begin (next (some b.ended)))
  /-- A renewal broke down, and takes the others with it. -/
  | broken {b : Batch} {next : Option (List Renewal) → Flow α} {k : Nat} {calling : Bool}
      (under : b.begun[k]? = some (some ⟨.crash, calling⟩)) :
      Step w (renewing b next) none (.answered ⟨.renewAll b.limit b.rows, none⟩) w
        (.begin (next none))

/-- A step by which nothing happens outside. -/
inductive Quiet : Task α → Task α → Prop
  | fork {limit : Nat} {rows : List Subscription} {next : Option (List Renewal) → Flow α}
      {calling : Bool} :
      Quiet (line ⟨.ask (.renewAll limit rows) next, calling⟩) (renewing (.start limit rows) next)
  | begin {b : Batch} {next : Option (List Renewal) → Flow α} {s : Subscription}
      (room : b.underWay < b.limit) (row : b.rows[b.begun.length]? = some s) :
      Quiet (renewing b next)
        (renewing { b with begun := b.begun ++ [some (.begin (Sweep.renewOne s))] } next)
  | finish {b : Batch} {next : Option (List Renewal) → Flow α} {k : Nat} {r : Renewal}
      {calling : Bool} (under : b.begun[k]? = some (some ⟨.done r, calling⟩)) :
      Quiet (renewing b next)
        (renewing { b.set k none with ended := b.ended ++ [r] } next)

end Task

/-! ## Many operations -/

structure Thread (Op α : Type) where
  operation : Op
  task : Task α

structure System (Op α : Type) where
  shared : Shared
  threads : List (Thread Op α)

def System.start (w : Shared) : System Op α := ⟨w, []⟩

/-- Who does a step: an operation, by its place in the order of beginnings, or one of its
renewals, by the place of the row. -/
structure Actor where
  thread : Nat
  renewal : Option Nat
deriving DecidableEq

/-- A step that is seen from outside. -/
structure Move (Op : Type) where
  actor : Actor
  operation : Op
  before : Shared
  deed : Deed
  after : Shared

/-- One step of a system, and the move if it is seen from outside. -/
inductive Step (flow : Op → Flow α) :
    System Op α → Option (Move Op) → System Op α → Prop
  | begin (s : System Op α) (o : Op) :
      Step flow s none ⟨s.shared, s.threads ++ [⟨o, .begin (flow o)⟩]⟩
  | shutDown (s : System Op α) : Step flow s none ⟨{ s.shared with stopped := true }, s.threads⟩
  | quiet {s : System Op α} {i : Nat} {o : Op} {t t' : Task α}
      (at_i : s.threads[i]? = some ⟨o, t⟩) (h : t.Quiet t') :
      Step flow s none ⟨s.shared, s.threads.set i ⟨o, t'⟩⟩
  | move {s : System Op α} {i : Nat} {o : Op} {t t' : Task α} {k : Option Nat} {d : Deed}
      {w : Shared} (at_i : s.threads[i]? = some ⟨o, t⟩) (h : t.Step s.shared k d w t') :
      Step flow s (some ⟨⟨i, k⟩, o, s.shared, d, w⟩) ⟨w, s.threads.set i ⟨o, t'⟩⟩

/-- From one system to another, with the moves in between. -/
inductive Run (flow : Op → Flow α) (s₀ : System Op α) : List (Move Op) → System Op α → Prop
  | start : Run flow s₀ [] s₀
  | quiet {ms : List (Move Op)} {s s' : System Op α} (run : Run flow s₀ ms s)
      (h : Step flow s none s') : Run flow s₀ ms s'
  | move {ms : List (Move Op)} {m : Move Op} {s s' : System Op α} (run : Run flow s₀ ms s)
      (h : Step flow s (some m) s') : Run flow s₀ (ms ++ [m]) s'

/-! ## What a trace tells -/

/-- What an actor has gone through. -/
def past (a : Actor) (ms : List (Move Op)) : List Exchange :=
  ms.filterMap fun m => if m.actor = a then m.deed.exchange? else none

@[simp] theorem past_nil (a : Actor) : past a ([] : List (Move Op)) = [] := rfl

@[simp] theorem past_append (a : Actor) (ms ms' : List (Move Op)) :
    past a (ms ++ ms') = past a ms ++ past a ms' :=
  List.filterMap_append

theorem past_of_ne {a : Actor} {m : Move Op} (h : m.actor ≠ a) : past a [m] = [] := by
  simp [past, h]

theorem past_of_called {a : Actor} {m : Move Op} {q : Request} (h : m.deed = .called q) :
    past a [m] = [] := by
  simp [past, h, Deed.exchange?]

theorem past_of_answered {m : Move Op} {x : Exchange} (h : m.deed = .answered x) :
    past m.actor [m] = [x] := by
  simp [past, h, Deed.exchange?]

theorem past_eq_nil {a : Actor} {ms : List (Move Op)} (h : ∀ m ∈ ms, m.actor ≠ a) :
    past a ms = [] := by
  simp only [past, List.filterMap_eq_nil_iff]
  intro m hm
  rw [if_neg (h m hm)]

theorem mem_past {a : Actor} {ms : List (Move Op)} {x : Exchange} :
    x ∈ past a ms ↔ ∃ m ∈ ms, m.actor = a ∧ m.deed = .answered x := by
  simp only [past, List.mem_filterMap]
  constructor
  · rintro ⟨m, hm, hx⟩
    split at hx
    case isTrue ha =>
      cases hd : m.deed with
      | called q => simp [hd, Deed.exchange?] at hx
      | answered y =>
        simp only [hd, Deed.exchange?, Option.some.injEq] at hx
        exact ⟨m, hm, ha, by rw [hd, hx]⟩
    case isFalse => cases hx
  · rintro ⟨m, hm, ha, hd⟩
    exact ⟨m, hm, by rw [if_pos ha, hd]; rfl⟩

theorem past_split {a : Actor} {ms : List (Move Op)} {own rest : List Exchange} {x : Exchange}
    (h : past a ms = own ++ x :: rest) :
    ∃ pre m post, ms = pre ++ m :: post ∧ m.actor = a ∧ m.deed = .answered x ∧
      past a pre = own := by
  obtain ⟨pre, suffix, rfl, hpre, hsuffix⟩ := List.filterMap_eq_append_iff.mp h
  obtain ⟨gap, m, post, rfl, hgap, hm, -⟩ := List.filterMap_eq_cons_iff.mp hsuffix
  have silent : past a gap = [] := List.filterMap_eq_nil_iff.mpr hgap
  have at_m : x ∈ past a [m] := List.mem_filterMap.mpr ⟨m, List.mem_singleton.mpr rfl, hm⟩
  obtain ⟨m', hm', ha, hd⟩ := mem_past.mp at_m
  rw [List.mem_singleton.mp hm'] at ha hd
  refine ⟨pre ++ gap, m, post, by rw [List.append_assoc], ha, hd, ?_⟩
  rw [past_append, silent, List.append_nil]
  exact hpre

/-! ## Single steps -/

section

variable {flow : Op → Flow α} {s : System Op α} {i : Nat} {o : Op} {q : Request}
  {next : q.Answer → Flow α}

theorem Step.call (at_i : s.threads[i]? = some ⟨o, .line ⟨.ask q next, false⟩⟩)
    (leaves : Leaves s.shared q) :
    Step flow s (some ⟨⟨i, none⟩, o, s.shared, .called q, s.shared⟩)
      ⟨s.shared, s.threads.set i ⟨o, .line ⟨.ask q next, true⟩⟩⟩ :=
  .move at_i (.line (.call leaves))

theorem Step.answer {calling : Bool} (at_i : s.threads[i]? = some ⟨o, .line ⟨.ask q next, calling⟩⟩)
    (a : q.Answer) {w : Shared} (answers : s.shared.Answers w q a) (single : ¬ IsRenewal q)
    (awaited : FromHub q a → calling = true) :
    Step flow s (some ⟨⟨i, none⟩, o, s.shared, .answered ⟨q, a⟩, w⟩)
      ⟨w, s.threads.set i ⟨o, .line ⟨next a, false⟩⟩⟩ :=
  .move at_i (.line (.answer answers single awaited))

theorem Step.read {next : Instant → Flow α} {calling : Bool}
    (at_i : s.threads[i]? = some ⟨o, .line ⟨.ask .now next, calling⟩⟩) :
    Step flow s (some ⟨⟨i, none⟩, o, s.shared, .answered ⟨.now, Instant.mk 0⟩, s.shared⟩)
      ⟨s.shared, s.threads.set i ⟨o, .line ⟨next ⟨0⟩, false⟩⟩⟩ :=
  .answer at_i (Instant.mk 0) ⟨isReading_epoch, rfl⟩ id False.elim

theorem Step.draw {next : Uuid → Flow α} {calling : Bool}
    (at_i : s.threads[i]? = some ⟨o, .line ⟨.ask .freshId next, calling⟩⟩) (id : Uuid)
    (new : id ∉ s.shared.drawn) :
    Step flow s (some ⟨⟨i, none⟩, o, s.shared, .answered ⟨.freshId, id⟩,
        { s.shared with drawn := s.shared.drawn ++ [id] }⟩)
      ⟨{ s.shared with drawn := s.shared.drawn ++ [id] },
        s.threads.set i ⟨o, .line ⟨next id, false⟩⟩⟩ :=
  .answer at_i id ⟨new, rfl⟩ (fun h => h) False.elim

end

/-! ## What a step does to what is shared -/

section

variable {flow : Op → Flow α} {s s' : System Op α} {m : Move Op}

/-- A call that leaves changes nothing, and an answer only what it may. -/
def Move.Allowed (m : Move Op) : Prop :=
  match m.deed with
  | .called q => Leaves m.before q ∧ m.after = m.before
  | .answered x => m.before.Answers m.after x.request x.answer

theorem Move.Allowed.called (h : m.Allowed) {q : Request} (deed : m.deed = .called q) :
    Leaves m.before q ∧ m.after = m.before := by
  unfold Move.Allowed at h
  rw [deed] at h
  exact h

theorem Move.Allowed.answered (h : m.Allowed) {x : Exchange} (deed : m.deed = .answered x) :
    m.before.Answers m.after x.request x.answer := by
  unfold Move.Allowed at h
  rw [deed] at h
  exact h

theorem Line.Step.allowed {a : Actor} {o : Op} {w w' : Shared} {l l' : Line α} {d : Deed}
    (h : l.Step w d w' l') : (⟨a, o, w, d, w'⟩ : Move Op).Allowed := by
  cases h with
  | call leaves => exact ⟨leaves, rfl⟩
  | answer h single awaited => exact h

theorem Step.allowed (h : Step flow s (some m) s') :
    m.before = s.shared ∧ m.after = s'.shared ∧ m.Allowed := by
  cases h with
  | @move i o t t' k d w at_i h =>
    refine ⟨rfl, rfl, ?_⟩
    cases h with
    | line h => exact h.allowed
    | renewal under h => exact h.allowed
    | joined complete => exact rfl
    | broken under => exact rfl

theorem Move.Allowed.events (h : m.Allowed) :
    m.after.events = m.before.events ∨ ∃ c, m.after.events = (m.before.events.answer c).2 := by
  unfold Move.Allowed at h
  split at h
  case h_1 q deed =>
    exact Or.inl (by rw [h.2])
  case h_2 x deed =>
    obtain ⟨q, a⟩ := x
    rcases (Shared.unchanged_of_answers h).2.1 with same | ⟨c, rfl⟩
    · exact Or.inl same
    · rcases h with ⟨-, after⟩ | ⟨-, after⟩
      · exact Or.inr ⟨c, by rw [after]⟩
      · exact Or.inl (by rw [after])

theorem Move.Allowed.subscriptions (h : m.Allowed) :
    m.after.subscriptions = m.before.subscriptions ∨
      ∃ c, m.deed = .answered ⟨.subscriptions c, (m.before.subscriptions.answer c).1⟩ ∧
        m.after.subscriptions = (m.before.subscriptions.answer c).2 := by
  unfold Move.Allowed at h
  split at h
  case h_1 q deed =>
    exact Or.inl (by rw [h.2])
  case h_2 x deed =>
    obtain ⟨q, a⟩ := x
    rcases (Shared.unchanged_of_answers h).2.2 with same | ⟨c, rfl⟩
    · exact Or.inl same
    · rcases h with ⟨answer, after⟩ | ⟨-, after⟩
      · simp only at answer
        rw [answer] at deed
        exact Or.inr ⟨c, deed, by rw [after]⟩
      · exact Or.inl (by rw [after])

theorem Move.Allowed.answer (h : m.Allowed) {c : Store.SubscriptionCall} {a : c.Answer}
    (deed : m.deed = .answered ⟨.subscriptions c, a⟩) (fine : ∀ e, a ≠ some (.error e)) :
    a = (m.before.subscriptions.answer c).1 ∧
      m.after.subscriptions = (m.before.subscriptions.answer c).2 := by
  unfold Move.Allowed at h
  rw [deed] at h
  rcases h with ⟨answer, after⟩ | ⟨⟨e, fault⟩, -⟩
  · exact ⟨answer, by rw [after]⟩
  · exact absurd fault (fine e)

theorem Step.thread (h : Step flow s (some m) s') :
    ∃ t, s.threads[m.actor.thread]? = some ⟨m.operation, t⟩ := by
  cases h with
  | move at_i h => exact ⟨_, at_i⟩

theorem Step.shared_of_quiet (h : Step flow s none s') :
    ∃ b, s'.shared = { s.shared with stopped := b } := by
  cases h with
  | begin o => exact ⟨s.shared.stopped, rfl⟩
  | shutDown => exact ⟨true, rfl⟩
  | quiet at_i h => exact ⟨s.shared.stopped, rfl⟩

end

/-! ## Parts of a run -/

theorem append_singleton_split {β : Type} {ms pre post : List β} {m x : β}
    (h : ms ++ [m] = pre ++ x :: post) :
    (∃ post', post = post' ++ [m] ∧ ms = pre ++ x :: post') ∨ (pre = ms ∧ x = m ∧ post = []) := by
  rcases List.eq_nil_or_concat post with rfl | ⟨post', y, rfl⟩
  · obtain ⟨h₁, h₂⟩ := List.append_inj' h rfl
    exact Or.inr ⟨h₁.symm, (List.cons.inj h₂).1.symm, rfl⟩
  · rw [List.concat_eq_append, ← List.cons_append, ← List.append_assoc] at h
    obtain ⟨h₁, h₂⟩ := List.append_inj' h rfl
    exact Or.inl ⟨post', by rw [List.concat_eq_append, (List.cons.inj h₂).1], h₁⟩

section

variable {flow : Op → Flow α} {s₀ s s' : System Op α} {ms : List (Move Op)}

theorem Run.trans {ms' : List (Move Op)} (run : Run flow s₀ ms s) (more : Run flow s ms' s') :
    Run flow s₀ (ms ++ ms') s' := by
  induction more with
  | start =>
    rw [List.append_nil]
    exact run
  | quiet more h ih => exact ih.quiet h
  | move more h ih =>
    rw [← List.append_assoc]
    exact ih.move h

theorem Run.allowed (run : Run flow s₀ ms s) : ∀ m ∈ ms, m.Allowed := by
  induction run with
  | start => exact fun m hm => absurd hm List.not_mem_nil
  | quiet run h ih => exact ih
  | move run h ih =>
    intro m hm
    rcases List.mem_append.mp hm with hm | hm
    · exact ih m hm
    · rw [List.mem_singleton.mp hm]
      exact h.allowed.2.2

theorem Run.unchanged {β : Type} (run : Run flow s₀ ms s) (f : Shared → β)
    (aside : ∀ v b, f { v with stopped := b } = f v) (same : ∀ m ∈ ms, f m.after = f m.before) :
    f s.shared = f s₀.shared := by
  induction run with
  | start => rfl
  | quiet run step ih =>
    obtain ⟨b, quiet⟩ := step.shared_of_quiet
    rw [quiet, aside]
    exact ih same
  | @move ms m s s' run step ih =>
    obtain ⟨before, after, -⟩ := step.allowed
    rw [← after, same m List.mem_concat_self, before]
    exact ih fun m' hm' => same m' (List.mem_append_left _ hm')

theorem Run.split {pre post : List (Move Op)} {m : Move Op} (run : Run flow s₀ ms s)
    (h : ms = pre ++ m :: post) :
    ∃ s₁ s₂, Run flow s₀ pre s₁ ∧ Step flow s₁ (some m) s₂ ∧ Run flow s₂ post s := by
  induction run generalizing post with
  | start => simp at h
  | quiet run step ih =>
    obtain ⟨s₁, s₂, before, at_m, after⟩ := ih h
    exact ⟨s₁, s₂, before, at_m, after.quiet step⟩
  | @move ms m' s s' run step ih =>
    rcases append_singleton_split h with ⟨post', rfl, hms⟩ | ⟨rfl, rfl, rfl⟩
    · obtain ⟨s₁, s₂, before, at_m, after⟩ := ih hms
      exact ⟨s₁, s₂, before, at_m, after.move step⟩
    · exact ⟨s, s', run, step, .start⟩

end

/-- A store call was answered by the store, and not by a fault. -/
def Move.Sound (m : Move Op) : Prop :=
  match m.deed with
  | .answered ⟨.subscriptions c, a⟩ => a = (m.before.subscriptions.answer c).1
  | .answered ⟨.events c, a⟩ => a = (m.before.events.answer c).1
  | _ => True

theorem Move.Sound.events {m : Move Op} (h : m.Sound) {c : Store.EventCall} {a : c.Answer}
    (deed : m.deed = .answered ⟨.events c, a⟩) : a = (m.before.events.answer c).1 := by
  unfold Move.Sound at h
  rw [deed] at h
  exact h

theorem Move.Sound.subscriptions {m : Move Op} (h : m.Sound) {c : Store.SubscriptionCall}
    {a : c.Answer} (deed : m.deed = .answered ⟨.subscriptions c, a⟩) :
    a = (m.before.subscriptions.answer c).1 := by
  unfold Move.Sound at h
  rw [deed] at h
  exact h

end WebSub.Interleaving
