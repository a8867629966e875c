import WebSub.Proofs.Settings.Reading
import WebSub.Proofs.Subscription.Lease
import WebSub.Proofs.Sweep.Faults

/-!
# The background loop

The loop sweeps again and again until the shutdown. Whatever else goes on, a sweep ends with a
report or an error and the loop lasts, unless the settings lead a sweep out of range: its lookahead
may not be representable, or its batch too large for the database.
-/

namespace WebSub.Sweep

open Interleaving
open Errand (readings granted)

variable {w : Shared} {ms : List (Move Errand)} {s s' : System Errand Errand.Result}
  {settings : Settings} {i : Nat}

/-! ## In range -/

/-- From the start of the year 1970 to the end of the year 9999. -/
def IsCommon (t : Instant) : Prop := 0 ≤ t.nanos ∧ t.nanos < 253402300800 * Instant.nanosPerSecond

theorem first_nanos : Instant.first.nanos = -8334601228800000000000 := rfl

theorem last_nanos : Instant.last.nanos = 8210266876799999999999 := rfl

theorem IsCommon.hasRoom {t : Instant} (h : IsCommon t) : t.HasRoom := by
  have before := h.2
  unfold Instant.nanosPerSecond at before
  unfold Instant.HasRoom maxLeaseSeconds Instant.nanosPerSecond
  rw [last_nanos]
  omega

/-- From each of these instants the lookahead leads to another one. -/
def Settings.LooksAhead (settings : Settings) : Prop :=
  -2315167008 ≤ settings.lookaheadHours ∧ settings.lookaheadHours ≤ 2210240160

theorem lookahead_ne_none (t : Instant) : settings.lookahead?.bind t.add? ≠ none ↔
    (-Duration.maxSeconds ≤ 3600 * settings.lookaheadHours ∧
      3600 * settings.lookaheadHours ≤ Duration.maxSeconds) ∧
    Instant.first.nanos ≤ t.nanos + 3600 * settings.lookaheadHours * Instant.nanosPerSecond ∧
    t.nanos + 3600 * settings.lookaheadHours * Instant.nanosPerSecond ≤ Instant.last.nanos := by
  rw [Settings.lookahead?, Duration.ofHours?, Duration.ofSeconds?]
  split
  case isFalse out => exact iff_of_false (not_not_intro rfl) fun h => out h.1
  case isTrue span =>
    rw [Option.bind_some, Instant.add?]
    split
    case isFalse out => exact iff_of_false (not_not_intro rfl) fun h => out h.2
    case isTrue range => exact iff_of_true (Option.some_ne_none _) ⟨span, range⟩

theorem Settings.looksAhead_iff : settings.LooksAhead ↔
    ∀ t, IsCommon t → settings.lookahead?.bind t.add? ≠ none := by
  simp only [lookahead_ne_none, first_nanos, last_nanos, LooksAhead, IsCommon,
    Instant.nanosPerSecond, Duration.maxSeconds]
  constructor
  · rintro ⟨low, high⟩ t ⟨after, before⟩
    omega
  · intro h
    have earliest := h ⟨0⟩ (by decide)
    have latest := h ⟨253402300800 * 1000000000 - 1⟩ (by decide)
    dsimp only at earliest latest
    omega

/-- Everything that a sweep works out from its settings is in range. -/
structure Settings.InRange (settings : Settings) : Prop where
  lookahead : settings.LooksAhead
  batch : settings.batchSize ≤ 9223372036854775807

/-- A sweep has worked out something that is out of range. -/
inductive Exceeds (settings : Settings) (ms : List (Move Errand)) (i : Nat) : Prop
  | lookahead {t : Instant} (read : ⟨.now, t⟩ ∈ past ⟨i, none⟩ ms)
      (far : settings.lookahead?.bind t.add? = none)
  /-- The database cannot count the batch. -/
  | batch {m : Move Errand} (hm : m ∈ ms) (actor : m.actor = ⟨i, none⟩)
      (large : ¬ m.before.subscriptions.Reads settings.batchSize)

theorem Exceeds.append (h : Exceeds settings ms i) (ms' : List (Move Errand)) :
    Exceeds settings (ms ++ ms') i := by
  cases h with
  | lookahead read far => exact .lookahead (mem_past_append read ms') far
  | batch hm actor large => exact .batch (List.mem_append_left _ hm) actor large

theorem Settings.InRange.not_exceeds (h : settings.InRange)
    (clock : ∀ t ∈ readings ms, IsCommon t) : ¬ Exceeds settings ms i := by
  intro exceeds
  cases exceeds with
  | lookahead read far =>
    exact looksAhead_iff.mp h.lookahead _ (clock _ (Errand.mem_readings_of_past read)) far
  | @batch m hm actor large =>
    apply large
    cases m.before.subscriptions with
    | memory rows => exact trivial
    | table rows =>
      have fits : (settings.batchSize : Int) ≤ Decimal.int64Max := by
        have small := h.batch
        unfold Decimal.int64Max
        omega
      exact decide_eq_true fits

/-! ## A sweep that breaks down -/

theorem exceeds_of_broken (blank : w.subscriptions.rows = [])
    (run : Run Errand.flow (.start w) ms s) (configured : ∀ m ∈ ms, m.operation.IsConfigured)
    (clock : ∀ t ∈ readings ms, IsCommon t)
    {t : Interleaving.Task Errand.Result} (at_i : s.threads[i]? = some ⟨.sweep settings, t⟩)
    (broken : t.rest = .crash) : Exceeds settings ms i := by
  have mine : IsSweep settings i ms := fun m hm thread =>
    (orderly run).operation_of_thread at_i hm thread
  cases breakdown_of_broken run at_i rfl mine broken with
  | lookahead read far => exact .lookahead read far
  | batch hm actor large => exact .batch hm actor large
  | @lease before rows k r response u listed row heard far =>
    -- The row was stored, so its lease is short, and so is one that the hub names.
    have stored := (Errand.kept blank run configured).given _ _ _ listed r
      (List.mem_of_getElem? row)
    have reading : u ∈ readings ms := by
      apply Errand.mem_readings_of_past (a := ⟨i, some k⟩)
      rw [heard]
      simp
    have lease : IsLease (granted r.leaseSeconds response.leaseSeconds) := by
      rw [← Errand.getD_boundedLease]
      cases named : Subscription.boundedLease response.leaseSeconds with
      | none => exact stored.lease
      | some l => exact (Subscription.boundedLease_eq_some named).1
    have room : ∀ t ∈ readings ms, t.HasRoom := fun t ht => (clock t ht).hasRoom
    exact absurd far (Errand.addSeconds?_ne_none run room reading lease)

/-! ## The loop -/

/-- Where the loop is. -/
inductive Loop where
  | idle
  | sweeping (thread : Nat)
  | finished

/-- The loop beside everything else. A tick may come at any time; the loop takes any end of its
sweep, but does not outlive its breakdown. -/
inductive Background (settings : Settings) (w : Shared) :
    List (Move Errand) → System Errand Errand.Result → Loop → Prop
  | start : Background settings w [] (.start w) .idle
  | quiet {ms : List (Move Errand)} {s s' : System Errand Errand.Result} {l : Loop}
      (before : Background settings w ms s l) (h : Step Errand.flow s none s') :
      Background settings w ms s' l
  | move {ms : List (Move Errand)} {m : Move Errand} {s s' : System Errand Errand.Result}
      {l : Loop} (before : Background settings w ms s l) (h : Step Errand.flow s (some m) s') :
      Background settings w (ms ++ [m]) s' l
  | tick {ms : List (Move Errand)} {s : System Errand Errand.Result}
      (before : Background settings w ms s .idle) :
      Background settings w ms
        ⟨s.shared, s.threads ++ [⟨.sweep settings, .begin (Errand.flow (.sweep settings))⟩]⟩
        (.sweeping s.threads.length)
  | next {ms : List (Move Errand)} {s : System Errand Errand.Result} {i : Nat}
      {t : Interleaving.Task Errand.Result} {x : Errand.Result}
      (before : Background settings w ms s (.sweeping i))
      (at_i : s.threads[i]? = some ⟨.sweep settings, t⟩) (ended : t.result? = some x) :
      Background settings w ms s .idle
  | breakdown {ms : List (Move Errand)} {s : System Errand Errand.Result} {i : Nat}
      {t : Interleaving.Task Errand.Result} (before : Background settings w ms s (.sweeping i))
      (at_i : s.threads[i]? = some ⟨.sweep settings, t⟩) (broken : t.rest = .crash) :
      Background settings w ms s .finished
  | stop {ms : List (Move Errand)} {s : System Errand Errand.Result}
      (before : Background settings w ms s .idle) (stopped : s.shared.stopped = true) :
      Background settings w ms s .finished

variable {l : Loop}

theorem Background.run (h : Background settings w ms s l) : Run Errand.flow (.start w) ms s := by
  induction h with
  | start => exact .start
  | quiet _ h ih => exact ih.quiet h
  | move _ h ih => exact ih.move h
  | tick _ ih => exact ih.quiet (.begin _ (Errand.sweep settings))
  | next _ _ _ ih => exact ih
  | breakdown _ _ _ ih => exact ih
  | stop _ _ ih => exact ih

theorem operation_kept {o : Errand} {t : Interleaving.Task Errand.Result} {m : Option (Move Errand)}
    (h : Step Errand.flow s m s') (at_i : s.threads[i]? = some ⟨o, t⟩) :
    ∃ t', s'.threads[i]? = some ⟨o, t'⟩ := by
  have same : (s'.threads[i]?).map (·.operation) = some o := by
    cases h with
    | begin =>
      rw [List.getElem?_append_left (List.getElem?_eq_some_iff.mp at_i).1, at_i]
      rfl
    | shutDown =>
      rw [at_i]
      rfl
    | quiet at_j =>
      rw [operation_set at_j, at_i]
      rfl
    | move at_j =>
      rw [operation_set at_j, at_i]
      rfl
  obtain ⟨⟨o', t'⟩, at_i', rfl⟩ := Option.map_eq_some_iff.mp same
  exact ⟨t', at_i'⟩

theorem Background.exists_sweep (h : Background settings w ms s l) :
    ∀ i, l = .sweeping i → ∃ t, s.threads[i]? = some ⟨.sweep settings, t⟩ := by
  induction h with
  | start | next | breakdown | stop => exact fun i waiting => nomatch waiting
  | quiet _ h ih =>
    intro i waiting
    obtain ⟨t, at_i⟩ := ih i waiting
    exact operation_kept h at_i
  | move _ h ih =>
    intro i waiting
    obtain ⟨t, at_i⟩ := ih i waiting
    exact operation_kept h at_i
  | tick =>
    intro i waiting
    cases waiting
    exact ⟨_, List.getElem?_concat_length⟩

theorem stopped_kept {m : Option (Move Errand)} (h : Step Errand.flow s m s')
    (stopped : s.shared.stopped = true) : s'.shared.stopped = true := by
  cases m with
  | none => exact (stopped_of_run (Run.start.quiet h) stopped).1
  | some m => exact (stopped_of_run (Run.start.move h) stopped).1

theorem Background.finished (blank : w.subscriptions.rows = []) (h : Background settings w ms s l)
    (configured : ∀ m ∈ ms, m.operation.IsConfigured) (clock : ∀ t ∈ readings ms, IsCommon t) :
    l = .finished → s.shared.stopped = true ∨ ∃ i, Exceeds settings ms i := by
  induction h with
  | start | tick | next => exact fun ended => nomatch ended
  | quiet _ h ih =>
    intro ended
    exact (ih configured clock ended).imp_left (stopped_kept h)
  | @move ms m s s' l _ h ih =>
    intro ended
    have first := ih (fun m' hm' => configured m' (List.mem_append_left _ hm'))
      (fun t ht => clock t (Errand.mem_readings_append ht)) ended
    rcases first with stopped | ⟨i, exceeds⟩
    · exact Or.inl (stopped_kept h stopped)
    · exact Or.inr ⟨i, exceeds.append [m]⟩
  | breakdown before at_i broken =>
    exact fun _ => Or.inr ⟨_, exceeds_of_broken blank before.run configured clock at_i broken⟩
  | stop _ stopped => exact fun _ => Or.inl stopped

/-! ## The whole -/

/-- What holds of the sweeps under some settings, and of the loop that has them made. -/
structure Lasting (settings : Settings) (ms : List (Move Errand))
    (s : System Errand Errand.Result) (l : Loop) : Prop where
  /-- A sweep goes on until it returns, and takes only so many steps, -/
  goes_on : ∀ (i : Nat) t, s.threads[i]? = some ⟨.sweep settings, t⟩ → t.result? = none →
    t.rest ≠ .crash → (∃ t', t.Quiet t') ∨ ∃ k d v t', t.Step s.shared k d v t'
  stops : ∀ f : Nat → Interleaving.Task Errand.Result, ∃ n, ¬ (f n).Goes (f (n + 1))
  /-- and what it returns is a report or an error, -/
  returns : ∀ (i : Nat) t x, s.threads[i]? = some ⟨.sweep settings, t⟩ → t.result? = some x →
    ∃ y : Except Error Report, x = .swept y
  /-- unless it breaks down, for only one reason. -/
  broken : ∀ (i : Nat) t, s.threads[i]? = some ⟨.sweep settings, t⟩ → t.rest = .crash →
    Exceeds settings ms i
  /-- The loop has a period, waits for such a sweep, and otherwise lasts until the shutdown. -/
  period : 0 < settings.interval
  waits : ∀ i, l = .sweeping i → ∃ t, s.threads[i]? = some ⟨.sweep settings, t⟩
  lasts : l = .finished → s.shared.stopped = true ∨ ∃ i, Exceeds settings ms i
  /-- Nothing exceeds the range if the settings themselves are in range. -/
  inRange : settings.InRange → ∀ i, ¬ Exceeds settings ms i

/-- Beginning with an empty store, and at any time from 1970 to 9999, no settings break a sweep or
the loop but by a lookahead or a batch that is out of range. -/
theorem background_lasts (blank : w.subscriptions.rows = []) (h : Background settings w ms s l)
    (configured : ∀ m ∈ ms, m.operation.IsConfigured) (clock : ∀ t ∈ readings ms, IsCommon t) :
    Lasting settings ms s l where
  goes_on _ _ at_i := goes_on_anyhow h.run at_i
  stops := Task.stops
  returns i t x at_i result := by
    have ends := (orderly h.run).ended at_i result
    obtain ⟨y, same, -⟩ := ends
    exact ⟨y, same⟩
  broken _ _ at_i := exceeds_of_broken blank h.run configured clock at_i
  period := Nat.lt_of_lt_of_le Nat.one_pos (Nat.le_max_right _ _)
  waits := h.exists_sweep
  lasts := h.finished blank configured clock
  inRange within _ := within.not_exceeds clock

theorem empty_findExpiring (before : Instant) {limit : Nat}
    (fits : Store.SubscriptionTable.fits limit = true) :
    (Shared.empty.subscriptions.answer (.findExpiring before limit)).1 = some (.ok []) := by
  have nothing (c : Store.Condition) (key : Subscription → Instant) (n : Nat) :
      (Store.SubscriptionTable.mk []).selectBy c key n 0 = [] := by
    show ((List.mergeSort [] _).drop 0).take n = []
    rw [List.mergeSort_nil, List.drop_nil, List.take_nil]
  show (Store.SubscriptionTable.answer ⟨[]⟩ (.findExpiring before limit)).1 = _
  rw [Store.SubscriptionTable.answer, if_pos fits, Store.SubscriptionTable.expiring, nothing,
    nothing]
  split <;> rfl

theorem configured_of_sweeps {n : Nat}
    (operations : ms.map (·.operation) = List.replicate n (.sweep settings)) :
    ∀ m ∈ ms, m.operation.IsConfigured := by
  refine Errand.isConfigured_of_operations ?_ operations
  intro d r other
  cases other

/-- Every hour, whatever runs out within a day. -/
def usual : Settings := Settings.Renewal.default.sweep

theorem background_usual :
    ∃ ms s, Background usual .empty ms s .idle ∧
      ms.map (·.operation) = List.replicate 13 (.sweep usual) ∧ readings ms = [⟨0⟩, ⟨0⟩] ∧
      s.threads.map (·.task.result?) = [some (.swept (.ok ⟨0, 0, 0, 0, 0⟩))] := by
  have r : Background usual .empty [] (.start .empty) .idle := .start
  have r := r.tick
  have r := r.move (Step.answer (i := 0) rfl true (by exact ⟨rfl, rfl⟩) id False.elim)
  have r := r.move (Step.read (i := 0) rfl)
  have r := r.move (Step.answer (i := 0) rfl (some (Except.ok []))
    (by exact Or.inl ⟨(empty_findExpiring _ rfl).symm, rfl⟩) id False.elim)
  have r := r.quiet (.quiet (i := 0) rfl .fork)
  have r := r.move (.move (i := 0) rfl (.joined ⟨rfl, rfl⟩))
  have r := r.move (Step.answer (i := 0) rfl false (by exact ⟨rfl, rfl⟩) id False.elim)
  have r := r.move (Step.read (i := 0) rfl)
  have r := r.move (Step.answer (i := 0) rfl (some (Except.ok 0)) (by exact Or.inl ⟨rfl, rfl⟩)
    id False.elim)
  have r := r.move (Step.answer (i := 0) rfl () (by exact rfl) id False.elim)
  have r := r.move (Step.answer (i := 0) rfl () (by exact rfl) id False.elim)
  have r := r.move (Step.answer (i := 0) rfl () (by exact rfl) id False.elim)
  have r := r.move (Step.answer (i := 0) rfl () (by exact rfl) id False.elim)
  have r := r.move (Step.answer (i := 0) rfl () (by exact rfl) id False.elim)
  have r := r.move (Step.answer (i := 0) rfl () (by exact rfl) id False.elim)
  have r := r.next (i := 0) rfl rfl
  exact ⟨_, _, r, rfl, rfl, rfl⟩

/-- The loop sweeps an empty store, and waits for the next tick. -/
theorem background_lasts_usual :
    ∃ ms s, Shared.empty.subscriptions.rows = [] ∧ Background usual .empty ms s .idle ∧
      (∀ m ∈ ms, m.operation.IsConfigured) ∧ (∀ t ∈ readings ms, IsCommon t) ∧
      s.threads.map (·.task.result?) = [some (.swept (.ok ⟨0, 0, 0, 0, 0⟩))] ∧
      Lasting usual ms s .idle := by
  obtain ⟨ms, s, r, operations, read, results⟩ := background_usual
  have configured := configured_of_sweeps operations
  have clock : ∀ t ∈ readings ms, IsCommon t := by
    rw [read]
    unfold IsCommon
    decide
  exact ⟨ms, s, rfl, r, configured, clock, results, background_lasts rfl r configured clock⟩

/-! ## A lookahead without an end -/

def farAhead : WebSub.Settings.Environment :=
  [("YTPUSH__RENEWAL__LOOKAHEAD_HOURS", "9223372036854775807")]

/-- Settings that are loaded without complaint: the first sweep takes the loop with it. -/
theorem background_broken : ∃ a, WebSub.Settings.load [] farAhead = .ok a ∧
    ∃ ms s, Background a.renewal.sweep .empty ms s .finished ∧ s.shared.stopped = false ∧
      (∀ m ∈ ms, m.operation.IsConfigured) ∧ readings ms = [⟨0⟩] ∧
      s.threads.map (·.task.result?) = [none] := by
  have sweep : (WebSub.Settings.load [] farAhead).toOption.map (·.renewal.sweep) =
      some ⟨3600, 9223372036854775807, 100, 4⟩ := by
    decide +kernel
  obtain ⟨a, loaded, same⟩ := WebSub.Settings.Reading.exists_ok sweep
  refine ⟨a, loaded, ?_⟩
  rw [same]
  have r : Background ⟨3600, 9223372036854775807, 100, 4⟩ .empty [] (.start .empty) .idle :=
    .start
  have r := r.tick
  have r := r.move (Step.answer (i := 0) rfl true (by exact ⟨rfl, rfl⟩) id False.elim)
  have r := r.move (Step.read (i := 0) rfl)
  have r := r.move (Step.answer (i := 0) rfl () (by exact rfl) id False.elim)
  have r := r.breakdown (i := 0) rfl rfl
  exact ⟨_, _, r, rfl, configured_of_sweeps (n := 3) rfl, rfl, rfl⟩

end WebSub.Sweep
