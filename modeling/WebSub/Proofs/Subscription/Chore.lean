import WebSub.Proofs.Subscription.Errand

/-!
# Errands and lapses

The operations on subscriptions together with one that only marks what has run out. A sweep looks
for rows once, and marks after its renewals have ended, with the time that it reads then.
-/

namespace WebSub

open Interleaving

/-! ## Two conducts at once -/

namespace Interleaving

variable {α : Type}

def Conduct.and (c c' : Conduct α) : Conduct α where
  asks past q := c.asks past q ∧ c'.asks past q
  ends past a := c.ends past a ∧ c'.ends past a
  breaks past := c.breaks past ∧ c'.breaks past

theorem keeps_and {c c' : Conduct α} {f : Flow α} {past : List Exchange} (h : f.Keeps c past)
    (h' : f.Keeps c' past) : f.Keeps (c.and c') past := by
  induction f generalizing past with
  | done a => exact ⟨h, h'⟩
  | crash => exact ⟨h, h'⟩
  | ask q next ih =>
    exact ⟨⟨h.1, h'.1⟩, fun a possible => ih a (h.2 a possible) (h'.2 a possible)⟩

/-- A conduct of which only the requests matter. -/
def Conduct.asking (asks : List Exchange → Request → Prop) : Conduct α where
  asks := asks
  ends _ _ := True
  breaks _ := True

theorem keeps_asking {c : Conduct α} {asks : List Exchange → Request → Prop} {f : Flow α}
    {past : List Exchange} (weaker : ∀ p q, c.asks p q → asks p q) (h : f.Keeps c past) :
    f.Keeps (.asking asks) past := by
  induction f generalizing past with
  | done a => trivial
  | crash => trivial
  | ask q next ih => exact ⟨weaker past q h.1, fun a possible => ih a (h.2 a possible)⟩

end Interleaving

/-! ## When a sweep looks and when it marks -/

namespace Errand

def Timely (own : List Exchange) : Request → Prop
  | .subscriptions (.findExpiring ..) =>
    ∀ x ∈ own, ∀ before limit, x.request ≠ .subscriptions (.findExpiring before limit)
  | .subscriptions (.markLapsed t) => ∃ before, own = before ++ [⟨.now, t⟩] ∧ ¬ Unjoined before
  | _ => True

theorem timely_of_asks {e : Errand} {own : List Exchange} {q : Request}
    (other : ∀ settings, e ≠ sweep settings) (h : e.Asks own q) : Timely own q := by
  cases q with
  | subscriptions c =>
    cases c with
    | findExpiring before limit =>
      obtain ⟨settings, rfl, -⟩ := h
      exact absurd rfl (other settings)
    | markLapsed t =>
      obtain ⟨settings, rfl⟩ := h
      exact absurd rfl (other settings)
    | _ => trivial
  | _ => trivial

theorem timely_other {e : Errand} (other : ∀ settings, e ≠ sweep settings) :
    e.flow.Keeps (.asking Timely) [] :=
  keeps_asking (fun _ _ => timely_of_asks other) (keeps e)

theorem timely_countReport (r : Sweep.Report) (own : List Exchange) :
    ((Sweep.countReport r).bind fun _ => .done (.ok r : Except Sweep.Error Sweep.Report)).Keeps
      (.asking Timely) own := by
  refine keeps_ask trivial fun _ => ?_
  refine keeps_ask trivial fun _ => ?_
  refine keeps_ask trivial fun _ => ?_
  refine keeps_ask trivial fun _ => ?_
  exact keeps_ask trivial fun _ => trivial

theorem timely_sweepLocked (settings : Sweep.Settings) :
    (Sweep.sweepLocked settings).Keeps (.asking Timely) [⟨.lockSweeps, true⟩] := by
  refine keeps_ask trivial fun now => ?_
  show Flow.Keeps _ ((Flow.bind (Flow.ofOption (settings.lookahead?.bind now.add?)) _).bind _) _
  cases settings.lookahead?.bind now.add? with
  | none => trivial
  | some before =>
    refine keeps_ask (by simp [Conduct.asking, Timely]) fun found => ?_
    match found with
    | none => trivial
    | some (.error _) => exact keeps_ask trivial fun _ => trivial
    | some (.ok rows) =>
      refine keeps_ask trivial fun renewals => ?_
      match renewals with
      | none => trivial
      | some renewals =>
        refine keeps_ask trivial fun stopped => ?_
        cases stopped with
        | true => exact timely_countReport _ _
        | false =>
          refine keeps_ask trivial fun now' => ?_
          refine keeps_ask ⟨_, rfl, ?_⟩ fun marked => ?_
          · intro unjoined
            exact unjoined ⟨.renewAll settings.width rows, some renewals⟩ (by simp) trivial
          match marked with
          | none => trivial
          | some (.error _) => exact timely_countReport _ _
          | some (.ok _) => exact timely_countReport _ _

theorem timely (e : Errand) : e.flow.Keeps (.asking Timely) [] := by
  cases e with
  | sweep settings =>
    refine keeps_ask trivial fun free => ?_
    cases free with
    | false => trivial
    | true =>
      refine keeps_bind (fun _ _ h => h) (fun _ h => h) (fun _ _ _ => trivial)
        (c := .asking Timely) ?_
      refine keeps_ensuring (fun _ _ h => h) ?_ ?_ (timely_sweepLocked settings)
      · intro own _
        exact keeps_ask trivial fun _ => trivial
      · intro own r _
        exact keeps_ask trivial fun _ => trivial
  | subscribe d r => exact timely_other fun _ => nofun
  | renew id => exact timely_other fun _ => nofun
  | unsubscribe id => exact timely_other fun _ => nofun
  | confirm v => exact timely_other fun _ => nofun

end Errand

/-! ## Chores -/

/-- An operation that may write subscriptions, or one that only marks what has run out. -/
inductive Chore where
  | errand (e : Errand)
  | lapse

namespace Chore

open Errand (Timely)

inductive Result where
  | errand (r : Errand.Result)
  | lapsed (r : Except Store.Error Nat)

def lapseNow : Flow (Except Store.Error Nat) := do
  let now ← Flow.now
  Flow.subscriptions (.markLapsed now)

def flow : Chore → Flow Result
  | errand e => e.flow.bind (.done <| .errand ·)
  | lapse => lapseNow.bind (.done <| .lapsed ·)

def Lapses (own : List Exchange) : Request → Prop
  | .now => True
  | .subscriptions (.markLapsed t) => own = [⟨.now, t⟩]
  | _ => False

def conduct : Chore → Conduct Result
  | errand e => .asking fun own q => e.Asks own q ∧ Timely own q
  | lapse => .asking Lapses

theorem keeps (o : Chore) : o.flow.Keeps o.conduct [] := by
  cases o with
  | errand e =>
    refine keeps_bind (c := e.conduct.and (.asking Timely)) (fun _ _ h => h) (fun _ _ => trivial)
      (fun _ _ _ => trivial) ?_
    exact keeps_and (Errand.keeps e) (Errand.timely e)
  | lapse =>
    refine keeps_ask trivial fun now => ?_
    refine keeps_ask rfl fun marked => ?_
    match marked with
    | none => trivial
    | some _ => trivial

theorem orderly {w : Shared} {ms : List (Move Chore)} {s : System Chore Result}
    (run : Run flow (.start w) ms s) : Orderly conduct Sweep.conduct ms s :=
  run.orderly keeps Sweep.keeps_renewOne

/-! ## Who does a move -/

/-- A move in the renewal of a row that its sweep has found, before the renewals were joined. -/
structure Renews (pre : List (Move Chore)) (m : Move Chore) (k : Nat) (rows : List Subscription)
    (r : Subscription) : Prop where
  operation : ∃ settings, m.operation = .errand (.sweep settings)
  place : m.actor.renewal = some k
  row : rows[k]? = some r
  found : ∃ before limit, ⟨.subscriptions (.findExpiring before limit), some (.ok rows)⟩ ∈
    past ⟨m.actor.thread, none⟩ pre
  unjoined : Unjoined (past ⟨m.actor.thread, none⟩ pre)

theorem renews_of_conforms {pre : List (Move Chore)} {m : Move Chore} {k : Nat}
    (conforms : Conforms conduct Sweep.conduct pre m) (place : m.actor.renewal = some k) :
    ∃ rows r, Renews pre m k rows r ∧ Sweep.Asks r (past m.actor pre) m.deed.request := by
  unfold Conforms at conforms
  rw [place] at conforms
  obtain ⟨limit, rows, r, own, joins, row, -, whole, asked⟩ := conforms
  cases operation : m.operation with
  | lapse =>
    rw [operation] at joins
    exact joins.elim
  | errand e =>
    rw [operation] at joins
    obtain ⟨⟨unjoined, ⟨settings, rfl⟩, before, n, found⟩, -⟩ := joins
    rw [whole unjoined] at asked
    exact ⟨rows, r, ⟨⟨settings, operation⟩, place, row, ⟨before, n, found⟩, unjoined⟩, asked⟩

/-- Who asks the store, and with what reason. -/
inductive Calls (pre : List (Move Chore)) (m : Move Chore) (c : Store.SubscriptionCall) : Prop
  | errand {e : Errand} (alone : m.actor.renewal = none) (operation : m.operation = .errand e)
      (asked : e.Asks (past m.actor pre) (.subscriptions c))
      (timely : Timely (past m.actor pre) (.subscriptions c))
  | lapse {t : Instant} (alone : m.actor.renewal = none) (operation : m.operation = .lapse)
      (marks : c = .markLapsed t) (reading : past m.actor pre = [⟨.now, t⟩])
  | renewal {k : Nat} {rows : List Subscription} {r : Subscription} (renews : Renews pre m k rows r)
      (asked : Sweep.Asks r (past m.actor pre) (.subscriptions c))

theorem calls {pre : List (Move Chore)} {m : Move Chore} {c : Store.SubscriptionCall}
    (conforms : Conforms conduct Sweep.conduct pre m)
    (request : m.deed.request = .subscriptions c) : Calls pre m c := by
  cases place : m.actor.renewal with
  | some k =>
    obtain ⟨rows, r, renews, asked⟩ := renews_of_conforms conforms place
    rw [request] at asked
    exact .renewal renews asked
  | none =>
    unfold Conforms at conforms
    rw [place, request] at conforms
    cases operation : m.operation with
    | errand e =>
      rw [operation] at conforms
      exact .errand place operation conforms.1 conforms.2
    | lapse =>
      rw [operation] at conforms
      cases c with
      | markLapsed t => exact .lapse place operation rfl conforms
      | _ => exact conforms.elim

end Chore

end WebSub
