import Mathlib.Data.List.Induction
import WebSub.Proofs.Subscription.Changes

/-!
# When a subscription runs out

Whatever is done to a subscription, it runs out one lease after the lease was last started: when it
was created, when the hub accepted it, or when the hub named a lease for it while it was active. A
lease that the hub names at any other time is kept for the next start, and leaves the expiry where
it is.
-/

namespace WebSub.Subscription

/-! ## Histories -/

/-- What may be done to a subscription, and when. -/
inductive Act where
  | markActive (now : Instant) (lease : Option Int)
  | markFailed (now : Instant)
  | markExpired (now : Instant)
  | recordVerification (now : Instant) (lease : Option Int)

namespace Act

def now : Act → Instant
  | markActive now _ | markFailed now | markExpired now | recordVerification now _ => now

def change (s : Subscription) : Act → Change
  | markActive now lease => s.markActive now lease
  | markFailed now => .ok (s.markFailed now)
  | markExpired now => .ok (s.markExpired now).1
  | recordVerification now lease => s.recordVerification now lease

/-- The hub accepts, or it names a lease that counts. -/
def Settles (_ : Subscription) : Act → Prop
  | markActive .. => True
  | recordVerification _ lease => boundedLease lease ≠ none
  | markFailed _ | markExpired _ => False

/-- The lease is started: the hub accepts, or it names a lease for an active subscription. -/
def Starts (s : Subscription) : Act → Prop
  | markActive .. => True
  | recordVerification _ lease => s.status = .active ∧ boundedLease lease ≠ none
  | markFailed _ | markExpired _ => False

end Act

variable {s₀ x y z : Subscription} {acts : List Act} {a : Act} {t t' : Instant}
  {counts : Subscription → Act → Prop}

/-- What a subscription comes to, one act after another. -/
def after (s : Subscription) (acts : List Act) : Change := acts.foldlM Act.change s

theorem after_concat (acts : List Act) (a : Act) :
    s₀.after (acts ++ [a]) = (s₀.after acts).bind a.change := by
  simp only [after, List.foldlM_append, List.foldlM_cons, List.foldlM_nil, bind_pure]
  rfl

theorem after_concat_ok (run : s₀.after (acts ++ [a]) = .ok y) :
    ∃ x, s₀.after acts = .ok x ∧ a.change x = .ok y := by
  rw [after_concat] at run
  cases so_far : s₀.after acts with
  | error e =>
    rw [so_far] at run
    cases run
  | ok x =>
    rw [so_far] at run
    exact ⟨x, rfl, run⟩

/-- The time of the last act that counts, or of the creation if none does, and what the subscription
was like just after it. -/
inductive Latest (counts : Subscription → Act → Prop) (s₀ : Subscription) :
    List Act → Instant → Subscription → Prop where
  | creation : Latest counts s₀ [] s₀.createdAt s₀
  | counted {acts : List Act} {a : Act} {x y : Subscription} (run : s₀.after acts = .ok x)
      (one : counts x a) (change : a.change x = .ok y) : Latest counts s₀ (acts ++ [a]) a.now y
  | passed {acts : List Act} {a : Act} {x z : Subscription} {t : Instant}
      (earlier : Latest counts s₀ acts t z) (run : s₀.after acts = .ok x) (none : ¬ counts x a) :
      Latest counts s₀ (acts ++ [a]) t z

namespace Latest

theorem exists_of_run (run : s₀.after acts = .ok y) : ∃ t z, Latest counts s₀ acts t z := by
  induction acts using List.reverseRecOn generalizing y with
  | nil => exact ⟨_, _, .creation⟩
  | append_singleton acts a ih =>
    obtain ⟨x, so_far, change⟩ := after_concat_ok run
    by_cases one : counts x a
    · exact ⟨_, _, .counted so_far one change⟩
    · obtain ⟨t, z, earlier⟩ := ih so_far
      exact ⟨t, z, earlier.passed so_far one⟩

/-- What only an act that counts can change is as it was after the last one. -/
theorem kept {α : Type} {f : Subscription → α}
    (keeps : ∀ {x y a}, a.change x = .ok y → ¬ counts x a → f y = f x)
    (latest : Latest counts s₀ acts t z) (run : s₀.after acts = .ok y) : f y = f z := by
  induction latest generalizing y with
  | creation => cases run; rfl
  | counted so_far one change =>
    obtain ⟨x', so_far', change'⟩ := after_concat_ok run
    rw [so_far] at so_far'
    cases so_far'
    rw [change] at change'
    cases change'
    rfl
  | passed earlier so_far none ih =>
    obtain ⟨x', so_far', change⟩ := after_concat_ok run
    rw [so_far] at so_far'
    cases so_far'
    exact (keeps change none).trans (ih so_far)

end Latest

/-! ## What an act does to lease and expiry -/

theorem Act.leaseSeconds_kept (change : a.change x = .ok y) (none : ¬ a.Settles x) :
    y.leaseSeconds = x.leaseSeconds := by
  cases a with
  | markActive now lease => exact absurd trivial none
  | markFailed now =>
    cases change
    rw [markFailed_eq]
  | markExpired now =>
    cases change
    rw [markExpired_eq]
    split <;> rfl
  | recordVerification now lease =>
    have named := recordVerification_lease change
    rw [not_not.mp none] at named
    exact named.1

theorem Act.expiresAt_kept (change : a.change x = .ok y) (none : ¬ a.Starts x) :
    y.expiresAt = x.expiresAt := by
  cases a with
  | markActive now lease => exact absurd trivial none
  | markFailed now =>
    cases change
    rw [markFailed_eq]
  | markExpired now =>
    cases change
    rw [markExpired_eq]
    split <;> rfl
  | recordVerification now lease =>
    have named := recordVerification_lease change
    cases bounded : boundedLease lease with
    | none =>
      rw [bounded] at named
      exact named.2
    | some l =>
      have idle : ¬ x.status = .active := fun active => none ⟨active, by simp [bounded]⟩
      rw [bounded] at named
      simp only [if_neg idle] at named
      exact named.2

theorem Act.expiresAt_of_starts (change : a.change x = .ok y) (starts : a.Starts x) :
    a.now.addSeconds? y.leaseSeconds = some y.expiresAt := by
  cases a with
  | markActive now lease =>
    obtain ⟨-, -, -, -, ends⟩ := markActive_ok change
    exact ends
  | markFailed now => exact starts.elim
  | markExpired now => exact starts.elim
  | recordVerification now lease =>
    obtain ⟨active, counts⟩ := starts
    obtain ⟨l, bounded⟩ := Option.ne_none_iff_exists'.mp counts
    have named := recordVerification_lease change
    rw [bounded] at named
    simp only [if_pos active] at named
    obtain ⟨lease, ends⟩ := named
    rw [lease]
    exact ends

/-! ## The whole -/

section

variable {id : Uuid} {channelId callbackUrl hubUrl : String} {lease : Int} {secret : Option String}
  {now : Instant}

theorem expiresAt_new (new : new? id channelId callbackUrl hubUrl lease secret now = some s₀) :
    s₀.createdAt.addSeconds? s₀.leaseSeconds = some s₀.expiresAt := by
  obtain ⟨u, ends, rfl⟩ := Option.map_eq_some_iff.mp new
  exact ends

theorem Latest.expiresAt (new : new? id channelId callbackUrl hubUrl lease secret now = some s₀)
    (latest : Latest Act.Starts s₀ acts t z) :
    t.addSeconds? z.leaseSeconds = some z.expiresAt := by
  induction latest with
  | creation => exact expiresAt_new new
  | counted run starts change => exact Act.expiresAt_of_starts change starts
  | passed earlier run none ih => exact ih

/-- At whatever times and in whatever order the hub accepts, refuses and calls back: a subscription
runs out one lease, as it was then, after the last start of a lease, and its lease is the one that
was last settled on. If these are one act, it runs out its lease after that. -/
theorem expiresAt_of_latest
    (new : new? id channelId callbackUrl hubUrl lease secret now = some s₀)
    (run : s₀.after acts = .ok y) :
    (∃ t z, Latest Act.Starts s₀ acts t z ∧
      t.addSeconds? z.leaseSeconds = some y.expiresAt) ∧
    (∃ t z, Latest Act.Settles s₀ acts t z ∧ y.leaseSeconds = z.leaseSeconds) ∧
    ∀ t z, Latest Act.Starts s₀ acts t z →
      Latest Act.Settles s₀ acts t z →
        t.addSeconds? y.leaseSeconds = some y.expiresAt := by
  have ends {t : Instant} {z : Subscription} (latest : Latest Act.Starts s₀ acts t z) :
      t.addSeconds? z.leaseSeconds = some y.expiresAt := by
    rw [latest.kept Act.expiresAt_kept run]
    exact latest.expiresAt new
  have settled {t : Instant} {z : Subscription}
      (latest : Latest Act.Settles s₀ acts t z) :
      y.leaseSeconds = z.leaseSeconds := latest.kept Act.leaseSeconds_kept run
  refine ⟨?_, ?_, fun t z started last => ?_⟩
  · obtain ⟨t, z, latest⟩ := Latest.exists_of_run run
    exact ⟨t, z, latest, ends latest⟩
  · obtain ⟨t, z, latest⟩ := Latest.exists_of_run run
    exact ⟨t, z, latest, settled latest⟩
  · rw [settled last]
    exact ends started

end

/-- Accepted, told of another lease while active, refused, and told of a third one then: the second
lease goes on running. -/
theorem expiresAt_of_latest_refused :
    ∃ s₀ y, new? (.drawn 0) "a" "c" "h" 60 none ⟨0⟩ = some s₀ ∧
      s₀.after [.markActive ⟨10⟩ none, .recordVerification ⟨20⟩ (some 100), .markFailed ⟨30⟩,
        .recordVerification ⟨40⟩ (some 864000)] = .ok y ∧
      y.expiresAt = ⟨20 + 100 * Instant.nanosPerSecond⟩ ∧ y.leaseSeconds = 864000 ∧
      ∃ t z, Latest Act.Starts s₀ [.markActive ⟨10⟩ none, .recordVerification ⟨20⟩ (some 100),
        .markFailed ⟨30⟩, .recordVerification ⟨40⟩ (some 864000)] t z ∧
          t.addSeconds? z.leaseSeconds = some y.expiresAt := by
  have new : new? (.drawn 0) "a" "c" "h" 60 none ⟨0⟩ = some _ := rfl
  exact ⟨_, _, new, rfl, rfl, rfl, (expiresAt_of_latest new rfl).1⟩

/-! ## A lease without its expiry -/

/-- Outside of activity, a subscription runs out its lease after that lease was settled on. -/
def RunsFromSettlement : Prop :=
  ∀ id channelId callbackUrl hubUrl lease secret now s₀ acts y,
    new? id channelId callbackUrl hubUrl lease secret now = some s₀ → s₀.after acts = .ok y →
      y.status ≠ .active →
        ∃ t z, Latest Act.Settles s₀ acts t z ∧ t.addSeconds? y.leaseSeconds = some y.expiresAt

theorem Latest.time_eq_of_counts (latest : Latest counts s₀ (acts ++ [a]) t z)
    (run : s₀.after acts = .ok x) (one : counts x a) : t = a.now := by
  generalize whole : acts ++ [a] = acts' at latest
  cases latest with
  | creation => simp at whole
  | counted run' one' change =>
    obtain ⟨-, same⟩ := List.append_inj' whole rfl
    rw [List.singleton_inj.mp same]
  | passed earlier run' none =>
    obtain ⟨rfl, same⟩ := List.append_inj' whole rfl
    obtain rfl := List.singleton_inj.mp same
    rw [run] at run'
    cases run'
    exact absurd one none

/-- A subscription that the hub has not answered for yet is told of a longer lease, and runs out by
the one that it was created with. -/
theorem named_while_pending : ¬ RunsFromSettlement := by
  intro runs
  let told : Act := .recordVerification ⟨60⟩ (some 864000)
  obtain ⟨t, z, latest, ends⟩ := runs (.drawn 0) "a" "c" "h" 3600 none ⟨0⟩ _ ([] ++ [told]) _ rfl
    rfl (by decide)
  have counts : boundedLease (some 864000) ≠ none := by decide
  have last : t = told.now := latest.time_eq_of_counts rfl counts
  rw [last] at ends
  cases ends

end WebSub.Subscription
