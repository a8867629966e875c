import WebSub.Flow.Request

/-!
# What a change leaves and what it sets

How hub answers, callbacks and the passing of time change the lease, the expiry and the status of a
subscription, and when a change stops because an instant is out of range.
-/

namespace WebSub

/-! ## Arithmetic on instants -/

namespace Instant

theorem addSeconds?_nanos {t u : Instant} {l : Int} (h : t.addSeconds? l = some u) :
    u.nanos = t.nanos + l * nanosPerSecond := by
  unfold addSeconds? Duration.ofSeconds? at h
  split at h
  case isTrue =>
    simp only [Option.bind_some, add?] at h
    split at h
    · rw [← Option.some.inj h]
    · cases h
  case isFalse => cases h

/-- The longest lease from the instant on is still in range. -/
def HasRoom (t : Instant) : Prop := t.nanos + maxLeaseSeconds * nanosPerSecond ≤ last.nanos

theorem addSeconds?_ne_none {t : Instant} (reading : first ≤ t) (room : t.HasRoom) {l : Int}
    (pos : 0 < l) (short : l ≤ maxLeaseSeconds) : t.addSeconds? l ≠ none := by
  have span : -Duration.maxSeconds ≤ l ∧ l ≤ Duration.maxSeconds := by
    unfold Duration.maxSeconds maxLeaseSeconds at *
    omega
  have range : first ≤ ⟨t.nanos + l * nanosPerSecond⟩ ∧
      (⟨t.nanos + l * nanosPerSecond⟩ : Instant) ≤ last := by
    have reading' : first.nanos ≤ t.nanos := reading
    unfold HasRoom maxLeaseSeconds nanosPerSecond at room
    unfold maxLeaseSeconds at short
    constructor
    · show first.nanos ≤ t.nanos + l * nanosPerSecond
      unfold nanosPerSecond
      omega
    · show t.nanos + l * nanosPerSecond ≤ last.nanos
      unfold nanosPerSecond
      omega
  unfold addSeconds? Duration.ofSeconds?
  rw [if_pos span]
  simp only [Option.bind_some, add?]
  rw [if_pos range]
  exact Option.some_ne_none _

end Instant

/-! ## Leases -/

def IsLease (l : Int) : Prop := 1 ≤ l ∧ l ≤ maxLeaseSeconds

namespace Subscription

variable {s y : Subscription} {now : Instant} {lease : Option Int}

theorem boundedLease_eq_some {l : Int} (h : boundedLease lease = some l) :
    IsLease l ∧ ∃ l₀, lease = some l₀ ∧ 0 < l₀ := by
  obtain ⟨l₀, kept, rfl⟩ := Option.map_eq_some_iff.mp h
  obtain ⟨given, pos⟩ := Option.filter_eq_some_iff.mp kept
  have pos' : 0 < l₀ := by simpa using pos
  refine ⟨⟨?_, Int.min_le_right ..⟩, l₀, given, pos'⟩
  unfold maxLeaseSeconds
  omega

theorem boundedLease_cut {l : Int} (h : boundedLease lease = some l) :
    ∃ l₀, lease = some l₀ ∧ l = min l₀ maxLeaseSeconds := by
  obtain ⟨l₀, kept, rfl⟩ := Option.map_eq_some_iff.mp h
  exact ⟨l₀, (Option.filter_eq_some_iff.mp kept).1, rfl⟩

theorem boundedLease_some (l : Int) :
    boundedLease (some l) = if 0 < l then some (min l maxLeaseSeconds) else none := by
  unfold boundedLease Option.filter
  by_cases positive : 0 < l
  · simp only [positive, decide_true, if_true, Option.map_some]
  · simp [positive]

/-! ## Answers of the hub -/

/-- The row that follows from what the hub answered. -/
def settled (s : Subscription) (result : Hub.Result) (now : Instant) : Change :=
  match result with
  | .ok response => s.markActive now response.leaseSeconds
  | .error _ => .ok (s.markFailed now)

def decided : Hub.Result → Status
  | .ok _ => .active
  | .error _ => .failed

theorem restartLease_ok (h : s.restartLease now = .ok y) :
    now.addSeconds? s.leaseSeconds = some y.expiresAt ∧
      y = { s with expiresAt := y.expiresAt } := by
  unfold restartLease at h
  split at h
  case h_1 t far =>
    cases h
    exact ⟨far, rfl⟩
  case h_2 => cases h

theorem restartLease_error (h : s.restartLease now = .error y) :
    now.addSeconds? s.leaseSeconds = none := by
  unfold restartLease at h
  split at h
  case h_1 => cases h
  case h_2 far => exact far

theorem transition?_active (s : Subscription) (now : Instant) :
    s.transition? .active now = some { s with status := .active, updatedAt := now } := by
  unfold transition?
  cases s.status <;> rfl

theorem markFailed_eq (s : Subscription) (now : Instant) :
    s.markFailed now = { s with status := .failed, updatedAt := now } := by
  unfold markFailed transition?
  cases s.status <;> rfl

theorem markActive_ok (h : s.markActive now lease = .ok y) :
    y.id = s.id ∧ y.lastVerifiedAt = s.lastVerifiedAt ∧ y.status = .active ∧
      (y.leaseSeconds = s.leaseSeconds ∨ IsLease y.leaseSeconds) ∧
      now.addSeconds? y.leaseSeconds = some y.expiresAt := by
  unfold markActive at h
  rw [transition?_active] at h
  simp only at h
  split at h
  case h_1 l bounded =>
    obtain ⟨far, same⟩ := restartLease_ok h
    rw [same]
    exact ⟨rfl, rfl, rfl, Or.inr (boundedLease_eq_some bounded).1, far⟩
  case h_2 =>
    obtain ⟨far, same⟩ := restartLease_ok h
    rw [same]
    exact ⟨rfl, rfl, rfl, Or.inl rfl, far⟩

theorem markActive_lease (h : s.markActive now lease = .ok y) :
    y.leaseSeconds = s.leaseSeconds ∨ boundedLease lease = some y.leaseSeconds := by
  unfold markActive at h
  rw [transition?_active] at h
  simp only at h
  split at h
  case h_1 l bounded =>
    rw [(restartLease_ok h).2]
    exact Or.inr bounded
  case h_2 =>
    rw [(restartLease_ok h).2]
    exact Or.inl rfl

theorem markActive_error (h : s.markActive now lease = .error y) :
    ∃ l, (l = s.leaseSeconds ∨ IsLease l) ∧ now.addSeconds? l = none := by
  unfold markActive at h
  rw [transition?_active] at h
  simp only at h
  split at h
  case h_1 l bounded => exact ⟨l, Or.inr (boundedLease_eq_some bounded).1, restartLease_error h⟩
  case h_2 =>
    have far := restartLease_error h
    exact ⟨s.leaseSeconds, Or.inl rfl, far⟩

theorem settled_ok {result : Hub.Result} (h : s.settled result now = .ok y) :
    y.id = s.id ∧ y.lastVerifiedAt = s.lastVerifiedAt ∧ y.status = decided result := by
  cases result with
  | ok response =>
    obtain ⟨id, verified, status, -⟩ := markActive_ok h
    exact ⟨id, verified, status⟩
  | error e =>
    cases h
    rw [markFailed_eq]
    exact ⟨rfl, rfl, rfl⟩

/-- Up to lease and expiry, the answer fixes the row. -/
theorem settled_eq {result : Hub.Result} (h : s.settled result now = .ok y) :
    y = { s with leaseSeconds := y.leaseSeconds, expiresAt := y.expiresAt,
                 status := decided result, updatedAt := now } := by
  cases result with
  | ok response =>
    simp only [settled, markActive, transition?_active] at h
    split at h
    · rw [(restartLease_ok h).2]
      rfl
    · rw [(restartLease_ok h).2]
      rfl
  | error e =>
    cases h
    rw [markFailed_eq]
    rfl

theorem settled_error {result : Hub.Result} (h : s.settled result now = .error y) :
    ∃ l, (l = s.leaseSeconds ∨ IsLease l) ∧ now.addSeconds? l = none := by
  cases result with
  | ok response => exact markActive_error h
  | error e => cases h

/-! ## Callbacks -/

theorem recordVerification_eq (h : s.recordVerification now lease = .ok y) :
    y = { s with leaseSeconds := y.leaseSeconds, expiresAt := y.expiresAt,
                 lastVerifiedAt := some now, updatedAt := now } := by
  unfold recordVerification at h
  simp only at h
  split at h
  case h_1 =>
    cases h
    rfl
  case h_2 l bounded =>
    split at h
    case isTrue active =>
      cases started : ({ s with lastVerifiedAt := some now, leaseSeconds := l } :
          Subscription).restartLease now with
      | error z =>
        rw [started] at h
        cases h
      | ok z =>
        rw [started] at h
        cases h
        rw [(restartLease_ok started).2]
    case isFalse idle =>
      cases h
      rfl

theorem recordVerification_lease (h : s.recordVerification now lease = .ok y) :
    match boundedLease lease with
    | none => y.leaseSeconds = s.leaseSeconds ∧ y.expiresAt = s.expiresAt
    | some l =>
      y.leaseSeconds = l ∧
        if s.status = .active then now.addSeconds? l = some y.expiresAt
        else y.expiresAt = s.expiresAt := by
  unfold recordVerification at h
  cases bounded : boundedLease lease with
  | none =>
    simp only [bounded] at h
    cases h
    exact ⟨rfl, rfl⟩
  | some l =>
    simp only [bounded] at h
    split at h
    case isTrue active =>
      cases started : ({ s with lastVerifiedAt := some now, leaseSeconds := l } :
          Subscription).restartLease now with
      | error z =>
        rw [started] at h
        cases h
      | ok z =>
        rw [started] at h
        cases h
        obtain ⟨far, same⟩ := restartLease_ok started
        rw [same]
        refine ⟨rfl, ?_⟩
        rw [if_pos active]
        exact far
    case isFalse idle =>
      cases h
      refine ⟨rfl, ?_⟩
      rw [if_neg idle]

/-- A callback leaves lease and expiry, or it sets the lease; then an active row runs from now
on. -/
theorem recordVerification_ok (h : s.recordVerification now lease = .ok y) :
    y.id = s.id ∧ y.lastVerifiedAt = some now ∧ y.status = s.status ∧
      ((y.leaseSeconds = s.leaseSeconds ∧ y.expiresAt = s.expiresAt) ∨
        boundedLease lease = some y.leaseSeconds ∧
          if s.status = .active then now.addSeconds? y.leaseSeconds = some y.expiresAt
          else y.expiresAt = s.expiresAt) := by
  have named := recordVerification_lease h
  have same := recordVerification_eq h
  refine ⟨by rw [same], by rw [same], by rw [same], ?_⟩
  cases bounded : boundedLease lease with
  | none =>
    rw [bounded] at named
    exact Or.inl named
  | some l =>
    rw [bounded] at named
    obtain ⟨rfl, ends⟩ := named
    exact Or.inr ⟨rfl, ends⟩

theorem recordVerification_error (h : s.recordVerification now lease = .error y) :
    s.status = .active ∧ ∃ l, boundedLease lease = some l ∧ now.addSeconds? l = none := by
  unfold recordVerification at h
  simp only at h
  split at h
  case h_1 => cases h
  case h_2 l bounded =>
    split at h
    case isTrue active =>
      cases started : ({ s with lastVerifiedAt := some now, leaseSeconds := l } :
          Subscription).restartLease now with
      | error z => exact ⟨active, l, bounded, restartLease_error started⟩
      | ok z =>
        rw [started] at h
        cases h
    case isFalse idle => cases h

/-! ## Lapses -/

theorem markExpired_eq (s : Subscription) (now : Instant) :
    (s.markExpired now).1 =
      if s.isLapsed now then { s with status := .expired, updatedAt := now } else s := by
  unfold markExpired
  split
  case isTrue lapsed =>
    have active : s.status = .active := by
      simp only [isLapsed, Bool.and_eq_true, beq_iff_eq] at lapsed
      exact lapsed.1
    simp only [transition?, active]
    rfl
  case isFalse => rfl

end Subscription

end WebSub
