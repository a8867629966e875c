import WebSub.Time.Calendar

/-!
# Instants and durations

Points on the universal time line to the nanosecond, and spans between them. Both have a limited
range; arithmetic that would leave it has no result.
-/

namespace WebSub

/-- Nanoseconds from 1970-01-01T00:00:00Z. -/
structure Instant where
  nanos : Int
deriving DecidableEq, Repr, Inhabited

/-- A span of time in nanoseconds. -/
structure Duration where
  nanos : Int
deriving DecidableEq, Repr

def Instant.nanosPerSecond : Int := 1000000000

namespace Duration

/-- The whole seconds of a span. -/
def seconds (d : Duration) : Int := d.nanos.tdiv Instant.nanosPerSecond

/-- The longest span of whole seconds, in either direction. -/
def maxSeconds : Int := 9223372036854775

def ofSeconds? (s : Int) : Option Duration :=
  if -maxSeconds ≤ s ∧ s ≤ maxSeconds then some ⟨s * Instant.nanosPerSecond⟩ else none

def ofHours? (h : Int) : Option Duration := ofSeconds? (3600 * h)

end Duration

namespace Instant

instance : LE Instant := ⟨fun a b => a.nanos ≤ b.nanos⟩
instance : LT Instant := ⟨fun a b => a.nanos < b.nanos⟩
instance (a b : Instant) : Decidable (a ≤ b) := inferInstanceAs (Decidable (a.nanos ≤ b.nanos))
instance (a b : Instant) : Decidable (a < b) := inferInstanceAs (Decidable (a.nanos < b.nanos))

/-- Midnight at the start of the first representable year. -/
def first : Instant := ⟨(Date.mk (-262143) 1 1).toDays * 86400 * nanosPerSecond⟩

/-- The last nanosecond of the last representable year. -/
def last : Instant := ⟨(Date.mk 262143 1 1).toDays * 86400 * nanosPerSecond - 1⟩

def add? (t : Instant) (d : Duration) : Option Instant :=
  let u : Instant := ⟨t.nanos + d.nanos⟩
  if first ≤ u ∧ u ≤ last then some u else none

/-- The instant a number of seconds later, if the span and the instant can be represented. -/
def addSeconds? (t : Instant) (s : Int) : Option Instant :=
  (Duration.ofSeconds? s).bind t.add?

/-- A whole number of milliseconds later, without regard to the range. -/
def addMillis (t : Instant) (ms : Int) : Instant := ⟨t.nanos + ms * 1000000⟩

end Instant

end WebSub
