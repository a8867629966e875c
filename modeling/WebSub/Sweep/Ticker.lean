/-!
# Tickers

When the background loop sweeps: at once, and then once a period. Of several missed ticks one fires
late, and those after it keep to the multiples of the period.
-/

namespace WebSub.Sweep

/-- A row of deadlines on a timer that counts seconds. -/
structure Ticker where
  period : Nat
  deadline : Nat
  period_pos : 0 < period

namespace Ticker

def isDue (t : Ticker) (timer : Nat) : Bool := decide (t.deadline ≤ timer)

/-- The ticker after a tick at `timer`; what was missed by then is skipped. -/
def advance (t : Ticker) (timer : Nat) : Ticker :=
  { t with deadline :=
      if t.deadline < timer then timer + t.period - (timer - t.deadline) % t.period
      else t.deadline + t.period }

theorem advance_not_due (t : Ticker) (timer : Nat) : (t.advance timer).isDue timer = false := by
  have h := Nat.mod_lt (timer - t.deadline) t.period_pos
  have p := t.period_pos
  simp only [isDue, advance]
  split <;> simp <;> omega

end Ticker

end WebSub.Sweep
