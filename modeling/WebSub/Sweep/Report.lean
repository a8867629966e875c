/-!
# Sweep reports

What became of the renewals of a sweep, and the numbers in which it is told.
-/

namespace WebSub.Sweep

/-- What became of one due subscription. -/
inductive Renewal where
  /-- The hub accepted and the row was written. -/
  | renewed
  | failed
  /-- Left alone because of a shutdown. -/
  | skipped
deriving DecidableEq, Repr

structure Report where
  /-- How many renewals reached the hub. -/
  attempted : Nat
  succeeded : Nat
  failed : Nat
  skipped : Nat
  /-- How many subscriptions were found to have run out. -/
  lapsed : Nat
deriving DecidableEq, Repr

/-- The report on some renewals and on the lapses that were marked after them. -/
def Report.ofRenewals (renewals : List Renewal) (lapsed : Nat) : Report :=
  let succeeded := renewals.count .renewed
  let failed := renewals.count .failed
  { attempted := succeeded + failed, succeeded, failed, skipped := renewals.count .skipped,
    lapsed }

end WebSub.Sweep
