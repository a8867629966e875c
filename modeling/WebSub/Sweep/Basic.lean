import WebSub.Service.Basic

/-!
# Sweeps

A sweep renews what runs out soon, a batch at a time, and then marks what has run out. Two sweeps
never overlap, and a shutdown stops one between two writes.
-/

namespace WebSub.Sweep

structure Settings where
  intervalSeconds : Nat
  /-- How far ahead a subscription counts as running out. -/
  lookaheadHours : Int
  /-- How many rows one sweep takes on. -/
  batchSize : Nat
  /-- How many renewals are under way at a time. -/
  concurrency : Nat
deriving DecidableEq, Repr

namespace Settings

/-- The time between two sweeps: at least a second. -/
def interval (s : Settings) : Nat := max s.intervalSeconds 1

/-- The lookahead as a span, if it can be represented. -/
def lookahead? (s : Settings) : Option Duration := Duration.ofHours? s.lookaheadHours

def width (s : Settings) : Nat := max s.concurrency 1

end Settings

/-- Why there was no sweep. -/
inductive Error where
  | alreadyRunning
  | listing (e : Store.Error)
deriving DecidableEq, Repr

def Error.message : Error → String
  | .alreadyRunning => "a renewal sweep is already running"
  | .listing e => "failed to list expiring subscriptions: " ++ e.message

/-- Renews one subscription, unless the shutdown comes first; a write that was begun is finished. -/
def renewOne (s : Subscription) : Flow Renewal := do
  if ← Flow.request .stopped then return .skipped
  match ← Flow.request (.hubUnlessStopped s.hubRequest) with
  | none => return .skipped
  | some result =>
    let (_, outcome) ← Service.applyHubResult s result (← Flow.now)
    match outcome with
    | .ok _ => return .renewed
    | .error _ => return .failed

/-! ## Metrics -/

def sweepCounter (result : String) : Metric := .labelled "renewal_sweeps_total" result

def renewalCounter (result : String) : Metric := .labelled "renewal_subscriptions_total" result

def durationHistogram : Metric := ⟨"renewal_sweep_duration_seconds", []⟩

def countReport (r : Report) : Flow Unit := do
  Flow.count (sweepCounter "completed")
  Flow.request (.count (renewalCounter "renewed") r.succeeded)
  Flow.request (.count (renewalCounter "failed") r.failed)
  Flow.request (.count (renewalCounter "skipped") r.skipped)
  Flow.count durationHistogram

/-! ## The sweep -/

/-- The rows that run out within the lookahead. -/
def due (s : Settings) : Flow (Except Store.Error (List Subscription)) := do
  let now ← Flow.now
  let before ← Flow.ofOption (s.lookahead?.bind now.add?)
  Flow.subscriptions (.findExpiring before s.batchSize)

/-- Marks what has run out, and counts it; a shutdown or a failure leaves all as it is. -/
def markLapsed : Flow Nat := do
  if ← Flow.request .stopped then return 0
  let now ← Flow.now
  return ((← Flow.subscriptions (.markLapsed now)).toOption).getD 0

def sweepLocked (s : Settings) : Flow (Except Error Report) := do
  match ← due s with
  | .error e =>
    Flow.count (sweepCounter "listing_error")
    return .error (.listing e)
  | .ok rows =>
    let renewals ← Flow.ask (.renewAll s.width rows) Flow.ofOption
    let report := Report.ofRenewals renewals (← markLapsed)
    countReport report
    return .ok report

/-- Sweeps if no other sweep is running; the lock is given back in any case. -/
def sweep (s : Settings) : Flow (Except Error Report) := do
  if ← Flow.request .lockSweeps then (sweepLocked s).ensuring (Flow.request .unlockSweeps)
  else return .error .alreadyRunning

end WebSub.Sweep
