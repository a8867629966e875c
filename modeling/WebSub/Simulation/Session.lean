import WebSub.Http.Router
import WebSub.Simulation.Run
import WebSub.Sweep.Ticker

/-!
# Sessions

A simulated subscriber over time. Operations run in the foreground, one after another; the loop of
sweeps and a sweep of its own run in the background, and at most one sweep is under way at a time.
-/

namespace WebSub.Simulation

open Sweep (Renewal Ticker)

/-- Who waits for a sweep to end. -/
inductive Owner where
  | loop
  | task
  | nobody
deriving DecidableEq

/-- What came of a sweep; none if it broke down. -/
abbrev SweepEnd := Option (Except Sweep.Error Sweep.Report)

/-- A sweep that waits for the hub. -/
structure LiveSweep where
  owner : Owner
  pool : Pool
  next : Option (List Renewal) → Flow (Except Sweep.Error Sweep.Report)

/-- The sweep that was started last on its own. -/
inductive Task where
  | running
  | ended (result : SweepEnd)

inductive LoopPhase where
  | idle
  | sweeping
  | finished
deriving DecidableEq

structure Loop where
  ticker : Ticker
  phase : LoopPhase

structure Session where
  app : Http.App
  world : World
  /-- The loop's timer, in seconds. -/
  timer : Nat := 0
  live : Option LiveSweep := none
  task : Option Task := none
  loop : Option Loop := none

namespace Session

/-! ## Sweeps in the background -/

def setPhase (s : Session) (phase : LoopPhase) : Session :=
  { s with loop := s.loop.map fun l => { l with phase } }

/-- Tells the owner of a sweep that it ended. A loop does not outlive the breakdown of a sweep. -/
def endSweep (s : Session) (result : SweepEnd) : Owner → Session
  | .loop => s.setPhase (if result.isNone then .finished else .idle)
  | .task => { s with task := some (.ended result) }
  | .nobody => s

/-- Runs a sweep, or what is left of one, until it ends or waits for the hub. -/
def runSweep (s : Session) (owner : Owner) (f : Flow (Except Sweep.Error Sweep.Report)) :
    Session :=
  match run f s.world with
  | (.ended result, world) => { s with world }.endSweep (some result) owner
  | (.renewing pool next, world) => { s with world, live := some ⟨owner, pool, next⟩ }
  | (_, world) => { s with world }.endSweep none owner

/-- Lets the sweep that waits for the hub go on with a pool. -/
def resumeSweep (s : Session) (l : LiveSweep) (pool : Pool) : Session :=
  match pool.run s.world with
  | (.renewing pool, world) => { s with world, live := some { l with pool } }
  | (.ended renewals, world) =>
    ({ s with world, live := none } : Session).runSweep l.owner (l.next (some renewals))
  | (.crashed, world) => ({ s with world, live := none } : Session).runSweep l.owner (l.next none)

/-- An idle loop stops at the shutdown and sweeps when a tick is due. -/
def turnLoop (s : Session) : Session :=
  match s.loop with
  | some ⟨ticker, .idle⟩ =>
    if s.world.stopped then s.setPhase .finished
    else if ticker.isDue s.timer then
      { s with loop := some ⟨ticker.advance s.timer, .sweeping⟩ }.runSweep .loop
        (Sweep.sweep s.app.sweeps)
    else s
  | _ => s

/-- Lets the background run until it waits: a tick leaves no other tick due, so the loop's second
turn can only be its last. -/
def settle (s : Session) : Session :=
  let s := match s.live with
    | some l => if s.world.stopped then s.resumeSweep l l.pool else s
    | none => s
  s.turnLoop.turnLoop

/-! ## Steps -/

/-- Begins a step: time passes, and the log starts afresh. -/
def begin (s : Session) (ms : Int) : Session := { s with world := (s.world.advance ms).clearLog }

/-- Runs an operation in the foreground; there is no result if it breaks down. -/
def perform {α : Type} (s : Session) (f : Flow α) : Option α × Session :=
  match run f s.world with
  | (.ended a, world) => (some a, { s with world })
  | (_, world) => (none, { s with world })

def sweep (s : Session) : SweepEnd × Session := s.perform (Sweep.sweep s.app.sweeps)

def request (s : Session) (r : Http.Request) : Option Http.Response × Session :=
  s.perform (Http.respond s.app r)

/-- Starts a sweep of its own and tells whether it has ended already. -/
def spawnSweep (s : Session) : Bool × Session :=
  let live := s.live.map fun l => if l.owner = .task then { l with owner := .nobody } else l
  let s := { s with live, task := some .running }.runSweep .task (Sweep.sweep s.app.sweeps)
  (match s.task with | some (.ended _) => true | _ => false, s)

/-- What came of the sweep that was started last, once it has ended. -/
def joinSweep (s : Session) : SweepEnd :=
  match s.task with
  | some (.ended result) => result
  | _ => none

def release (s : Session) : Session :=
  match s.live with
  | some l => s.resumeSweep l l.pool.release
  | none => s

def startLoop (s : Session) : Session :=
  let ticker : Ticker := ⟨s.app.sweeps.interval, s.timer, Nat.le_max_right _ _⟩
  { s with loop := some ⟨ticker, .idle⟩ }

def tick (s : Session) (seconds : Nat) : Session :=
  { s with timer := s.timer + seconds, world := s.world.advance (1000 * seconds) }

def cancel (s : Session) : Session := { s with world := { s.world with stopped := true } }

/-- Whether the loop has come to its end; none if it was never started. -/
def loopFinished? (s : Session) : Option Bool := s.loop.map (·.phase == .finished)

end Session

end WebSub.Simulation
