import WebSub.Simulation.World
import WebSub.Sweep.Basic

/-!
# Running flows

A flow runs in the simulated world until it ends or waits for the hub. The renewals of a sweep run
side by side: those that can go on do so in turn, and a new one begins when one has ended.
-/

namespace WebSub.Simulation

open Sweep (Renewal)

/-! ## Waiting -/

/-- A call to the hub that has no answer yet, and how its flow goes on; the answer is none if the
shutdown comes first. -/
structure HeldCall (α : Type) where
  reply : Reply
  next : Option Hub.Result → Flow α

/-- A renewal that can go on. -/
inductive Turn where
  | begin (s : Subscription)
  | resume (call : HeldCall Renewal)

/-- The renewals of a sweep. -/
structure Pool where
  /-- How many may be under way. -/
  limit : Nat
  waiting : List Subscription
  ready : List Turn
  held : List (HeldCall Renewal)
  ended : List Renewal

/-- How far a flow came. -/
inductive Progress (α : Type) where
  | ended (a : α)
  | crashed
  | held (call : HeldCall α)
  | renewing (pool : Pool) (next : Option (List Renewal) → Flow α)
  /-- The flow waits for something that never comes. -/
  | stuck

/-- How far the renewals of a sweep came. -/
inductive PoolProgress where
  | ended (renewals : List Renewal)
  | crashed
  | renewing (pool : Pool)

/-! ## A single flow -/

/-- Runs a flow; `renew` runs the renewals that it asks for. -/
def runWith {α : Type} (renew : Pool → World → PoolProgress × World) :
    Flow α → World → Progress α × World
  | .done a, w => (.ended a, w)
  | .crash, w => (.crashed, w)
  | .ask .now next, w => runWith renew (next w.clock) w
  | .ask .freshId next, w => let (id, w) := w.drawId; runWith renew (next id) w
  | .ask (.subscriptions c) next, w =>
    let (a, w) := w.askSubscriptions c
    runWith renew (next a) w
  | .ask (.events c) next, w => let (a, w) := w.askEvents c; runWith renew (next a) w
  | .ask (.hub mode r) next, w =>
    let (reply, w) := w.beginCall mode r
    if reply.blocks then (.stuck, w)
    else match w.deliver reply with
      | (some result, w) => runWith renew (next result) w
      | (none, w) => (.stuck, w)
  | .ask (.hubUnlessStopped r) next, w =>
    if w.stopped then runWith renew (next none) w
    else
      let (reply, w) := w.beginCall .subscribe r
      if reply.blocks then (.held ⟨reply, next⟩, w)
      else match w.deliver reply with
        | (some result, w) => runWith renew (next (some result)) w
        | (none, w) => (.held ⟨reply, next⟩, w)
  | .ask .stopped next, w => runWith renew (next w.stopped) w
  | .ask (.handle event n) next, w =>
    let (a, w) := w.handle event n
    runWith renew (next a) w
  | .ask .lockSweeps next, w => let (a, w) := w.lockSweeps; runWith renew (next a) w
  | .ask .unlockSweeps next, w => runWith renew (next ()) { w with sweeping := false }
  | .ask (.renewAll limit rows) next, w =>
    match renew ⟨limit, rows, [], [], []⟩ w with
    | (.ended renewals, w) => runWith renew (next (some renewals)) w
    | (.crashed, w) => runWith renew (next none) w
    | (.renewing pool, w) => (.renewing pool next, w)
  | .ask (.count m amount) next, w => runWith renew (next ()) (w.count m amount)

/-! ## Renewals side by side -/

/-- Runs a renewal, which asks for no further renewals. -/
def runTurn (turn : Turn) (w : World) : Progress Renewal × World :=
  let run (f : Flow Renewal) (w : World) := runWith (fun _ w => (.crashed, w)) f w
  match turn with
  | .begin s => run (Sweep.renewOne s) w
  | .resume call =>
    if w.stopped then run (call.next none) w
    else match w.deliver call.reply with
      | (some result, w) => run (call.next (some result)) w
      | (none, w) => (.held { call with reply := { call.reply with blocks := false } }, w)

namespace Pool

def fill (p : Pool) : Pool :=
  let room := p.limit - (p.ready.length + p.held.length)
  { p with
    waiting := p.waiting.drop room, ready := p.ready ++ (p.waiting.take room).map Turn.begin }

def turns (p : Pool) : Nat := 2 * p.waiting.length + p.ready.length

theorem turns_fill_le (p : Pool) : p.fill.turns ≤ p.turns := by
  simp only [turns, fill, List.length_drop, List.length_append, List.length_map, List.length_take]
  omega

/-- Lets renewals go on in turn until all have ended or wait. -/
def drain (p : Pool) (w : World) : PoolProgress × World :=
  match _h : p.ready with
  | [] => (if p.held.isEmpty then .ended p.ended else .renewing p, w)
  | turn :: ready =>
    match runTurn turn w with
    | (.ended r, w) => drain ({ p with ready, ended := p.ended ++ [r] } : Pool).fill w
    | (.held call, w) => drain { p with ready, held := p.held ++ [call] } w
    | (_, w) => (.crashed, w)
termination_by p.turns
decreasing_by
  · have := turns_fill_le { p with ready, ended := p.ended ++ [r] }
    simp only [turns, _h, List.length_cons] at this ⊢
    omega
  · simp [turns, _h]

def resumeAll (p : Pool) : Pool := { p with ready := p.ready ++ p.held.map .resume, held := [] }

/-- Lets the calls that wait for a release go on. -/
def release (p : Pool) : Pool :=
  let (released, held) := p.held.partition (·.reply.blocks)
  { p with ready := p.ready ++ released.map .resume, held }

/-- Runs as far as possible; a shutdown ends the wait of every call. -/
def run (p : Pool) (w : World) : PoolProgress × World :=
  match p.fill.drain w with
  | (.renewing p, w) => if w.stopped then p.resumeAll.drain w else (.renewing p, w)
  | other => other

end Pool

def run {α : Type} (f : Flow α) (w : World) : Progress α × World := runWith Pool.run f w

end WebSub.Simulation
