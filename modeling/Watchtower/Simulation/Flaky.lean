import Watchtower.Simulation.Nodes

/-!
# A simulated source that fails, hangs and is told to stop

* `Flaky` : serves every kind of request, but refuses the first few, may hang at one, and may fail
  as cancelled at one. At one of its requests, or at a moment, the signal to stop is given;
* `Flaky.answer` : how it answers a program that asks for nothing but chain data. Requests take no
  time, and a pause takes the least time it may;
* `Flaky.run` : a program against it.
-/

namespace Watchtower.Simulation

structure Flaky where
  /-- How many requests are still refused. -/
  failures : Nat := 0
  /-- The request at which the signal to stop is given. -/
  stopAt : Option Nat := none
  /-- The request that fails as cancelled. -/
  cancelledAt : Option Nat := none
  /-- The request that is never answered. -/
  hangAt : Option Nat := none
  /-- How many requests have been made. -/
  requests : Nat := 0
  /-- The signal to stop has been given. -/
  stopped : Bool := false
  /-- The millisecond at which the signal to stop is given. -/
  stopTime : Option Nat := none
  /-- Milliseconds passed. -/
  time : Nat := 0
  /-- How many pauses of no length have been made in a row. -/
  unbroken : Nat := 0
  /-- What has been asked for, the latest first. -/
  asked : List Fetch := []
  /-- What has been reported, the latest first. -/
  notices : List Notice := []

namespace Flaky

/-- What it serves when nothing goes wrong; a batch comes in reverse order. -/
def serve : (what : Fetch) → what.Value
  | .header hash => .bare (some hash) (some 7)
  | .headerAt number => .bare (some (.ofNat number.toNat)) (some number)
  | .l1Block hash | .l2Block hash => ⟨.bare (some hash) (some 7), []⟩
  | .receipts block => (.bare (some block) (some 7), [⟨.zero, some block, []⟩])
  | .node _ => [0xc0]
  | .code _ => [0x60, 0x00]
  | .stateOutput block => ⟨.zero, .zero, block⟩
  | .output block => RollupNode.serve {} block
  | .outputs blocks => blocks.reverse.map (RollupNode.serve {})

/-- The source once the signal to stop has been given, if it ever is while nothing else happens. -/
def awaitStop (f : Flaky) : Option Flaky :=
  if f.stopped then some f
  else f.stopTime.map fun time => { f with stopped := true, time := max f.time time }

/-- One request; a hanging one is cut short by the signal to stop. -/
def fetch (f : Flaky) (what : Fetch) : Option (Except Fault what.Value) × Flaky :=
  let requests := f.requests + 1
  let refused := f.failures ≠ 0
  let f := { f with
    requests
    asked := what :: f.asked
    failures := f.failures - 1
    stopped := f.stopped || f.stopAt == some requests }
  if f.hangAt == some requests then (none, f.awaitStop.getD f)
  else if f.cancelledAt == some requests then (some (.error Cause.cancelled), f)
  else if refused then (some (.error (Cause.reported "request timed out")), f)
  else (some (.ok (serve what)), f)

/-- How many pauses of no length may be made in a row before something else has its turn. -/
def maxUnbroken : Nat := 128

/-- Whether the signal to stop has been given, at the beginning of a request. If too many pauses of
no length have gone before, something else has its turn first. -/
def begin (f : Flaky) : Bool × Flaky :=
  let f := if f.unbroken < maxUnbroken then f
    else { f with unbroken := 0, stopped := f.stopped || f.stopTime.any (· ≤ f.time) }
  (f.stopped, f)

/-- A pause, and whether the signal to stop cut it short. One of no length leaves no time for the
signal, unless too many are made in a row. -/
def pause (f : Flaky) (least : Nat) : Bool × Flaky :=
  if least = 0 ∧ f.unbroken < maxUnbroken then (false, { f with unbroken := f.unbroken + 1 })
  else
    let f := { f with unbroken := 1 }
    if f.stopped then (true, f)
    else match f.stopTime with
      | some time =>
        if time ≤ f.time + least then (true, { f with stopped := true, time := max f.time time })
        else (false, { f with time := f.time + least })
      | none => (false, { f with time := f.time + least })

def answer : (q : Watch.Ask Empty) → Flaky → Watch.Reply Empty q × Flaky
  | .fetch what, f => f.fetch what
  | .read game _, _ => game.elim
  | .validate _, f | .submit .., f => (.ok (), f)
  | .now, f => (0, f)
  | .stopping, f => f.begin
  | .pause least _, f => f.pause least
  | .notify notice, f => ((), { f with notices := notice :: f.notices })

def run {α : Type} (f : Flaky) (p : Program (Watch Empty) α) : Option (α × Flaky) :=
  p.run answer f

end Flaky

end Watchtower.Simulation
