import Watchtower.Schedule
import Watchtower.Simulation.Nodes

/-!
# A simulated world for watchers

* `World` : the games, the nodes, the clock, who takes the transactions, the signal to stop, the
  time passed, and what has been asked and reported, the latest first;
* `World.answer` : how the world answers a watcher. Requests take no time, and a pause takes the
  least time it may, unless the signal to stop has been given;
* `World.run` : a program against the world;
* `World.polling` : many watchers in the world, each on its own clockwork.
-/

namespace Watchtower.Simulation

/-- How the rollup node's progress on L1 compares with what is asked. -/
inductive Sync
  | synced
  /-- It has come to the block before the one asked about. -/
  | behind
  | failing (text : String)

/-- Who takes the transactions. -/
structure Sender where
  failure : TransactionKind → Option String := fun _ => none
  /-- Transactions are taken, but change nothing. -/
  landless : Bool := false

structure World where
  games : List Game := []
  rollup : RollupNode := {}
  l1 : L1Node := {}
  clock : UInt64 := 1060
  sync : Sync := .synced
  sender : Sender := {}
  /-- The signal to stop has been given. -/
  stopped : Bool := false
  /-- Milliseconds passed. -/
  time : Nat := 0
  asked : List (Watch.Ask Nat) := []
  notices : List Notice := []

def transactionKind : Watchtower.Game.Action → TransactionKind
  | .resolveClaim => .resolveClaim
  | .resolve => .resolve
  | .challenge _ => .challenge

namespace World

def readGame (w : World) (index : Nat) (what : Read) : Except Fault (what.Value Nat) :=
  match w.games[index]? with
  | some game => game.read what
  | none => .error (Cause.reported "no such game")

def validate (w : World) (head : L1.Head) : Except Fault Unit :=
  match w.sync with
  | .synced => .ok ()
  | .behind => .error (Cause.notInSync head (satSub head.number 1))
  | .failing text => .error (Cause.reported text)

/-- A transaction that is taken changes every game at the address. -/
def submit (w : World) (address : Address) (action : Watchtower.Game.Action) :
    Except Fault Unit × World :=
  match w.sender.failure (transactionKind action) with
  | some text => (.error (Cause.reported text), w)
  | none =>
    if w.sender.landless then (.ok (), w)
    else
      let games := w.games.map fun g => if g.address = address then g.land action else g
      (.ok (), { w with games })

/-- The world after a request to the rollup node. -/
def afterRollup (w : World) (rollup : RollupNode) (stops : Bool) : World :=
  { w with rollup, stopped := w.stopped || stops }

def answer : (q : Watch.Ask Nat) → World → Watch.Reply Nat q × World
  | .fetch what, w =>
    let w := { w with asked := .fetch what :: w.asked }
    match what with
    | .output block =>
      let (result, rollup, stops) := w.rollup.output block
      (some result, w.afterRollup rollup stops)
    | .outputs blocks =>
      let (result, rollup, stops) := w.rollup.outputs blocks
      (some result, w.afterRollup rollup stops)
    | what => (some (w.l1.fetch what), w)
  | .read game what, w => (w.readGame game what, { w with asked := .read game what :: w.asked })
  | .validate head, w => (w.validate head, { w with asked := .validate head :: w.asked })
  | .submit address action, w =>
    { w with asked := .submit address action :: w.asked }.submit address action
  | .now, w => (w.clock, w)
  | .stopping, w => (w.stopped, w)
  | .pause least _, w => if w.stopped then (true, w) else (false, { w with time := w.time + least })
  | .notify notice, w => ((), { w with notices := notice :: w.notices })

/-- A program against the world; nothing if it never returns. -/
def run {α : Type} (w : World) (p : Program (Watch Nat) α) : Option (α × World) :=
  p.run answer w

/-- Many watchers in one world: only pauses take time, the least they may. -/
def polling (period : Nat) (tick : Watcher Nat → Program (Watch Nat) (Watcher Nat)) :
    Polling Nat World where
  period
  tick
  answer _ := answer
  delay _ q w := match q with
    | .pause least _ => some (if w.stopped then 0 else least)
    | _ => some 0
  stopped := World.stopped

end World

end Watchtower.Simulation
