import Watchtower.Simulation.Game

/-!
# Simulated nodes

* `RollupNode` : serves outputs, with every way in which a node may disappoint: it fails, has not
  derived a block yet, answers out of order, leaves out blocks, adds others, or answers for another
  block. One of its requests may set off the signal to stop;
* `L1Node` : knows every hash; its blocks may lack a hash or a number. The receipts and transactions
  of all its blocks are the same.
-/

namespace Watchtower.Simulation

structure RollupNode where
  /-- How many requests are still refused. -/
  failures : Nat := 0
  /-- Batches come back in reverse order. -/
  reverse : Bool := false
  /-- Blocks added to every batch. -/
  extra : List UInt64 := []
  /-- Blocks left out of every batch. -/
  omitted : List UInt64 := []
  /-- The last block that is derived, if not all are. -/
  derived : Option UInt64 := none
  /-- The roots of blocks that have not the honest one. -/
  roots : List (UInt64 × Hash) := []
  /-- The blocks that are answered for instead of others. -/
  remap : List (UInt64 × UInt64) := []
  /-- The request at which the signal to stop is given. -/
  stopAt : Option Nat := none
  /-- How many requests have been made. -/
  requests : Nat := 0

namespace RollupNode

def serve (n : RollupNode) (block : UInt64) : Rollup.Output :=
  let number := (n.remap.lookup block).getD block
  let root := (n.roots.lookup block).getD (honestRoot number)
  ⟨.zero, root, ⟨.zero, number, .zero, 0⟩, .zero, .zero⟩

/-- One request for some blocks: the node after it, whether it gives the signal to stop, and why it
fails, if it does. -/
def request (n : RollupNode) (blocks : List UInt64) : RollupNode × Bool × Option Cause :=
  let n := { n with requests := n.requests + 1 }
  let stops := n.stopAt == some n.requests
  let missing := n.derived.bind fun last => blocks.find? (last < ·)
  match missing, n.failures with
  | some block, _ => (n, stops, some (.reported s!"output at block {block} not found"))
  | none, 0 => (n, stops, none)
  | none, failures + 1 => ({ n with failures }, stops, some (.reported "connection refused"))

def output (n : RollupNode) (block : UInt64) :
    Except Fault Rollup.Output × RollupNode × Bool :=
  match n.request [block] with
  | (n, stops, some cause) => (.error cause, n, stops)
  | (n, stops, none) => (.ok (n.serve block), n, stops)

def outputs (n : RollupNode) (blocks : List UInt64) :
    Except Fault (List Rollup.Output) × RollupNode × Bool :=
  match n.request blocks with
  | (n, stops, some cause) => (.error cause, n, stops)
  | (n, stops, none) =>
    let served := (blocks.filter (· ∉ n.omitted)).map n.serve
    let served := if n.reverse then served.reverse else served
    (.ok (served ++ n.extra.map n.serve), n, stops)

end RollupNode

structure L1Node where
  /-- The number of every block, if blocks have one. -/
  number : Option UInt64 := some 7
  /-- Blocks have no hash. -/
  hashless : Bool := false
  receipts : List L1.Receipt := []
  transactions : List L1.Transaction := []
  /-- The text with which a request fails, if it does. -/
  failure : Fetch → Option String := fun _ => none

namespace L1Node

def header (n : L1Node) (hash : Hash) : L1.Header :=
  .bare (if n.hashless then none else some hash) n.number

/-- The answer to a request for L1 data, or for other data that the node does not have. -/
def fetch (n : L1Node) (what : Fetch) : Except Fault what.Value :=
  match n.failure what with
  | some text => .error (Cause.reported text)
  | none => match what with
    | .header hash => .ok (n.header hash)
    | .headerAt number => .ok (n.header (.ofNat number.toNat))
    | .l1Block hash => .ok ⟨n.header hash, n.transactions⟩
    | .receipts block => .ok (n.header block, n.receipts)
    | .l2Block _ | .node _ | .code _ | .stateOutput _ | .output _ | .outputs _ =>
      .error (Cause.reported "not an L1 request")

end L1Node

end Watchtower.Simulation
