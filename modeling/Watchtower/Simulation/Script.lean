import Watchtower.Chain
import Watchtower.Simulation.Nodes

/-!
# A simulated node that follows a script

* `Script` : the replies to the next requests, an L1 node for fetches, and what becomes of the next
  order; what has been asked is kept, the latest first;
* `Script.answer` : how it answers. A request for which nothing is left gets no reply;
* `Script.run` : an inquiry against it;
* `outputReplies` : a script for a batch of outputs.
-/

namespace Watchtower.Simulation

structure Script where
  replies : List (Except RpcFault Json) := []
  l1 : L1Node := {}
  delivery : Delivery := .stopped
  requests : List Request := []
  fetched : List Fetch := []
  /-- The orders that were taken. -/
  orders : List Order := []
  /-- The most requests that were in flight together. -/
  inFlight : Nat := 0

namespace Script

def reply (s : Script) (r : Request) : Except RpcFault Json × Script :=
  match s.replies with
  | [] => (.error (.transport "no response scripted"), { s with requests := r :: s.requests })
  | reply :: replies => (reply, { s with replies, requests := r :: s.requests })

/-- Requests are answered in their order. -/
def replyAll : (requests : List Request) → Script →
    Vector (Except RpcFault Json) requests.length × Script
  | [], s => (#v[], s)
  | r :: rest, s =>
    let (first, s) := s.reply r
    let (others, s) := replyAll rest s
    ((#v[first] ++ others).cast (by simp [Nat.add_comm]), s)

def take (s : Script) (order : Order) : Delivery × Script :=
  match s.delivery with
  | .stopped => (.stopped, s)
  | delivery => (delivery, { s with orders := order :: s.orders })

def answer : (q : Chain.Ask) → Script → Chain.Reply q × Script
  | .send requests, s =>
    replyAll requests { s with inFlight := max s.inFlight requests.length }
  | .fetch what, s => (s.l1.fetch what, { s with fetched := what :: s.fetched })
  | .order order, s => s.take order

/-- The result of an inquiry; nothing if it never returns. -/
def run {α : Type} (s : Script) (x : Inquiry α) : Option (Except Fault α × Script) :=
  Program.run answer x.run s

end Script

/-- An output as the rollup node writes it. -/
def outputJson (o : Rollup.Output) : Json :=
  let hash (h : Hash) : Json := .string h.hex
  let number (n : UInt64) : Json := .integer n.toNat
  let block : Json := .object [("hash", hash o.block.hash), ("number", number o.block.number),
    ("parentHash", hash o.block.parentHash), ("timestamp", number o.block.timestamp)]
  .object [("version", hash o.version), ("outputRoot", hash o.root), ("blockRef", block),
    ("withdrawalStorageRoot", hash o.withdrawalStorageRoot), ("stateRoot", hash o.stateRoot)]

/-- The replies of a rollup node to requests for single outputs, when some blocks fail. -/
def outputReplies (blocks failing : List UInt64) : List (Except RpcFault Json) :=
  blocks.map fun block =>
    if failing.contains block then .error (.returned (-32000) "failing" none)
    else .ok (outputJson (RollupNode.serve {} block))

end Watchtower.Simulation
