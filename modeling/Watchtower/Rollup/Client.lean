import Watchtower.Chain
import Watchtower.Rollup.Reading

/-!
# The client of the rollup node

* `output` : the output at one block;
* `outputs` : the outputs at many, in their order. Up to a hundred requests are in flight together,
  and one that fails fails all: the first of them in order is reported, and no further ones are
  made;
* `syncStatus`, `validate` : how far the node has come on L1, and whether that is far enough.
-/

namespace Watchtower.Rollup

def output (block : UInt64) : Inquiry Output :=
  Inquiry.ask (.fetchingOutput block) (.output block) Output.ofJson?

/-- The most requests that are in flight together. -/
def batchSize : Nat := 100

/-- The output in the reply to a request for a block. -/
def outputOf (block : UInt64) (reply : Except RpcFault Json) : Except Fault Output :=
  match Inquiry.readAnswer Output.ofJson? reply with
  | .ok output => .ok output
  | .error fault => .error (Fault.within (.fetchingOutput block) (Cause.rpc fault))

/-- The outputs at some blocks, all requests in flight together. -/
def outputsTogether (blocks : List UInt64) : Inquiry (List Output) := do
  let replies ← Inquiry.query (.send (blocks.map .output))
  Inquiry.ofExcept ((blocks.zip replies.toList).mapM fun (block, reply) => outputOf block reply)

def outputs (blocks : List UInt64) : Inquiry (List Output) :=
  if _ : blocks = [] then return []
  else do
    let fetched ← outputsTogether (blocks.take batchSize)
    return fetched ++ (← outputs (blocks.drop batchSize))
termination_by blocks.length
decreasing_by
  have := List.length_pos_iff.mpr ‹¬blocks = []›
  simp only [List.length_drop, batchSize]
  omega

def syncStatus : Inquiry SyncStatus :=
  Inquiry.ask .fetchingSyncStatus .syncStatus SyncStatus.ofJson?

def validate (head : L1.Head) : Inquiry Unit := do
  let status ← syncStatus
  if status.currentL1.number < head.number then
    throw (Cause.notInSync head status.currentL1.number : Fault)

end Watchtower.Rollup
