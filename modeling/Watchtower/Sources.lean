import Watchtower.Rollup.Client
import Watchtower.Rpc.Answer

/-!
# Where chain data comes from

Blocks, receipts and state of L1 or L2 come from an execution node, outputs from the rollup node.

* `Execution.header`, `headerAt`, `block`, `receipts` : what is found in blocks. All receipts have
  to say that they belong to the block;
* `Execution.node`, `code` : entries of the node's database;
* `Execution.stateOutput` : what an output root is made of, read from a block and a proof;
* `Fetch.inquire` : the requests that a fetch leads to, at an execution node or the rollup node;
* `Inquiry.fromNodes` : an inquiry whose fetches are all made so.
-/

namespace Watchtower

/-! ## The client of an execution node -/

namespace Execution

/-- The account whose storage root is part of every output. -/
def messagePasser : Address :=
  ⟨[0x42, 0, 0, 0, 0, 0, 0, 0, 0, 0, 0, 0, 0, 0, 0, 0, 0, 0, 0, 0x16], rfl⟩

/-- A value that may be missing, which is written as null. -/
def nullable {α : Type} (item : Json → Option α) (value : Json) : Option (Option α) :=
  if value.isNull then some none else some <$> item value

def header (hash : Hash) : Inquiry L1.Header := do
  match ← Inquiry.ask (.fetchingBlock hash) (.blockByHash hash false)
    (nullable L1.Header.ofJson?) with
  | some header => return header
  | none => throw (Cause.blockNotFound hash : Fault)

def headerAt (number : UInt64) : Inquiry L1.Header := do
  match ← Inquiry.ask (.fetchingNumber number) (.blockByNumber number)
    (nullable L1.Header.ofJson?) with
  | some header => return header
  | none => throw (Cause.numberNotFound number : Fault)

def block (hash : Hash) : Inquiry L1.Block := do
  match ← Inquiry.ask (.fetchingBlock hash) (.blockByHash hash true)
    (nullable L1.Block.ofJson?) with
  | some block => return block
  | none => throw (Cause.blockNotFound hash : Fault)

def receipts (hash : Hash) : Inquiry (L1.Header × List L1.Receipt) := do
  let header ← header hash
  let receipts ← Inquiry.ask (.fetchingReceipts hash) (.receipts hash)
    (Json.list? L1.Receipt.ofJson?)
  match receipts.find? (·.block ≠ some hash) with
  | some receipt => throw (Cause.foreignReceipt receipt.transaction hash : Fault)
  | none => return (header, receipts)

def database (key : Bytes) : Inquiry Bytes :=
  Inquiry.ask (.fetchingKey key) (.database key) Json.octets?

def node (hash : Hash) : Inquiry Bytes := database hash.bytes

/-- Code is kept under the letter `c` and its hash. -/
def code (hash : Hash) : Inquiry Bytes := database (0x63 :: hash.bytes)

def stateOutput (block : Hash) : Inquiry Rollup.StateOutput := do
  let header ← header block
  let root ← Inquiry.ask (.fetchingProof block) (.proof messagePasser block) storageRoot?
  return ⟨header.stateRoot, root, block⟩

end Execution

/-! ## All sources -/

def Fetch.inquire : (what : Fetch) → Inquiry what.Value
  | .header hash => Execution.header hash
  | .headerAt number => Execution.headerAt number
  | .l1Block hash | .l2Block hash => Execution.block hash
  | .receipts block => Execution.receipts block
  | .node hash => Execution.node hash
  | .code hash => Execution.code hash
  | .stateOutput block => Execution.stateOutput block
  | .output block => Rollup.output block
  | .outputs blocks => Rollup.outputs blocks

/-- How `fromNodes` answers a question. -/
def Inquiry.sourced : (q : Chain.Ask) → Program Chain (Chain.Reply q)
  | .fetch what => (Fetch.inquire what).run
  | q => Inquiry.query q

def Inquiry.fromNodes {α : Type} (x : Inquiry α) : Inquiry α := ExceptT.mk (x.run.handle sourced)

end Watchtower
