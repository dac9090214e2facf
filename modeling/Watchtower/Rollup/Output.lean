import Watchtower.Keccak

/-!
# Outputs of the rollup node

* `Output` : the node's answer for one L2 block; its root commits to the whole L2 state there;
* `StateOutput` : what an output root is the hash of (`StateOutput.root`);
* `SyncStatus` : how far the node has come on L1.
-/

namespace Watchtower.Rollup

/-- A block with its parent and its time. -/
structure BlockRef where
  hash : Hash
  number : UInt64
  parentHash : Hash
  timestamp : UInt64
  deriving DecidableEq

structure Output where
  version : Hash
  root : Hash
  block : BlockRef
  withdrawalStorageRoot : Hash
  stateRoot : Hash
  deriving DecidableEq

/-- The L2 block that an output is about. -/
def Output.number (o : Output) : UInt64 := o.block.number

structure StateOutput where
  stateRoot : Hash
  messagePasserRoot : Hash
  blockHash : Hash
  deriving DecidableEq

/-- The hash of a zero word and the three words: version 0 of the output format. -/
def StateOutput.root (o : StateOutput) : Hash :=
  keccak256 (Hash.zero.bytes ++ o.stateRoot.bytes ++ o.messagePasserRoot.bytes ++ o.blockHash.bytes)

structure SyncStatus where
  /-- The L1 block up to which L2 blocks are derived. -/
  currentL1 : BlockRef
  headL1 : BlockRef
  deriving DecidableEq

end Watchtower.Rollup
