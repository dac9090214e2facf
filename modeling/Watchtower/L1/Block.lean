import Watchtower.Bytes

/-!
# L1 blocks as a node reports them

* `Header` : the fields of a block that are used, hash and number missing while it is pending;
* `Head` : a block that a game's claims are anchored to, with both;
* `Transaction`, `Event`, `Receipt` : what is searched for a game's creation.

The same shapes serve L2 blocks.
-/

namespace Watchtower.L1

structure Header where
  hash : Option Hash
  number : Option UInt64
  parentHash : Hash
  stateRoot : Hash
  /-- Seconds since 1970, up to 256 bits. -/
  timestamp : Nat
  /-- How many transactions the block lists. -/
  transactionCount : Nat
  deriving DecidableEq

/-- A block with nothing but a hash and a number. -/
def Header.bare (hash : Option Hash) (number : Option UInt64) : Header :=
  ⟨hash, number, .zero, .zero, 0, 0⟩

structure Head where
  hash : Hash
  number : UInt64
  deriving DecidableEq

structure Transaction where
  hash : Hash
  input : Bytes
  deriving DecidableEq

/-- An event emitted by a contract. -/
structure Event where
  address : Address
  topics : List Hash
  deriving DecidableEq

structure Receipt where
  transaction : Hash
  block : Option Hash
  events : List Event
  deriving DecidableEq

/-- A block together with its transactions. -/
structure Block where
  header : Header
  transactions : List Transaction
  deriving DecidableEq

end Watchtower.L1
