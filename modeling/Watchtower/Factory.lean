import Watchtower.Contract

/-!
# The factory of dispute games

The factory lists every game it has created, of whatever type, the oldest first.

* `Listing` : what the factory says about a game;
* `Factory.gameCount`, `Factory.gameAt` : the list, as calls of the factory's contract.
-/

namespace Watchtower

structure Listing where
  gameType : UInt32
  createdAt : UInt64
  game : Address
  deriving DecidableEq

namespace Factory

def decodeListing (data : Bytes) : Except AbiFault Listing := do
  let gameType ← Abi.decodeAt data 0 .number
  let createdAt ← Abi.decodeAt data 32 .number
  let game ← Abi.decodeAt data 64 .address
  return ⟨UInt32.ofNat gameType, UInt64.ofNat createdAt, game⟩

/-- No data at all usually means that there is no factory. -/
def listing? (reply : Except RpcFault Json) : Except CallFault Listing := do
  let data ← Contract.replyData reply
  if data.isEmpty then throw (.abi .emptyData)
  else match decodeListing data with
    | .ok listing => return listing
    | .error fault => throw (.abi fault)

/-- A call of the factory, whose fault is told as it is. -/
def call {α : Type} (factory : Address) (data : Bytes)
    (result : Except RpcFault Json → Except CallFault α) : Inquiry α := do
  match result (← Inquiry.request (.call factory data)) with
  | .ok value => return value
  | .error fault => throw (Cause.call fault : Fault)

/-- How many games the factory has created. -/
def gameCount (factory : Address) : Inquiry Nat :=
  call factory (Abi.callData "gameCount()" []) (Contract.answer .number)

def gameAt (factory : Address) (index : Nat) : Inquiry Listing :=
  call factory (Abi.callData "gameAtIndex(uint256)" [⟨.number, index⟩]) listing?

end Factory

end Watchtower
