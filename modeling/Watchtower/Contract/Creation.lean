import Watchtower.Abi.Call
import Watchtower.Chain

/-!
# The creation of a game

A game is created by a call of its factory in the L1 block right after its L1 head. The claims stand
in the data of that call only; on chain there is no more than their hash.

* `isCreation` : whether an event announces the creation of a game by its factory;
* `creator?` : the first transaction whose receipt holds such an event;
* `decodeClaims` : the claims in the data of a creating call;
* `creationClaims` : the claims of a game, found through the block.
-/

namespace Watchtower.Contract

def creationSignature : String :=
  "createZkFaultDisputeGame(uint32,bytes32[],uint64,uint64,bytes)"

/-- The hash that marks events of a creation. -/
def creationTopic : Hash := Abi.topic "DisputeGameCreated(address,uint32,bytes32)"

def isCreation (factory game : Address) (event : L1.Event) : Bool :=
  event.address = factory && event.topics[0]? = some creationTopic &&
    event.topics[1]? = some game.padded

def creator? (factory game : Address) (receipts : List L1.Receipt) : Option Hash :=
  (receipts.find? fun receipt => receipt.events.any (isCreation factory game)).map
    L1.Receipt.transaction

/-- What stands in the data of a creating call. -/
structure Creation where
  gameType : Nat
  claims : List Hash
  parentIndex : Nat
  lastBlock : Nat
  extraData : Bytes
  deriving DecidableEq

/-- The decoder has a fault of its own for no data at all, as it has for the answer to a call. -/
def decodeArguments (data : Bytes) : Except AbiFault Creation :=
  if data.isEmpty then .error .emptyData
  else do
    let gameType ← Abi.decodeAt data 0 .number
    let claims ← Abi.decodeAt data 32 .words
    let parentIndex ← Abi.decodeAt data 64 .number
    let lastBlock ← Abi.decodeAt data 96 .number
    let extraData ← Abi.decodeAt data 128 .octets
    return ⟨gameType, claims, parentIndex, lastBlock, extraData⟩

def decodeClaims (input : Bytes) : Except Fault (List Hash) :=
  if input.take 4 = Abi.selector creationSignature then
    match decodeArguments (input.drop 4) with
    | .ok creation => .ok creation.claims
    | .error fault => .error (Cause.abi fault)
  else .error Cause.notCreationCall

def creationClaims (factory game : Address) (head : L1.Head) : Inquiry (List Hash) := do
  let number := head.number + 1
  let header ← Inquiry.fetch (.headerAt number)
  match header.hash with
  | none => throw (Cause.blockWithoutHash number : Fault)
  | some hash =>
    let (_, receipts) ← Inquiry.fetch (.receipts hash)
    match creator? factory game receipts with
    | none => throw (Cause.creationNotFound game number : Fault)
    | some transaction =>
      let block ← Inquiry.fetch (.l1Block hash)
      match block.transactions.find? (·.hash = transaction) with
      | none => throw (Cause.transactionNotFound transaction : Fault)
      | some call =>
        Inquiry.within (.decodingCreation transaction)
          (Inquiry.ofExcept (decodeClaims call.input))

end Watchtower.Contract
