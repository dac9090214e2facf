import Watchtower.Json
import Watchtower.L1.Block
import Watchtower.Bytes.Hex
import Watchtower.Text.Numeral

/-!
# Blocks, receipts and proofs as an execution node writes them

* `Json.hash?`, `Json.number?`, `Json.octets?` … : values that stand in strings. A number is
  written in hexadecimal; a JSON number is refused;
* `Json.required`, `Json.optional`, `Json.defaulted` : members of an object that have to be there,
  may be missing or null, and may be missing but not null;
* `Json.asRecord` : an object that may also be written as the array of its members;
* `L1.Header.ofJson?`, `L1.Block.ofJson?`, `L1.Receipt.ofJson?`, `storageRoot?` : the shapes.
  Members that are not used have to be well formed all the same.
-/

namespace Watchtower

namespace Json

/-- Octets, of a given number. -/
def fixed? (size : Nat) (value : Json) : Option Bytes :=
  value.string? >>= fun s => fixedHex? size s.toList

def octets? (value : Json) : Option Bytes := value.string? >>= ofHex?

def hash? (value : Json) : Option Hash := value.string? >>= Hash.ofHex?

def address? (value : Json) : Option Address := value.string? >>= Address.ofHex?

/-- A number of up to 256 bits. -/
def number? (value : Json) : Option Nat := value.string? >>= quantity? 64

/-- A number of up to 64 bits. -/
def word? (value : Json) : Option UInt64 :=
  UInt64.ofNat <$> (value.string? >>= quantity? 16)

def list? {α : Type} (item : Json → Option α) (value : Json) : Option (List α) :=
  value.items? >>= List.mapM item

def flag? : Json → Option Bool
  | .bool value => some value
  | _ => none

def isNull : Json → Bool
  | .null => true
  | _ => false

/-- An array of as many items as there are names, as the object that they are the members of. -/
def asRecord (names : List String) : Json → Json
  | array items => if items.length = names.length then object (names.zip items) else array items
  | value => value

variable {α : Type}

def required (object : Json) (name : String) (item : Json → Option α) : Option α :=
  object.member? name >>= item

/-- The value of a member that may be missing or null; nothing if it is malformed. -/
def optional (object : Json) (name : String) (item : Json → Option α) : Option (Option α) :=
  match object.member? name with
  | none => some none
  | some value => if value.isNull then some none else some <$> item value

def defaulted (object : Json) (name : String) (default : α) (item : Json → Option α) : Option α :=
  match object.member? name with
  | none => some default
  | some value => item value

end Json

open Json

/-- A contract's storage keys that a transaction announces. -/
def accessListItem? (value : Json) : Option Unit := do
  let value := value.asRecord ["address", "storageKeys"]
  let _ ← value.required "address" address?
  let _ ← value.required "storageKeys" (list? hash?)

/-- A withdrawal from the consensus layer. -/
def withdrawal? (value : Json) : Option Unit := do
  let value := value.asRecord ["index", "validatorIndex", "address", "amount"]
  let _ ← value.required "index" word?
  let _ ← value.required "validatorIndex" word?
  let _ ← value.required "address" address?
  let _ ← value.required "amount" number?

namespace L1

def Transaction.ofJson? (value : Json) : Option Transaction := do
  let hash ← value.required "hash" hash?
  let _ ← value.required "nonce" number?
  let _ ← value.optional "blockHash" hash?
  let _ ← value.optional "blockNumber" word?
  let _ ← value.optional "transactionIndex" word?
  let _ ← value.defaulted "from" .zero address?
  let _ ← value.optional "to" address?
  let _ ← value.required "value" number?
  let _ ← value.optional "gasPrice" number?
  let _ ← value.required "gas" number?
  let input ← value.required "input" octets?
  let _ ← value.required "v" word?
  let _ ← value.required "r" number?
  let _ ← value.required "s" number?
  let _ ← value.optional "type" word?
  let _ ← value.optional "accessList" (list? accessListItem?)
  let _ ← value.optional "maxPriorityFeePerGas" number?
  let _ ← value.optional "maxFeePerGas" number?
  let _ ← value.optional "chainId" number?
  return ⟨hash, input⟩

/-- A block whose transactions are read by `item`. -/
def blockOfJson? {α : Type} (item : Json → Option α) (value : Json) :
    Option (Header × List α) := do
  if !value.isObject then none
  let hash ← value.optional "hash" hash?
  let parentHash ← value.defaulted "parentHash" .zero hash?
  let _ ← value.defaulted "sha3Uncles" .zero hash?
  let _ ← value.optional "miner" address?
  let stateRoot ← value.defaulted "stateRoot" .zero hash?
  let _ ← value.defaulted "transactionsRoot" .zero hash?
  let _ ← value.defaulted "receiptsRoot" .zero hash?
  let number ← value.optional "number" word?
  let _ ← value.defaulted "gasUsed" 0 number?
  let _ ← value.defaulted "gasLimit" 0 number?
  let _ ← value.defaulted "extraData" [] octets?
  let _ ← value.optional "logsBloom" (fixed? 256)
  let timestamp ← value.defaulted "timestamp" 0 number?
  let _ ← value.defaulted "difficulty" 0 number?
  let _ ← value.optional "totalDifficulty" number?
  let _ ← value.optional "sealFields" (list? octets?)
  let _ ← value.defaulted "uncles" [] (list? hash?)
  let transactions ← value.defaulted "transactions" [] (list? item)
  let _ ← value.optional "size" number?
  let _ ← value.optional "mixHash" hash?
  let _ ← value.optional "nonce" (fixed? 8)
  let _ ← value.optional "baseFeePerGas" number?
  let _ ← value.optional "blobGasUsed" number?
  let _ ← value.optional "excessBlobGas" number?
  let _ ← value.optional "withdrawalsRoot" hash?
  let _ ← value.optional "withdrawals" (list? withdrawal?)
  let _ ← value.optional "parentBeaconBlockRoot" hash?
  return (⟨hash, number, parentHash, stateRoot, timestamp, transactions.length⟩, transactions)

/-- A block that lists the hashes of its transactions. -/
def Header.ofJson? (value : Json) : Option Header := Prod.fst <$> blockOfJson? hash? value

/-- A block that lists its transactions in full. -/
def Block.ofJson? (value : Json) : Option Block := do
  let (header, transactions) ← blockOfJson? Transaction.ofJson? value
  return ⟨header, transactions⟩

def Event.ofJson? (value : Json) : Option Event := do
  let value := value.asRecord ["address", "topics", "data", "blockHash", "blockNumber",
    "transactionHash", "transactionIndex", "logIndex", "transactionLogIndex", "logType", "removed"]
  let address ← value.required "address" address?
  let topics ← value.required "topics" (list? hash?)
  let _ ← value.required "data" octets?
  let _ ← value.optional "blockHash" hash?
  let _ ← value.optional "blockNumber" word?
  let _ ← value.optional "transactionHash" hash?
  let _ ← value.optional "transactionIndex" word?
  let _ ← value.optional "logIndex" number?
  let _ ← value.optional "transactionLogIndex" number?
  let _ ← value.optional "logType" string?
  let _ ← value.optional "removed" flag?
  return ⟨address, topics⟩

def Receipt.ofJson? (value : Json) : Option Receipt := do
  let transaction ← value.required "transactionHash" hash?
  let _ ← value.required "transactionIndex" word?
  let block ← value.optional "blockHash" hash?
  let _ ← value.optional "blockNumber" word?
  let _ ← value.required "from" address?
  let _ ← value.optional "to" address?
  let _ ← value.required "cumulativeGasUsed" number?
  let _ ← value.optional "gasUsed" number?
  let _ ← value.optional "contractAddress" address?
  let events ← value.required "logs" (list? Event.ofJson?)
  let _ ← value.optional "status" word?
  let _ ← value.optional "root" hash?
  let _ ← value.required "logsBloom" (fixed? 256)
  let _ ← value.optional "type" word?
  let _ ← value.optional "effectiveGasPrice" number?
  return ⟨transaction, block, events⟩

end L1

/-- The place of a storage slot: a JSON integer, or a text in hexadecimal after `0x` or in decimal.
Of decimal texts the empty one stands for zero, and those below `2 ^ 128` may have a plus sign. -/
def slot? : Json → Option Nat
  | .integer n => if n < 0 then none else some n.toNat
  | .string s =>
    match s.toList with
    | '0' :: 'x' :: digits => if digits.length ≤ 64 then hexNumber? digits else none
    | '+' :: digits => Text.below? (Nat.pow 2 128) ('+' :: digits)
    | digits => (Text.decimalFrom? 0 digits).filter (· < Nat.pow 2 256)
  | _ => none

/-- A slot of a contract's storage and what proves it. -/
def storageProof? (value : Json) : Option Unit := do
  let value := value.asRecord ["key", "proof", "value"]
  let _ ← value.required "key" slot?
  let _ ← value.required "proof" (list? octets?)
  let _ ← value.required "value" number?

/-- The storage root of an account, from what proves its state. -/
def storageRoot? (value : Json) : Option Hash := do
  let value := value.asRecord ["address", "balance", "codeHash", "nonce", "storageHash",
    "accountProof", "storageProof"]
  let _ ← value.required "address" address?
  let _ ← value.required "balance" number?
  let _ ← value.required "codeHash" hash?
  let _ ← value.required "nonce" word?
  let root ← value.required "storageHash" hash?
  let _ ← value.required "accountProof" (list? octets?)
  let _ ← value.required "storageProof" (list? storageProof?)
  return root

end Watchtower
