import Watchtower.Fault
import Watchtower.Text.Utf8

/-!
# Values in the contract ABI

The encoding of several values is their heads, a word of 32 octets each, and then their tails. A
value of fixed size is its head; one of variable size has the place of its tail there, counted from
the first head.

* `Kind`, `Kind.Value` : the kinds of values that contracts exchange with the watcher;
* `decodeAt k data head` : the value of kind `k` whose head is at an offset. What an offset or a
  length points to has to lie within the data; nothing else is checked. Tails may stand anywhere,
  and data past the last tail is ignored;
* `decode k data` : the only value of an answer.
-/

namespace Watchtower.Abi

inductive Kind
  | number
  | flag
  | address
  | word
  | words
  | octets
  | text
  deriving DecidableEq

abbrev Kind.Value : Kind → Type
  | .number => Nat
  | .flag => Bool
  | .address => Address
  | .word => Hash
  | .words => List Hash
  | .octets => Bytes
  | .text => String

/-! ## Decoding -/

/-- The first word of the data. -/
def firstWord (data : Bytes) : Except AbiFault Hash :=
  match Hash.ofBytes? (data.take 32) with
  | some word => .ok word
  | none => .error .invalidData

def wordAt (data : Bytes) (offset : Nat) : Except AbiFault Hash := firstWord (data.drop offset)

/-- An offset or a length, which has to fit into 32 bits. -/
def sizeAt (data : Bytes) (offset : Nat) : Except AbiFault Nat := do
  let size := (← wordAt data offset).toNat
  if size < UInt32.size then return size else throw .invalidData

/-- The first `count` words of the data. -/
def firstWords : (count : Nat) → Bytes → Except AbiFault (List Hash)
  | 0, _ => .ok []
  | count + 1, data => do
    let word ← firstWord data
    return word :: (← firstWords count (data.drop 32))

/-- The words of a list whose place is given at `head`. -/
def wordsAt (data : Bytes) (head : Nat) : Except AbiFault (List Hash) := do
  let place ← sizeAt data head
  let count ← sizeAt data place
  firstWords count (data.drop (place + 32))

/-- The octets of a string whose place is given at `head`. -/
def octetsAt (data : Bytes) (head : Nat) : Except AbiFault Bytes := do
  let place ← sizeAt data head
  let length ← sizeAt data place
  if place + 32 + length ≤ data.length then return (data.drop (place + 32)).take length
  else throw .invalidData

/-- A flag is a word of value zero in all but the last octet; it is set if that is one. -/
def flagOf (word : Hash) : Except AbiFault Bool :=
  if word.toNat < 256 then .ok (word.toNat = 1) else .error .invalidData

def decodeAt (data : Bytes) (head : Nat) : (k : Kind) → Except AbiFault k.Value
  | .number => Hash.toNat <$> wordAt data head
  | .flag => wordAt data head >>= flagOf
  | .address => Address.ofWord <$> wordAt data head
  | .word => wordAt data head
  | .words => wordsAt data head
  | .octets => octetsAt data head
  | .text => Text.decodeLossy <$> octetsAt data head

/-- No data at all usually means that there is no contract. -/
def decode (k : Kind) (data : Bytes) : Except AbiFault k.Value :=
  if data.isEmpty then .error .emptyData else decodeAt data 0 k

end Watchtower.Abi
