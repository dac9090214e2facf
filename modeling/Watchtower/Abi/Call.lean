import Watchtower.Abi
import Watchtower.Keccak

/-!
# The data of a contract call

* `Argument` : a value with its kind;
* `encode` : the heads of arguments and then their tails, in order and without gaps;
* `selector signature` : the first four octets of the hash of a function's signature;
* `callData` : the selector and the encoded arguments;
* `topic signature` : the hash that marks the events of a signature.
-/

namespace Watchtower.Abi

structure Argument where
  kind : Kind
  value : kind.Value

/-- The fewest zeros that fill `length` octets up to whole words. -/
def fill (length : Nat) : Bytes := List.replicate ((32 - length % 32) % 32) 0

/-- A length and as many octets, filled up to whole words. -/
def lengthAndOctets (bytes : Bytes) : Bytes :=
  bigEndian 32 bytes.length ++ bytes ++ fill bytes.length

/-- What stands in the head of a value of fixed size. -/
def Argument.fixed? : Argument → Option Bytes
  | ⟨.number, n⟩ => some (bigEndian 32 n)
  | ⟨.flag, b⟩ => some (bigEndian 32 (if b then 1 else 0))
  | ⟨.address, a⟩ => some a.padded.bytes
  | ⟨.word, w⟩ => some w.bytes
  | ⟨.words, _⟩ | ⟨.octets, _⟩ | ⟨.text, _⟩ => none

/-- The tail of a value of variable size. -/
def Argument.tail : Argument → Bytes
  | ⟨.words, ws⟩ => bigEndian 32 ws.length ++ ws.flatMap Hash.bytes
  | ⟨.octets, bytes⟩ => lengthAndOctets bytes
  | ⟨.text, s⟩ => lengthAndOctets s.toUTF8.toList
  | _ => []

/-- The heads and the tails, the first tail being at `place`. -/
def headsAndTails : (place : Nat) → List Argument → Bytes × Bytes
  | _, [] => ([], [])
  | place, argument :: arguments =>
    match argument.fixed? with
    | some head =>
      let (heads, tails) := headsAndTails place arguments
      (head ++ heads, tails)
    | none =>
      let (heads, tails) := headsAndTails (place + argument.tail.length) arguments
      (bigEndian 32 place ++ heads, argument.tail ++ tails)

def encode (arguments : List Argument) : Bytes :=
  let (heads, tails) := headsAndTails (32 * arguments.length) arguments
  heads ++ tails

def topic (signature : String) : Hash := keccak256 signature.toUTF8.toList

def selector (signature : String) : Bytes := (topic signature).bytes.take 4

def callData (signature : String) (arguments : List Argument) : Bytes :=
  selector signature ++ encode arguments

end Watchtower.Abi
