import Watchtower.Json
import Watchtower.Json.Record
import Watchtower.L1.Block
import Watchtower.Rollup.Output

/-!
# Heads, outputs and sync states as the rollup node writes them

Every member is required. `L1.Head.parse`, `Output.parse`, `SyncStatus.parse` read a text, and
`Output.ofJson?`, `SyncStatus.ofJson?` a value that has been read already.
-/

namespace Watchtower

open Json (Reader Member Misread)

/-- The value of one member. -/
inductive Rollup.Part
  | hash (value : Hash)
  | number (value : UInt64)
  | block (value : Rollup.BlockRef)

namespace Rollup.Part

def hashMember (name : String) : Member Part := .of name (hash <$> Reader.hash)

def numberMember (name : String) : Member Part := .of name (number <$> Reader.word)

end Rollup.Part

open Rollup.Part

namespace L1.Head

def fields : List (Member Rollup.Part) := [hashMember "hash", numberMember "number"]

def reader : Reader Head := do
  match ← Reader.record fields with
  | [.hash hash, .number number] => return ⟨hash, number⟩
  | _ => throw .mismatch

def parse (text : String) : Except Misread Head := Reader.whole reader text

end L1.Head

namespace Rollup

namespace BlockRef

def fields : List (Member Part) :=
  [hashMember "hash", numberMember "number", hashMember "parentHash", numberMember "timestamp"]

def reader : Reader BlockRef := do
  match ← Reader.record fields with
  | [.hash hash, .number number, .hash parentHash, .number timestamp] =>
    return ⟨hash, number, parentHash, timestamp⟩
  | _ => throw .mismatch

end BlockRef

def Part.blockMember (name : String) : Member Part := .of name (block <$> BlockRef.reader)

namespace Output

def fields : List (Member Part) :=
  [hashMember "version", hashMember "outputRoot", blockMember "blockRef",
   hashMember "withdrawalStorageRoot", hashMember "stateRoot"]

def reader : Reader Output := do
  match ← Reader.record fields with
  | [.hash version, .hash root, .block block, .hash withdrawalStorageRoot, .hash stateRoot] =>
    return ⟨version, root, block, withdrawalStorageRoot, stateRoot⟩
  | _ => throw .mismatch

def parse (text : String) : Except Misread Output := Reader.whole reader text

def ofJson? (value : Json) : Option Output := (parse value.text).toOption

end Output

namespace SyncStatus

def fields : List (Member Part) := [blockMember "current_l1", blockMember "head_l1"]

def reader : Reader SyncStatus := do
  match ← Reader.record fields with
  | [.block currentL1, .block headL1] => return ⟨currentL1, headL1⟩
  | _ => throw .mismatch

def parse (text : String) : Except Misread SyncStatus := Reader.whole reader text

def ofJson? (value : Json) : Option SyncStatus := (parse value.text).toOption

end SyncStatus

end Rollup

end Watchtower
