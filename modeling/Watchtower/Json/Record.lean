import Watchtower.Json.Reader

/-!
# Reading JSON objects with known members

* `Member` : the name of a member and how its value is read;
* `Reader.record` : an object whose members have the given names, each once and in any order, or an
  array of their values in the given order. Members of other names are skipped, whatever they hold.
-/

namespace Watchtower.Json

structure Member (V : Type) where
  name : Bytes
  read : Reader V

/-- A member named by text. -/
def Member.of {V : Type} (name : String) (read : Reader V) : Member V := ⟨name.toUTF8.toList, read⟩

namespace Reader

variable {V : Type}

/-- One member of an object; the values found so far stand with their names, the latest first. -/
def member (fields : List (Member V)) (found : List (Bytes × V)) : Reader (List (Bytes × V)) := do
  mark 0x22
  let name ← text true
  match fields.find? (·.name = name) with
  | none =>
    mark 0x3a
    skipValue
    return found
  | some field =>
    if (found.lookup name).isSome then throw .mismatch
    mark 0x3a
    return (name, ← field.read) :: found

/-- The values of an array, one for each field; after the first each is preceded by a comma. -/
def elements : (fields : List (Member V)) → (first : Bool) → Reader (List V)
  | [], _ => do
    mark 0x5d
    return []
  | field :: fields, first => do
    if (← peek) = 0x5d then throw .mismatch
    unless first do mark 0x2c
    let value ← field.read
    return value :: (← elements fields false)

/-- The values of the fields, in their order. -/
def record (fields : List (Member V)) : Reader (List V) := do
  let b ← peek
  if b = 0x7b then
    mark 0x7b
    let found ← items (member fields) 0x7d []
    match fields.mapM fun field => found.lookup field.name with
    | some values => return values
    | none => throw .mismatch
  else if b = 0x5b then
    mark 0x5b
    elements fields true
  else unexpected

end Reader

end Watchtower.Json
