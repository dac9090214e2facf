import Watchtower.Json
import Watchtower.Json.Reader

/-!
# JSON texts as values

* `Reader.value` : any value. An integer that fits into 64 bits, with a sign or without, stays an
  integer, and any other number becomes a float; of members of one name the last counts, and they
  come out in ascending order of their names;
* `ofText` : a whole text as a value.
-/

namespace Watchtower.Json

namespace Reader

/-- A number, unless it is beyond the floats. Zero with a minus sign is a float. -/
def Numeral.value? (n : Numeral) : Option Json :=
  let magnitude := decimal n.whole
  match n.fraction, n.exponent with
  | none, none =>
    if n.negative then
      if 0 < magnitude ∧ 2 * magnitude ≤ UInt64.size then some (.integer (-magnitude))
      else float <$> n.float?
    else if magnitude < UInt64.size then some (.integer magnitude)
    else float <$> n.float?
  | _, _ => float <$> n.float?

def number : Reader Json := do
  match (← numeral .early).value? with
  | some value => return value
  | none => throw .malformed

/-- The characters of a string after its opening quote. -/
def characters : Reader String := do
  match String.fromUTF8? ⟨(← Reader.text true).toArray⟩ with
  | some s => return s
  | none => throw .malformed

/-- Puts a member in its place, for an earlier one of its name if there is one. -/
def insertMember (name : String) (value : Json) : List (String × Json) → List (String × Json)
  | [] => [(name, value)]
  | (other, old) :: rest =>
    if name < other then (name, value) :: (other, old) :: rest
    else if name = other then (name, value) :: rest
    else (other, old) :: insertMember name value rest

/-- A name in quotes and a colon are before a value. -/
def valueMember (value : Reader Json) (found : List (String × Json)) :
    Reader (List (String × Json)) := do
  mark 0x22
  let name ← characters
  mark 0x3a
  return insertMember name (← value) found

/-- Any value, nested at most `depth` deep. -/
def nestedValue : (depth : Nat) → Reader Json
  | 0 => throw .malformed
  | depth + 1 => do
    let b ← peek
    if isDigit b || b = 0x2d then number
    else
      mark b
      if b = 0x6e then
        literal [0x75, 0x6c, 0x6c]
        return null
      else if b = 0x74 then
        literal [0x72, 0x75, 0x65]
        return bool true
      else if b = 0x66 then
        literal [0x61, 0x6c, 0x73, 0x65]
        return bool false
      else if b = 0x22 then return string (← characters)
      else if b = 0x5b then
        let found ← items (fun found => return (← nestedValue depth) :: found) 0x5d []
        return array found.reverse
      else if b = 0x7b then return object (← items (valueMember (nestedValue depth)) 0x7d [])
      else throw .malformed

def value : Reader Json := do nestedValue ((← remaining) + 1)

end Reader

def ofText (text : String) : Except Misread Json := Reader.whole Reader.value text

end Watchtower.Json
