import Watchtower.Text.Numeral
import Watchtower.Text.Visible

/-!
# JSON values

* `Json` : a value as a node answers it; a number is an integer or a float;
* `Json.member?`, `Json.items?`, `Json.string?` : what a value of one kind holds;
* `Json.text` : the value written without blanks;
* `Json.described` : the value with the kind of each part named, as it stands in error texts.
-/

namespace Watchtower

inductive Json
  | null
  | bool (value : Bool)
  | integer (value : Int)
  | float (value : Float)
  | string (value : String)
  | array (items : List Json)
  | object (members : List (String × Json))
  deriving Inhabited

namespace Json

/-- The member of an object, if it has one of that name. -/
def member? (name : String) : Json → Option Json
  | object members => members.lookup name
  | _ => none

def isObject : Json → Bool
  | object _ => true
  | _ => false

def items? : Json → Option (List Json)
  | array items => some items
  | _ => none

def string? : Json → Option String
  | string value => some value
  | _ => none

/-! ## Writing -/

/-- `width` hexadecimal digits of `n`. -/
def hexPlaces (width n : Nat) : String :=
  let digits := Nat.toDigits 16 n
  String.ofList (List.replicate (width - digits.length) '0' ++ digits)

def escapeChar (c : Char) : String :=
  if c = '"' then "\\\""
  else if c = '\\' then "\\\\"
  else if c.toNat < 0x20 then "\\u" ++ hexPlaces 4 c.toNat
  else c.toString

def quoted (s : String) : String :=
  "\"" ++ String.join (s.toList.map escapeChar) ++ "\""

/-- A float with some digits, the last of which is worth `10 ^ last`: positional from `10 ^ (-5)` to
below `10 ^ 16`, otherwise with an exponent that always has a sign. -/
def layout (digits : List Char) (last : Int) : List Char :=
  let first := last + digits.length - 1
  if 0 ≤ last ∧ first < 16 then digits ++ List.replicate last.toNat '0' ++ ".0".toList
  else if 0 ≤ first ∧ first < 16 then
    digits.take (first.toNat + 1) ++ '.' :: digits.drop (first.toNat + 1)
  else if -5 ≤ first ∧ first < 0 then
    "0.".toList ++ List.replicate (-first - 1).toNat '0' ++ digits
  else
    let rest := digits.drop 1
    digits.take 1 ++ (if rest.isEmpty then [] else '.' :: rest) ++
      'e' :: (if first < 0 then '-' else '+') :: (toString first.natAbs).toList

/-- A finite float in the fewest digits that are read as it. -/
def floatText (value : Float) : String :=
  let b := Text.Binary.ofFloat value
  let magnitude := if b.mantissa = 0 then "0.0".toList
    else
      let (digits, last) := b.shortest
      layout (Nat.toDigits 10 digits) last
  String.ofList (if value.toBits < 0x8000000000000000 then magnitude else '-' :: magnitude)

mutual

def text : Json → String
  | null => "null"
  | bool value => if value then "true" else "false"
  | integer value => toString value
  | float value => floatText value
  | string value => quoted value
  | array items => "[" ++ ",".intercalate (itemTexts items) ++ "]"
  | object members => "\x7b" ++ ",".intercalate (memberTexts members) ++ "\x7d"

def itemTexts : List Json → List String
  | [] => []
  | item :: items => item.text :: itemTexts items

def memberTexts : List (String × Json) → List String
  | [] => []
  | (name, value) :: members => (quoted name ++ ":" ++ value.text) :: memberTexts members

end

/-- A character in an error text. One that could not be seen stands there by its number. -/
def spelledChar (c : Char) : String :=
  if c = '\x00' then "\\0"
  else if c = '\t' then "\\t"
  else if c = '\n' then "\\n"
  else if c = '\r' then "\\r"
  else if c = '"' ∨ c = '\\' then "\\" ++ c.toString
  else if Text.isVisible c then c.toString
  else "\\u\x7b" ++ String.ofList (Nat.toDigits 16 c.toNat) ++ "\x7d"

def spelled (s : String) : String :=
  "\"" ++ String.join (s.toList.map spelledChar) ++ "\""

mutual

def described : Json → String
  | null => "Null"
  | bool value => if value then "Bool(true)" else "Bool(false)"
  | integer value => "Number(" ++ toString value ++ ")"
  | float value => "Number(" ++ floatText value ++ ")"
  | string value => "String(" ++ spelled value ++ ")"
  | array items => "Array [" ++ ", ".intercalate (itemsDescribed items) ++ "]"
  | object members => "Object \x7b" ++ ", ".intercalate (membersDescribed members) ++ "\x7d"

def itemsDescribed : List Json → List String
  | [] => []
  | item :: items => item.described :: itemsDescribed items

def membersDescribed : List (String × Json) → List String
  | [] => []
  | (name, value) :: members =>
    (spelled name ++ ": " ++ value.described) :: membersDescribed members

end

end Json

end Watchtower
