import Watchtower.Bytes.Hex

/-!
# Reading JSON text

A reader takes what it reads off the front of an octet string and reports the first problem from
left to right.

* `Misread` : the text ends too early, is not JSON, or is JSON of another kind than expected;
* `Reader α` : the readers, a monad;
* `text` : a string after its opening quote. A string that is only skipped may hold unpaired
  surrogates;
* `numeral` : a number as it is written, `Numeral.word?` its value if it is a 64-bit integer;
* `skipValue` : any value at all;
* `hash`, `word` : a hash and a 64-bit integer; any other value is a mismatch, once what tells its
  kind is read without a problem;
* `whole` : a text that is one value and blanks around it.
-/

namespace Watchtower.Json

inductive Misread
  | early
  | malformed
  | mismatch
  deriving DecidableEq

abbrev Reader (α : Type) : Type := StateT Bytes (Except Misread) α

namespace Reader

def isBlank (b : UInt8) : Bool := b = 0x20 || b = 0x0a || b = 0x09 || b = 0x0d

def isDigit (b : UInt8) : Bool := 0x30 ≤ b && b ≤ 0x39

/-- The octet after any blanks, which stays. -/
def peek : Reader UInt8 := fun bytes =>
  match bytes.dropWhile isBlank with
  | [] => .error .early
  | b :: rest => .ok (b, b :: rest)

/-- The octet after any blanks, taken off. -/
def next : Reader UInt8 := fun bytes =>
  match bytes.dropWhile isBlank with
  | [] => .error .early
  | b :: rest => .ok (b, rest)

/-- One octet that has to come next, after any blanks. -/
def mark (b : UInt8) : Reader Unit := do
  if (← next) ≠ b then throw .malformed

/-- How many octets are left: no loop of a reader goes more rounds. -/
def remaining : Reader Nat := fun bytes => .ok (bytes.length, bytes)

/-- Octets that have to come next. -/
def literal : Bytes → Reader Unit
  | [], bytes => .ok ((), bytes)
  | _ :: _, [] => .error .early
  | b :: expected, c :: bytes => if b = c then literal expected bytes else .error .malformed

/-! ## Strings -/

def hexValue? (b : UInt8) : Option Nat := hexDigitValue? (Char.ofNat b.toNat)

/-- The number written in four hexadecimal digits. -/
def hexQuad : Reader Nat
  | a :: b :: c :: d :: rest =>
    match hexValue? a, hexValue? b, hexValue? c, hexValue? d with
    | some i, some j, some k, some l => .ok (((i * 16 + j) * 16 + k) * 16 + l, rest)
    | _, _, _, _ => .error .malformed
  | _ => .error .early

/-- The second half of a character beyond 16 bits, whose first half is `lead`. -/
def trailingHalf (lead : Nat) : Reader Bytes
  | [] => .error .early
  | b :: bytes =>
    if b ≠ 0x5c then .error .malformed
    else match bytes with
      | [] => .error .early
      | u :: bytes =>
        if u ≠ 0x75 then .error .malformed
        else do
          let (trail, rest) ← hexQuad bytes
          if trail < 0xdc00 || 0xdfff < trail then .error .malformed
          else
            let code := 0x10000 + (lead - 0xd800) * 0x400 + (trail - 0xdc00)
            .ok (String.utf8EncodeChar (Char.ofNat code), rest)

/-- What an escape of one letter stands for. -/
def plainEscape? (b : UInt8) : Option UInt8 :=
  if b = 0x22 || b = 0x5c || b = 0x2f then some b
  else if b = 0x62 then some 0x08
  else if b = 0x66 then some 0x0c
  else if b = 0x6e then some 0x0a
  else if b = 0x72 then some 0x0d
  else if b = 0x74 then some 0x09
  else none

/-- An escape after its backslash. -/
def escape (strict : Bool) : Reader Bytes
  | [] => .error .early
  | b :: bytes =>
    if b = 0x75 then do
      let (code, rest) ← hexQuad bytes
      if !strict then .ok ([], rest)
      else if 0xdc00 ≤ code && code ≤ 0xdfff then .error .malformed
      else if code < 0xd800 || 0xdbff < code then
        .ok (String.utf8EncodeChar (Char.ofNat code), rest)
      else trailingHalf code rest
    else match plainEscape? b with
      | some c => .ok ([c], bytes)
      | none => .error .malformed

/-- A string after its opening quote, up to and with the closing one, of at most `size` parts. -/
def textParts (strict : Bool) : (size : Nat) → Reader Bytes
  | 0, _ => .error .early
  | _ + 1, [] => .error .early
  | size + 1, b :: bytes =>
    if b = 0x22 then .ok ([], bytes)
    else if b = 0x5c then do
      let (part, rest) ← escape strict bytes
      let (parts, rest) ← textParts strict size rest
      .ok (part ++ parts, rest)
    else if b < 0x20 then .error .malformed
    else do
      let (parts, rest) ← textParts strict size bytes
      .ok (b :: parts, rest)

/-- The octets of a string after its opening quote. -/
def text (strict : Bool) : Reader Bytes := do textParts strict (← remaining)

/-! ## Numbers -/

/-- A number as written, its digits as octets. -/
structure Numeral where
  negative : Bool
  whole : Bytes
  /-- The digits after the point, if there is one. -/
  fraction : Option Bytes
  /-- The sign and the digits of the exponent, if there is one. -/
  exponent : Option (Bool × Bytes)

/-- The digits that come next. -/
def digits : Reader Bytes := fun bytes => .ok (bytes.takeWhile isDigit, bytes.dropWhile isDigit)

/-- At least one digit; `atEnd` is the problem if the text ends instead. -/
def someDigits (atEnd : Misread) : Reader Bytes := fun bytes =>
  match bytes.takeWhile isDigit, bytes with
  | [], [] => .error atEnd
  | [], _ :: _ => .error .malformed
  | found, _ => .ok (found, bytes.dropWhile isDigit)

/-- Takes an octet off if it is one of `marks`. -/
def optionalMark (marks : Bytes) : Reader (Option UInt8)
  | [] => .ok (none, [])
  | b :: bytes => if marks.contains b then .ok (some b, bytes) else .ok (none, b :: bytes)

/-- Digits without a leading zero. -/
def wholeDigits (atEnd : Misread) : Reader Bytes := do
  let found ← someDigits atEnd
  if found.head? = some 0x30 && 1 < found.length then throw .malformed
  return found

def numeral (atEnd : Misread) : Reader Numeral := do
  let sign ← optionalMark [0x2d]
  let whole ← wholeDigits atEnd
  let fraction ← match ← optionalMark [0x2e] with
    | none => pure none
    | some _ => some <$> someDigits atEnd
  let exponent ← match ← optionalMark [0x65, 0x45] with
    | none => pure none
    | some _ => do
      let sign ← optionalMark [0x2b, 0x2d]
      let found ← someDigits atEnd
      pure (some (sign == some 0x2d, found))
  return ⟨sign.isSome, whole, fraction, exponent⟩

def digitValue (b : UInt8) : Nat := b.toNat - 0x30

def decimal (found : Bytes) : Nat := found.foldl (fun n b => n * 10 + digitValue b) 0

/-- The value of an unsigned integer of 64 bits. -/
def Numeral.word? (n : Numeral) : Option UInt64 :=
  match n.negative, n.fraction, n.exponent with
  | false, none, none =>
    let value := decimal n.whole
    if value < UInt64.size then some (.ofNat value) else none
  | _, _, _ => none

/-- Takes digits on to `kept` while it stays within 64 bits, and counts those it leaves. -/
def keepDigits (kept : Nat) : Bytes → Nat × Nat
  | [] => (kept, 0)
  | b :: rest =>
    if kept * 10 + digitValue b < UInt64.size then keepDigits (kept * 10 + digitValue b) rest
    else (kept, rest.length + 1)

/-- A float divided by a power of ten, by at most `10 ^ 308` at a time. -/
def scaledDown (f : Float) (places : Nat) : Float :=
  if places ≤ 308 then f / Float.ofScientific 1 false places
  else if f == 0 then f
  else scaledDown (f / Float.ofScientific 1 false 308) (places - 308)
termination_by places
decreasing_by omega

/-- The float that the number is read as, unless it is beyond the floats. Only as many digits count
as fit into 64 bits, and they are scaled in floating point. -/
def Numeral.float? (n : Numeral) : Option Float :=
  let (kept, left) := keepDigits 0 n.whole
  let fraction := n.fraction.getD []
  let (kept, unread) := keepDigits kept fraction
  let shift : Int := match n.exponent with
    | none => 0
    | some (negative, found) => if negative then -(decimal found : Int) else decimal found
  let scale : Int := shift + left - (fraction.length - unread)
  let digits := (UInt64.ofNat kept).toFloat
  let magnitude := if scale < 0 then scaledDown digits scale.natAbs
    else if kept = 0 then digits
    else digits * Float.ofScientific 1 false (min scale.toNat 309)
  if magnitude.isInf then none else some (if n.negative then -magnitude else magnitude)

def Numeral.isHuge (n : Numeral) : Bool := n.float?.isNone

/-! ## Values -/

/-- Items parted by commas, after the first of which a closing mark may come; each changes `s`. -/
def itemsFrom {σ : Type} (item : σ → Reader σ) (close : UInt8) : (rounds : Nat) → σ → Reader σ
  | 0, _ => throw .malformed
  | rounds + 1, s => do
    let s ← item s
    let b ← next
    if b = 0x2c then itemsFrom item close rounds s
    else if b = close then return s
    else throw .malformed

/-- Items parted by commas up to a closing mark. -/
def items {σ : Type} (item : σ → Reader σ) (close : UInt8) (s : σ) : Reader σ := do
  if (← peek) = close then
    mark close
    return s
  else itemsFrom item close (← remaining) s

/-- A name in quotes and a colon are before a value. -/
def skipMember (value : Reader Unit) : Reader Unit := do
  mark 0x22
  let _ ← text false
  mark 0x3a
  value

/-- Any value, nested at most `depth` deep. -/
def skipNested : (depth : Nat) → Reader Unit
  | 0 => throw .malformed
  | depth + 1 => do
    let b ← peek
    if isDigit b || b = 0x2d then
      let _ ← numeral .malformed
    else
      mark b
      if b = 0x6e then literal [0x75, 0x6c, 0x6c]
      else if b = 0x74 then literal [0x72, 0x75, 0x65]
      else if b = 0x66 then literal [0x61, 0x6c, 0x73, 0x65]
      else if b = 0x22 then
        let _ ← text false
      else if b = 0x5b then items (fun () => skipNested depth) 0x5d ()
      else if b = 0x7b then items (fun () => skipMember (skipNested depth)) 0x7d ()
      else throw .malformed

def skipValue : Reader Unit := do skipNested ((← remaining) + 1)

/-- The problem with a value that is not of the expected kind. -/
def unexpected {α : Type} : Reader α := do
  let b ← peek
  if isDigit b || b = 0x2d then
    if (← numeral .early).isHuge then throw .malformed
  else if b = 0x5b || b = 0x7b then pure ()
  else
    mark b
    if b = 0x6e then literal [0x75, 0x6c, 0x6c]
    else if b = 0x74 then literal [0x72, 0x75, 0x65]
    else if b = 0x66 then literal [0x61, 0x6c, 0x73, 0x65]
    else if b = 0x22 then
      let _ ← text true
    else throw .malformed
  throw .mismatch

/-- A string of 64 hexadecimal digits, after an optional `0x`. -/
def hash : Reader Hash := do
  if (← peek) = 0x22 then
    mark 0x22
    let found ← text true
    match Hash.ofHexChars? (found.map fun b => Char.ofNat b.toNat) with
    | some h => return h
    | none => throw .mismatch
  else unexpected

def word : Reader UInt64 := do
  let b ← peek
  if isDigit b || b = 0x2d then
    let n ← numeral .early
    match n.word? with
    | some value => return value
    | none => if n.isHuge then throw .malformed else throw .mismatch
  else unexpected

/-- A whole text as one value. -/
def whole {α : Type} (value : Reader α) (text : String) : Except Misread α := do
  let (a, rest) ← value text.toUTF8.toList
  if rest.all isBlank then return a else throw .malformed

end Reader

end Watchtower.Json
