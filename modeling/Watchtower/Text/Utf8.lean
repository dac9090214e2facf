import Watchtower.Bytes

/-!
# Reading UTF-8 that may be damaged

`decodeLossy` reads octets as UTF-8 and puts the replacement character U+FFFD where that fails: one
for each longest beginning of a character that is not completed, and one for each octet that begins
none. It never fails.
-/

namespace Watchtower.Text

def replacement : Char := Char.ofNat 0xfffd

/-- A character of which some octets are read. -/
structure Partial where
  /-- The bits read so far. -/
  bits : Nat
  /-- How many octets are to come. -/
  left : Nat
  /-- The least and the greatest octet that may come next. -/
  least : UInt8
  greatest : UInt8

/-- What a first octet of two to four announces. The range of the second octet leaves out overlong
forms, surrogates and numbers above U+10FFFF. -/
def lead? (b : UInt8) : Option Partial :=
  let n := b.toNat
  if n < 0xc2 then none
  else if n < 0xe0 then some ⟨n - 0xc0, 1, 0x80, 0xbf⟩
  else if n = 0xe0 then some ⟨0, 2, 0xa0, 0xbf⟩
  else if n = 0xed then some ⟨0xd, 2, 0x80, 0x9f⟩
  else if n < 0xf0 then some ⟨n - 0xe0, 2, 0x80, 0xbf⟩
  else if n = 0xf0 then some ⟨0, 3, 0x90, 0xbf⟩
  else if n < 0xf4 then some ⟨n - 0xf0, 3, 0x80, 0xbf⟩
  else if n = 0xf4 then some ⟨4, 3, 0x80, 0x8f⟩
  else none

/-- What an octet outside a character gives: characters, and a partial one. -/
def start (b : UInt8) : List Char × Option Partial :=
  if b < 0x80 then ([Char.ofNat b.toNat], none)
  else match lead? b with
    | some part => ([], some part)
    | none => ([replacement], none)

/-- What an octet within a character gives. -/
def Partial.extend (part : Partial) (b : UInt8) : List Char × Option Partial :=
  if part.least ≤ b && b ≤ part.greatest then
    let bits := part.bits * 64 + b.toNat % 64
    if part.left = 1 then ([Char.ofNat bits], none)
    else ([], some ⟨bits, part.left - 1, 0x80, 0xbf⟩)
  else
    let (chars, part) := start b
    (replacement :: chars, part)

def decodeFrom : Option Partial → Bytes → List Char
  | none, [] => []
  | some _, [] => [replacement]
  | part, b :: rest =>
    let (chars, part) := match part with
      | none => start b
      | some part => part.extend b
    chars ++ decodeFrom part rest

def decodeLossy (bytes : Bytes) : String := String.ofList (decodeFrom none bytes)

end Watchtower.Text
