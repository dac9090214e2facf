import Watchtower.Bytes

/-!
# Hexadecimal text

* `hexOf bytes` : `0x` and two lower-case digits an octet;
* `hexDigits? cs` : the octets of an even number of digits of either case;
* `ofHex? s` : the same, after an optional `0x` of either case;
* `spacedHex? pending cs` : the octets of digits that blanks may part;
* `fixedHex? size cs` : a text of the length that `size` octets need, after an optional `0x`. Blanks
  count towards the length, and zeros stand for the octets that they leave unwritten;
* `ofHex?_hexOf`, `Hash.ofHex?_hex`, `Address.ofHex?_hex` : what was written is read back;
* `quantityOf n` : `0x` and the fewest digits, `quantity? s` : its reader, which also takes leading
  zeros and blanks, but no empty text.
-/

namespace Watchtower

def hexDigitChar (n : Nat) : Char :=
  if n < 10 then Char.ofNat (48 + n) else Char.ofNat (87 + n)

def hexDigitValue? (c : Char) : Option Nat :=
  if '0' ≤ c ∧ c ≤ '9' then some (c.toNat - 48)
  else if 'a' ≤ c ∧ c ≤ 'f' then some (c.toNat - 87)
  else if 'A' ≤ c ∧ c ≤ 'F' then some (c.toNat - 55)
  else none

/-- Two lower-case digits an octet. -/
def hexChars : Bytes → List Char
  | [] => []
  | b :: rest => hexDigitChar (b.toNat / 16) :: hexDigitChar (b.toNat % 16) :: hexChars rest

def hexOf (bytes : Bytes) : String := "0x" ++ String.ofList (hexChars bytes)

def Hash.hex (h : Hash) : String := hexOf h.bytes

def Address.hex (a : Address) : String := hexOf a.bytes

/-- The octets written by pairs of digits of either case; nothing for an odd digit or another
character. -/
def hexDigits? : List Char → Option Bytes
  | [] => some []
  | [_] => none
  | hi :: lo :: rest => do
    let h ← hexDigitValue? hi
    let l ← hexDigitValue? lo
    let tail ← hexDigits? rest
    return UInt8.ofNat (16 * h + l) :: tail

/-- The digits after an optional lower-case `0x`. -/
def withoutHexMark : List Char → List Char
  | '0' :: 'x' :: rest => rest
  | cs => cs

/-- The digits after an optional `0x` of either case. -/
def withoutAnyHexMark : List Char → List Char
  | '0' :: 'X' :: rest => rest
  | cs => withoutHexMark cs

def ofHex? (s : String) : Option Bytes := hexDigits? (withoutAnyHexMark s.toList)

/-! ## Digits among blanks -/

def isBlank (c : Char) : Bool := c = ' ' || c = '\r' || c = '\n' || c = '\t'

/-- The octets written by pairs of digits, whatever blanks stand between them; `pending` is the
value of a first digit that has been read already. A last digit without a second writes none. -/
def spacedHex? : (pending : Option Nat) → List Char → Option Bytes
  | _, [] => some []
  | pending, c :: rest =>
    if isBlank c then spacedHex? pending rest
    else do
      let digit ← hexDigitValue? c
      match pending with
      | none => spacedHex? (some digit) rest
      | some high => return UInt8.ofNat (16 * high + digit) :: (← spacedHex? none rest)

/-- Exactly `size` octets, from two characters for each. -/
def fixedHex? (size : Nat) (cs : List Char) : Option Bytes :=
  let cs := withoutHexMark cs
  if cs.length = 2 * size then
    (spacedHex? none cs).map fun bytes => bytes ++ List.replicate (size - bytes.length) 0
  else none

def Hash.ofHexChars? (cs : List Char) : Option Hash := fixedHex? 32 cs >>= Hash.ofBytes?

def Hash.ofHex? (s : String) : Option Hash := Hash.ofHexChars? s.toList

def Address.ofHex? (s : String) : Option Address := fixedHex? 20 s.toList >>= Address.ofBytes?

/-! ## Reading what was written -/

theorem hexDigitValue?_hexDigitChar : ∀ n < 16, hexDigitValue? (hexDigitChar n) = some n := by
  decide

theorem isBlank_hexDigitChar : ∀ n < 16, isBlank (hexDigitChar n) = false := by decide

theorem ofNat_digits (b : UInt8) : UInt8.ofNat (16 * (b.toNat / 16) + b.toNat % 16) = b := by
  rw [Nat.div_add_mod, UInt8.ofNat_toNat]

theorem digit_lt (b : UInt8) : b.toNat / 16 < 16 ∧ b.toNat % 16 < 16 :=
  ⟨Nat.div_lt_of_lt_mul b.toNat_lt, Nat.mod_lt _ (by decide)⟩

theorem hexDigits?_hexChars (bytes : Bytes) : hexDigits? (hexChars bytes) = some bytes := by
  induction bytes with
  | nil => rfl
  | cons b rest ih =>
    obtain ⟨hhigh, hlow⟩ := digit_lt b
    rw [hexChars, hexDigits?, hexDigitValue?_hexDigitChar _ hhigh, hexDigitValue?_hexDigitChar _ hlow,
      ih]
    exact congrArg (fun b => some (b :: rest)) (ofNat_digits b)

theorem spacedHex?_hexChars (bytes : Bytes) : spacedHex? none (hexChars bytes) = some bytes := by
  induction bytes with
  | nil => rfl
  | cons b rest ih =>
    obtain ⟨hhigh, hlow⟩ := digit_lt b
    have hfirst (cs : List Char) : spacedHex? none (hexDigitChar (b.toNat / 16) :: cs) =
        spacedHex? (some (b.toNat / 16)) cs := by
      rw [spacedHex?, isBlank_hexDigitChar _ hhigh, hexDigitValue?_hexDigitChar _ hhigh]
      rfl
    rw [hexChars, hfirst, spacedHex?, isBlank_hexDigitChar _ hlow, hexDigitValue?_hexDigitChar _ hlow,
      ih]
    exact congrArg (fun b => some (b :: rest)) (ofNat_digits b)

theorem length_hexChars (bytes : Bytes) : (hexChars bytes).length = 2 * bytes.length := by
  induction bytes with
  | nil => rfl
  | cons b rest ih =>
    rw [hexChars, List.length_cons, List.length_cons, ih, List.length_cons, Nat.mul_succ]

theorem toList_hexOf (bytes : Bytes) : (hexOf bytes).toList = '0' :: 'x' :: hexChars bytes := by
  unfold hexOf
  rw [String.toList_append]
  exact congrArg (['0', 'x'] ++ ·) String.toList_ofList

theorem ofHex?_hexOf (bytes : Bytes) : ofHex? (hexOf bytes) = some bytes := by
  unfold ofHex?
  rw [toList_hexOf]
  exact hexDigits?_hexChars bytes

theorem fixedHex?_hexOf {size : Nat} {bytes : Bytes} (h : bytes.length = size) :
    fixedHex? size (hexOf bytes).toList = some bytes := by
  unfold fixedHex?
  have hmark : withoutHexMark ('0' :: 'x' :: hexChars bytes) = hexChars bytes := rfl
  subst h
  rw [toList_hexOf, hmark, if_pos (length_hexChars bytes), spacedHex?_hexChars, Option.map_some,
    Nat.sub_self]
  exact congrArg some (List.append_nil bytes)

theorem Hash.ofHex?_hex (h : Hash) : Hash.ofHex? h.hex = some h := by
  unfold Hash.ofHex? Hash.ofHexChars? Hash.hex
  rw [fixedHex?_hexOf h.size]
  exact h.ofBytes?_bytes

theorem Address.ofHex?_hex (a : Address) : Address.ofHex? a.hex = some a := by
  unfold Address.ofHex? Address.hex
  rw [fixedHex?_hexOf a.size]
  exact a.ofBytes?_bytes

/-! ## Numbers -/

/-- A number in the fewest digits: `0x0`, `0x6d`. -/
def quantityOf (n : Nat) : String := "0x" ++ String.ofList (Nat.toDigits 16 n)

/-- The number written by hexadecimal digits of either case, the first most significant. -/
def hexNumber? (cs : List Char) : Option Nat :=
  cs.foldlM (fun n c => (hexDigitValue? c).map (16 * n + ·)) 0

/-- A number of one to `length` characters, after an optional `0x`. Where their count is odd, the
first digit stands alone for an octet. -/
def quantity? (length : Nat) (s : String) : Option Nat :=
  let cs := withoutHexMark s.toList
  if cs.isEmpty || length < cs.length then none
  else (spacedHex? (if cs.length % 2 = 0 then none else some 0) cs).map ofBigEndian

end Watchtower
