/-!
# Byte strings, hashes and addresses

* `Bytes` : a byte string is a list of octets;
* `bigEndian w n`, `ofBigEndian` : `n` in `w` octets, most significant first, and back
  (`ofBigEndian_bigEndian`: the low `8 * w` bits survive);
* `littleEndian`, `ofLittleEndian` : the same, least significant octet first;
* `Hash` (32 octets), `Address` (20 octets) : fixed-size strings, the size in the type;
* `Hash.ofNat`, `Address.padded` : numbers and addresses as 32-octet words;
* `satAdd`, `satSub` : 64-bit arithmetic that stops at the ends of its range.
-/

namespace Watchtower

abbrev Bytes := List UInt8

/-! ## Numbers as octets -/

/-- The low `8 * width` bits of `n`, most significant octet first. -/
def bigEndian : Nat → Nat → Bytes
  | 0, _ => []
  | width + 1, n => bigEndian width (n / 256) ++ [UInt8.ofNat n]

/-- The number whose octets are `bytes`, most significant first. -/
def ofBigEndian (bytes : Bytes) : Nat :=
  bytes.foldl (fun n b => n * 256 + b.toNat) 0

/-- The low `8 * width` bits of `n`, least significant octet first. -/
def littleEndian : Nat → Nat → Bytes
  | 0, _ => []
  | width + 1, n => UInt8.ofNat n :: littleEndian width (n / 256)

/-- The number whose octets are `bytes`, least significant first. -/
def ofLittleEndian : Bytes → Nat
  | [] => 0
  | b :: rest => b.toNat + 256 * ofLittleEndian rest

@[simp] theorem length_bigEndian (width n : Nat) : (bigEndian width n).length = width := by
  induction width generalizing n with
  | zero => rfl
  | succ w ih => simp [bigEndian, ih]

theorem ofBigEndian_append_singleton (bytes : Bytes) (b : UInt8) :
    ofBigEndian (bytes ++ [b]) = ofBigEndian bytes * 256 + b.toNat := by
  simp [ofBigEndian]

theorem ofBigEndian_bigEndian (width n : Nat) :
    ofBigEndian (bigEndian width n) = n % Nat.pow 256 width := by
  induction width generalizing n with
  | zero => simp [bigEndian, ofBigEndian, Nat.mod_one]
  | succ w ih =>
    have octet : (UInt8.ofNat n).toNat = n % 256 := by simp
    have split : n % Nat.pow 256 (w + 1) = n % 256 + 256 * (n / 256 % Nat.pow 256 w) := by
      change n % (Nat.pow 256 w * 256) = _
      rw [Nat.mul_comm, Nat.mod_mul]
    rw [bigEndian, ofBigEndian_append_singleton, ih, octet, split]
    omega

/-! ## Fixed-size strings -/

/-- Thirty-two octets: a block hash, an output root, a storage word. -/
@[ext] structure Hash where
  bytes : Bytes
  size : bytes.length = 32
  deriving DecidableEq

/-- Twenty octets: an account. -/
@[ext] structure Address where
  bytes : Bytes
  size : bytes.length = 20
  deriving DecidableEq

def Hash.ofBytes? (bytes : Bytes) : Option Hash :=
  if size : bytes.length = 32 then some ⟨bytes, size⟩ else none

def Address.ofBytes? (bytes : Bytes) : Option Address :=
  if size : bytes.length = 20 then some ⟨bytes, size⟩ else none

/-- The low 256 bits of `n` as a word. -/
def Hash.ofNat (n : Nat) : Hash := ⟨bigEndian 32 n, length_bigEndian 32 n⟩

def Hash.toNat (h : Hash) : Nat := ofBigEndian h.bytes

/-- The word of thirty-two equal octets. -/
def Hash.filled (b : UInt8) : Hash := ⟨List.replicate 32 b, List.length_replicate⟩

def Hash.zero : Hash := .filled 0

def Address.zero : Address := ⟨List.replicate 20 0, List.length_replicate⟩

def Address.filled (b : UInt8) : Address := ⟨List.replicate 20 b, List.length_replicate⟩

/-- An address as a word: twelve zero octets, then the address. -/
def Address.padded (a : Address) : Hash :=
  ⟨List.replicate 12 0 ++ a.bytes, by rw [List.length_append, a.size]; rfl⟩

/-- The address in the last twenty octets of a word. -/
def Address.ofWord (w : Hash) : Address :=
  ⟨w.bytes.drop 12, by rw [List.length_drop, w.size]⟩

instance : Inhabited Hash := ⟨.zero⟩
instance : Inhabited Address := ⟨.zero⟩

theorem Address.ofWord_padded (a : Address) : Address.ofWord a.padded = a := by
  ext1
  simp only [ofWord, padded]
  rw [List.drop_append_of_le_length (by simp)]
  simp

theorem Hash.ofBytes?_bytes (h : Hash) : Hash.ofBytes? h.bytes = some h := by
  simp [ofBytes?, h.size]

theorem Address.ofBytes?_bytes (a : Address) : Address.ofBytes? a.bytes = some a := by
  simp [ofBytes?, a.size]

/-! ## Saturating 64-bit arithmetic -/

def maxUInt64 : UInt64 := 0xffffffffffffffff

/-- Addition that stops at the largest number. -/
def satAdd (a b : UInt64) : UInt64 :=
  if a.toNat + b.toNat < UInt64.size then a + b else maxUInt64

/-- Subtraction that stops at zero. -/
def satSub (a b : UInt64) : UInt64 :=
  if b ≤ a then a - b else 0

theorem toNat_satAdd (a b : UInt64) :
    (satAdd a b).toNat = min (a.toNat + b.toNat) (UInt64.size - 1) := by
  unfold satAdd
  split
  · next h => rw [UInt64.toNat_add, Nat.mod_eq_of_lt h]; omega
  · next h => change UInt64.size - 1 = _; omega

theorem toNat_satSub (a b : UInt64) : (satSub a b).toNat = a.toNat - b.toNat := by
  unfold satSub
  split
  · next h => rw [UInt64.toNat_sub_of_le _ _ h]
  · next h =>
    have h : ¬ b.toNat ≤ a.toNat := by rwa [UInt64.le_iff_toNat_le] at h
    change 0 = _
    omega

end Watchtower
