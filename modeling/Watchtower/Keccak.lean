import Watchtower.Bytes

/-!
# Keccak-256

The hash of blocks, claims and function names: the sponge over the permutation of 25 lanes of 64
bits, with a rate of 136 octets and the single padding bit `0x01` (the standardised successor pads
with `0x06` and gives other hashes).

* `permute` : the 24 rounds;
* `padded` : the message, filled up to whole blocks of 136 octets;
* `absorb` : the blocks, one after another;
* `keccak256` : the first 32 octets of the last state.
-/

namespace Watchtower.Keccak

/-- Lane `(x, y)` is entry `x + 5 * y`. -/
abbrev State := Vector UInt64 25

def rotate (lane : UInt64) (amount : UInt64) : UInt64 :=
  (lane <<< amount) ||| (lane >>> (64 - amount))

/-- The lane at a column and a row, both taken modulo 5. -/
def State.lane (s : State) (x y : Nat) : UInt64 :=
  s.get ⟨x % 5 + 5 * (y % 5), by omega⟩

/-- The rotation of each lane. -/
def rotations : Vector UInt64 25 :=
  #v[0, 1, 62, 28, 27, 36, 44, 6, 55, 20, 3, 10, 43, 25, 39, 41, 45, 15, 21, 8, 18, 2, 61, 56, 14]

def roundConstants : List UInt64 :=
  [0x0000000000000001, 0x0000000000008082, 0x800000000000808a, 0x8000000080008000,
   0x000000000000808b, 0x0000000080000001, 0x8000000080008081, 0x8000000000008009,
   0x000000000000008a, 0x0000000000000088, 0x0000000080008009, 0x000000008000000a,
   0x000000008000808b, 0x800000000000008b, 0x8000000000008089, 0x8000000000008003,
   0x8000000000008002, 0x8000000000000080, 0x000000000000800a, 0x800000008000000a,
   0x8000000080008081, 0x8000000000008080, 0x0000000080000001, 0x8000000080008008]

/-- Mixes each lane with the parities of two columns. -/
def theta (s : State) : State :=
  let parity := Vector.ofFn fun x : Fin 5 =>
    s.lane x 0 ^^^ s.lane x 1 ^^^ s.lane x 2 ^^^ s.lane x 3 ^^^ s.lane x 4
  let mix := Vector.ofFn fun x : Fin 5 =>
    parity.get ⟨(x.val + 4) % 5, by omega⟩ ^^^
      rotate (parity.get ⟨(x.val + 1) % 5, by omega⟩) 1
  Vector.ofFn fun i : Fin 25 => s[i] ^^^ mix.get ⟨i.val % 5, by omega⟩

/-- Rotates each lane and moves it: lane `(x, y)` goes to `(y, 2 x + 3 y)`. -/
def rhoPi (s : State) : State :=
  Vector.ofFn fun i : Fin 25 =>
    let x := (i.val % 5 + 3 * (i.val / 5)) % 5
    let y := i.val % 5
    rotate (s.lane x y) (rotations.get ⟨x + 5 * y, by omega⟩)

/-- Combines each lane with the next two of its row. -/
def chi (s : State) : State :=
  Vector.ofFn fun i : Fin 25 =>
    let x := i.val % 5
    let y := i.val / 5
    s.lane x y ^^^ ((~~~ s.lane (x + 1) y) &&& s.lane (x + 2) y)

def round (s : State) (constant : UInt64) : State :=
  let t := chi (rhoPi (theta s))
  t.set 0 (t[0] ^^^ constant)

def permute (s : State) : State := roundConstants.foldl round s

/-- The number of octets absorbed between two permutations. -/
def rate : Nat := 136

/-- The octets that fill `length` octets up to whole blocks: `0x01`, zeros, and `0x80` in the last
place, one octet `0x81` where only one is missing. -/
def padding (length : Nat) : Bytes :=
  match rate - length % rate with
  | 0 | 1 => [0x81]
  | missing + 2 => 0x01 :: List.replicate missing 0 ++ [0x80]

def padded (message : Bytes) : Bytes := message ++ padding message.length

/-- A block, eight octets a lane, added into the first lanes. -/
def absorbBlock (s : State) (block : Bytes) : State :=
  let lanes := Vector.ofFn fun i : Fin 25 =>
    UInt64.ofNat (ofLittleEndian ((block.drop (8 * i.val)).take 8))
  permute (Vector.ofFn fun i : Fin 25 => s[i] ^^^ lanes[i])

/-- Absorbs the first `blocks` blocks of `message`. -/
def absorb (s : State) : Nat → Bytes → State
  | 0, _ => s
  | blocks + 1, message =>
    absorb (absorbBlock s (message.take rate)) blocks (message.drop rate)

/-- The first 32 octets of a state. -/
def digest (s : State) : Bytes :=
  littleEndian 8 s[0].toNat ++ littleEndian 8 s[1].toNat ++ littleEndian 8 s[2].toNat ++
    littleEndian 8 s[3].toNat

theorem length_littleEndian (width n : Nat) : (littleEndian width n).length = width := by
  induction width generalizing n with
  | zero => rfl
  | succ w ih => simp [littleEndian, ih]

theorem length_digest (s : State) : (digest s).length = 32 := by
  simp [digest, length_littleEndian]

end Watchtower.Keccak

namespace Watchtower

def keccak256 (message : Bytes) : Hash :=
  let all := Keccak.padded message
  let last := Keccak.absorb (Vector.replicate 25 0) (all.length / Keccak.rate) all
  ⟨Keccak.digest last, Keccak.length_digest last⟩

end Watchtower
