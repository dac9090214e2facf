/-!
# Numbers in decimal text

Reading them:

* `decimal? cs` : the number that one or more decimal digits stand for, leading zeros included;
* `unsigned? cs` : the same after an optional plus sign;
* `signed? cs` : the same after an optional sign of either kind.

And writing a float with the fewest digits:

* `Binary` : a number `mantissa * 2 ^ exponent`, `Binary.ofFloat` : a finite float without its sign;
* `Binary.onGrid? k` : the multiple of `10 ^ k` nearest to a number, among those that are read as
  that number;
* `Binary.shortest` : the multiple on the coarsest such grid, hence of the fewest digits.

A decimal is read as the float nearest to it, and halfway between two floats as the one whose
mantissa is even. All comparisons are exact.
-/

namespace Watchtower.Text

/-! ## Reading -/

def decimalDigit? (c : Char) : Option Nat :=
  if '0' ≤ c ∧ c ≤ '9' then some (c.toNat - 48) else none

/-- The number whose leading digits are worth `value` and whose others are given. -/
def decimalFrom? (value : Nat) : List Char → Option Nat
  | [] => some value
  | c :: rest => decimalDigit? c >>= fun digit => decimalFrom? (10 * value + digit) rest

def decimal? : List Char → Option Nat
  | [] => none
  | cs => decimalFrom? 0 cs

def unsigned? : List Char → Option Nat
  | '+' :: digits => decimal? digits
  | digits => decimal? digits

def signed? : List Char → Option Int
  | '-' :: digits => (decimal? digits).map fun n => -(n : Int)
  | digits => (unsigned? digits).map fun n => (n : Int)

/-- A number below a bound, without a minus sign. -/
def below? (bound : Nat) (cs : List Char) : Option Nat := (unsigned? cs).filter (· < bound)

/-- A number from zero to below a bound, where zero may have a minus sign. -/
def signedBelow? (bound : Nat) (cs : List Char) : Option Nat :=
  (signed? cs).bind fun n => if 0 ≤ n ∧ n < bound then some n.toNat else none

/-! ## The fewest digits of a float -/

structure Binary where
  mantissa : Nat
  exponent : Int

namespace Binary

/-- The least mantissa of a float that has all 53 bits. -/
def leastFull : Nat := Nat.pow 2 52

def leastExponent : Int := -1074

/-- The magnitude of a finite float. -/
def ofFloat (f : Float) : Binary :=
  let bits := f.toBits.toNat
  let fraction := bits % leastFull
  match bits / leastFull % 2048 with
  | 0 => ⟨fraction, leastExponent⟩
  | power + 1 => ⟨leastFull + fraction, leastExponent + power⟩

/-- How far below a float lies the end of what is read as it, in quarters of its last place. Below a
power of two the floats are twice as dense. -/
def quartersBelow (b : Binary) : Nat :=
  if b.mantissa = leastFull ∧ leastExponent < b.exponent then 1 else 2

/-- The `d` for which `d * 10 ^ k` is read as a positive float and is nearest to it; of two equally
near the even one. -/
def onGrid? (b : Binary) (k : Int) : Option Nat :=
  -- A quarter of the last place and a step of the grid, both on one scale.
  let quarter := Nat.pow 2 (b.exponent - 2).toNat * Nat.pow 10 (-k).toNat
  let step := Nat.pow 2 (2 - b.exponent).toNat * Nat.pow 10 k.toNat
  let value := 4 * b.mantissa * quarter
  let least := (4 * b.mantissa - b.quartersBelow) * quarter
  let greatest := (4 * b.mantissa + 2) * quarter
  let isRead (d : Nat) : Bool :=
    if b.mantissa % 2 = 0 then least ≤ d * step && d * step ≤ greatest
    else least < d * step && d * step < greatest
  let below := value / step
  match isRead below, isRead (below + 1) with
  | false, false => none
  | true, false => some below
  | false, true => some (below + 1)
  | true, true =>
    let middle := (2 * below + 1) * step
    if 2 * value < middle ∨ (2 * value = middle ∧ below % 2 = 0) then some below
    else some (below + 1)

/-- The first hit on the grids from `10 ^ k` on down, each ten times finer than the one before. -/
def hitFrom (b : Binary) : (grids : Nat) → (k : Int) → Option (Nat × Int)
  | 0, _ => none
  | grids + 1, k =>
    match b.onGrid? k with
    | some d => some (d, k)
    | none => b.hitFrom grids (k - 1)

/-- The `d` and `k` for which `d * 10 ^ k` is read as a positive float, `d` has the fewest digits
and, among those, the decimal is nearest. From the greatest floats to the least there are the grids
of `10 ^ 308` to `10 ^ (-324)`. -/
def shortest (b : Binary) : Nat × Int := (b.hitFrom 633 308).getD (0, 0)

end Binary

end Watchtower.Text
