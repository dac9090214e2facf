import Watchtower.Fault

/-!
# The L2 blocks that a game makes claims about

Claim `i` of a game is about block `first + i * stride`, up to the last block that is not past
`last`. The last block need not be one of them.

* `Range` : first and last block and the stride, with what makes them a range;
* `Range.of` : the range of three numbers, if they are one;
* `Range.positions` : the blocks, found by stepping;
* `Range.positionCount`, `Range.indexOf`, `Range.endIndex` : their number and indices, by division;
* `Range.firstPositions` : the first few blocks only (`firstPositions_eq_take`).
-/

namespace Watchtower.Game

structure Range where
  first : UInt64
  last : UInt64
  stride : UInt64
  first_le_last : first ≤ last
  stride_ne_zero : stride ≠ 0
  deriving DecidableEq

namespace Range

/-- A zero stride is refused before an inverted range is. -/
def of (first last stride : UInt64) : Except Fault Range :=
  if stride_zero : stride = 0 then .error Cause.zeroStride
  else if inverted : last < first then .error (Cause.invertedRange first last)
  else .ok ⟨first, last, stride, UInt64.not_lt.mp inverted, stride_zero⟩

theorem stride_pos (r : Range) : 0 < r.stride.toNat := by
  have h := r.stride_ne_zero
  have : r.stride.toNat ≠ 0 := fun h0 => h (UInt64.toNat_inj.mp h0)
  omega

/-- The positions from `block` on. A step is taken while it neither leaves 64 bits nor passes the
last block. -/
def positionsFrom (r : Range) (block : UInt64) : List UInt64 :=
  if block.toNat + r.stride.toNat ≤ r.last.toNat then
    block :: r.positionsFrom (block + r.stride)
  else [block]
termination_by r.last.toNat - block.toNat
decreasing_by
  have hs := r.stride_pos
  have hl := r.last.toNat_lt
  rw [UInt64.toNat_add, Nat.mod_eq_of_lt (by omega)]
  omega

def positions (r : Range) : List UInt64 := r.positionsFrom r.first

/-- At most `limit` positions from `block` on. -/
def firstFrom (r : Range) : Nat → UInt64 → List UInt64
  | 0, _ => []
  | limit + 1, block =>
    if block.toNat + r.stride.toNat ≤ r.last.toNat then
      block :: r.firstFrom limit (block + r.stride)
    else [block]

/-- The first `limit` positions, for ranges too long to write out. -/
def firstPositions (r : Range) (limit : Nat) : List UInt64 := r.firstFrom limit r.first

/-- The number of positions, added up without a bound. In 64 bits the sum overflows for one range,
that of all blocks with a stride of one. -/
def positionCount (r : Range) : Nat := ((r.last - r.first) / r.stride).toNat + 1

/-- The index of the claim that covers `block`: blocks before the first count as the first. -/
def indexOf (r : Range) (block : UInt64) : UInt64 := satSub block r.first / r.stride

def endIndex (r : Range) : UInt64 := r.indexOf r.last

theorem firstFrom_eq_take (r : Range) (limit : Nat) (block : UInt64) :
    r.firstFrom limit block = (r.positionsFrom block).take limit := by
  induction limit generalizing block with
  | zero => simp [firstFrom]
  | succ n ih =>
    rw [firstFrom, positionsFrom]
    split <;> simp [ih]

theorem firstPositions_eq_take (r : Range) (limit : Nat) :
    r.firstPositions limit = r.positions.take limit := firstFrom_eq_take r limit r.first

end Range

end Watchtower.Game
