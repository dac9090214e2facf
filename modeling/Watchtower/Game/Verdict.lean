import Watchtower.Fault
import Watchtower.Keccak

/-!
# What an inspection of a game finds, and what follows from it

* `claimsHash` : the commitment to a game's claims, the hash of all claimed roots in order, 32
  octets each;
* `firstDivergence?` : the first place where two lists of roots differ;
* `locateDivergence` : the same, with lists of different length and equal lists refused. The index
  is one of the computed list by its type;
* `Finding` : whether a claim is faulty, which one, and whether it can still be challenged;
* `Verdict` : what follows; a claim that is already challenged is never a missed one;
* `Action` : a transaction to send.
-/

namespace Watchtower.Game

/-! ## Claims and roots -/

def claimsHash (roots : List Hash) : Hash := keccak256 (roots.flatMap Hash.bytes)

/-- The index of the first pair that differs. -/
def firstDivergence? : (computed claimed : List Hash) → Option (Fin computed.length)
  | a :: as, b :: bs =>
    if a = b then (firstDivergence? as bs).map Fin.succ else some ⟨0, as.length.succ_pos⟩
  | _, _ => none

/-- The index of the first claim that differs from the root computed for it. -/
def locateDivergence (computed claimed : List Hash) : Except Fault (Fin computed.length) :=
  if computed.length ≠ claimed.length then
    .error (Cause.claimCount computed.length claimed.length)
  else match firstDivergence? computed claimed with
    | none => .error Cause.noDivergence
    | some index => .ok index

/-! ## Findings -/

structure Finding where
  /-- Whether the claims differ from the outputs computed for them. -/
  mismatch : Bool
  /-- The index of the claim taken to be faulty. -/
  target : UInt64
  /-- Whether that claim is already challenged. -/
  challenged : Bool
  /-- Whether the time to challenge is over. -/
  late : Bool
  deriving DecidableEq

inductive Verdict
  | noFault
  | alreadyChallenged (index : UInt64)
  | windowMissed (index : UInt64)
  | challenge (index : UInt64)
  deriving DecidableEq

/-- The finding of an inspection without a fault. -/
def Finding.clean (late : Bool) : Finding := ⟨false, 0, false, late⟩

def Finding.verdict (f : Finding) : Verdict :=
  if !f.mismatch then .noFault
  else if f.challenged then .alreadyChallenged f.target
  else if f.late then .windowMissed f.target
  else .challenge f.target

inductive Action
  /-- Settle the open challenges of the game. -/
  | resolveClaim
  /-- End the game. -/
  | resolve
  /-- Signal a challenge of the claim at `index`. -/
  | challenge (index : UInt64)
  deriving DecidableEq

end Watchtower.Game
