import Watchtower.Game.Verdict
import Watchtower.Game.Range
import Watchtower.Watch

/-!
# A simulated dispute game

* `honestRoot`, `badRoot` : the root that the simulated chain has at a block, and one that no block
  has;
* `Game` : a game whose claims are honest but at the tampered indices. Whatever it commits to can
  also be given outright, consistent or not;
* `Game.read` : the answer to a read; any kind of read can be made to fail.
-/

namespace Watchtower.Simulation

def honestRoot (block : UInt64) : Hash := keccak256 (bigEndian 8 block.toNat)

def badRoot : Hash := .filled 0xba

structure Game where
  address : Address := .filled 0x42
  first : UInt64 := 100
  last : UInt64 := 109
  stride : UInt64 := 3
  /-- The octet that the contract keeps as its status. -/
  status : Nat := 0
  createdAt : UInt64 := 1000
  detectDuration : UInt64 := 3600
  clockDuration : UInt64 := 7200
  l1Head : Hash := .filled 0x11
  /-- The indices of the claims that are wrong. -/
  tampered : List Nat := []
  rootClaim : Option Hash := none
  claimsHash : Option Hash := none
  claims : Option (List Hash) := none
  claimCount : Option UInt64 := none
  challenged : List UInt64 := []
  challengeSuccess : Bool := false
  /-- The stride that the contract reports, if not the one of its claims. -/
  blockDistance : Option UInt64 := none
  resolveClaimReady : Bool := false
  resolveReady : Bool := false
  /-- The number of the game that this one builds on. -/
  parent : Option Nat := none
  /-- The text with which a read fails, if it does. -/
  failure : Read → Option String := fun _ => none

namespace Game

/-- The blocks that claims are made about; none if the numbers are no range. -/
def positions (g : Game) : List UInt64 :=
  match Watchtower.Game.Range.of g.first g.last g.stride with
  | .ok range => range.positions
  | .error _ => []

def allClaims (g : Game) : List Hash :=
  g.claims.getD <| g.positions.mapIdx fun index block =>
    if index ∈ g.tampered then badRoot else honestRoot block

/-- Wrong if the last claim is tampered with, else the root of the last block. -/
def theRootClaim (g : Game) : Hash :=
  g.rootClaim.getD <|
    if g.tampered.any (fun index => index + 1 = g.allClaims.length) then badRoot
    else honestRoot g.last

def value (g : Game) : (what : Read) → Except Fault (what.Value Nat)
  | .status => Watchtower.Game.Status.ofValue g.status
  | .claimCount => .ok (g.claimCount.getD (UInt64.ofNat g.allClaims.length))
  | .l1Head => .ok g.l1Head
  | .blockRange => .ok (g.first, g.last)
  | .detectDuration => .ok g.detectDuration
  | .clockDuration => .ok g.clockDuration
  | .createdAt => .ok g.createdAt
  | .rootClaim => .ok g.theRootClaim
  | .claimsHash => .ok (g.claimsHash.getD (Watchtower.Game.claimsHash g.allClaims))
  | .challenged index => .ok (g.challenged.contains index)
  | .challengeSuccess => .ok g.challengeSuccess
  | .blockDistance => .ok (g.blockDistance.getD g.stride)
  | .claims _ => .ok g.allClaims
  | .parent => .ok g.parent
  | .canResolveClaim => .ok g.resolveClaimReady
  | .canResolve => .ok g.resolveReady

def read (g : Game) (what : Read) : Except Fault (what.Value Nat) :=
  match g.failure what with
  | some text => .error (Cause.reported text)
  | none => g.value what

/-- The game after a transaction that landed. -/
def land (g : Game) : Watchtower.Game.Action → Game
  | .challenge index => { g with challenged := g.challenged ++ [index] }
  | .resolveClaim => { g with resolveClaimReady := false }
  | .resolve => { g with resolveReady := false, status := if g.challengeSuccess then 1 else 2 }

end Game

end Watchtower.Simulation
