import Watchtower.Contract.Creation
import Watchtower.Rpc.Answer

/-!
# Dispute games as contracts

* `Contract` : the address of a game and of the factory that created it;
* `Contract.bind` : a game whose contract has a version that is understood;
* `Contract.answer k` : the value of kind `k` in the reply to a call;
* `Contract.simulate` : whether a call would go through. A node that says that it reverts says no;
* `Contract.read` : every read of a game, as calls of its contract.
-/

namespace Watchtower

structure Contract where
  address : Address
  factory : Address
  deriving DecidableEq

namespace Contract

/-! ## Calls -/

/-- The data in the reply to a call. -/
def replyData (reply : Except RpcFault Json) : Except CallFault Bytes :=
  match Inquiry.readAnswer Json.octets? reply with
  | .ok data => .ok data
  | .error fault => .error (.rpc fault)

def answer (k : Abi.Kind) (reply : Except RpcFault Json) : Except CallFault k.Value := do
  match Abi.decode k (← replyData reply) with
  | .ok value => return value
  | .error fault => throw (.abi fault)

/-- A call of a contract at the latest block. -/
def call (context : Context) (callee : Address) (signature : String) (arguments : List Abi.Argument)
    (k : Abi.Kind) : Inquiry k.Value := do
  match answer k (← Inquiry.request (.call callee (Abi.callData signature arguments))) with
  | .ok value => return value
  | .error fault => throw (Fault.within context (Cause.call fault))

/-- A call without arguments. -/
def get (context : Context) (callee : Address) (signature : String) (k : Abi.Kind) :
    Inquiry k.Value :=
  call context callee signature [] k

/-- Whether a call goes through, given what its reply holds. -/
def goesThrough {α : Type} (kind : TransactionKind) : Except CallFault α → Except Fault Bool
  | .ok _ => .ok true
  | .error (.rpc fault) =>
    if fault.isRevert then .ok false else .error (Cause.simulation kind (.rpc fault))
  | .error fault => .error (Cause.simulation kind fault)

/-- Calls a function without arguments, to see whether that goes through. -/
def simulate {α : Type} (kind : TransactionKind) (callee : Address) (signature : String)
    (result : Except RpcFault Json → Except CallFault α) : Inquiry Bool := do
  let reply ← Inquiry.request (.call callee (Abi.callData signature []))
  Inquiry.ofExcept (goesThrough kind (result reply))

/-! ## Reads -/

/-- The low 64 bits of a number. -/
def lowWord (n : Nat) : UInt64 := UInt64.ofNat n

/-- A number that has to fit into 64 bits. -/
def narrow (what : Quantity) (n : Nat) : Except Fault UInt64 :=
  if n < UInt64.size then .ok (lowWord n) else .error (Cause.tooLarge what n)

/-- How the versions begin that are understood. -/
def supportedVersion : String := "1.2."

def bind (address factory : Address) : Inquiry Contract := do
  let version ← get (.readingVersion address) address "version()" .text
  if supportedVersion.toList.isPrefixOf version.toList then return ⟨address, factory⟩
  else throw (Cause.unsupportedVersion address version : Fault)

def blockRange (c : Contract) : Inquiry (UInt64 × UInt64) := do
  let first ← get .readingStartBlock c.address "startingBlockNumber()" .number
  let last ← get .readingEndBlock c.address "l2BlockNumber()" .number
  let first ← Inquiry.ofExcept (narrow .startBlock first)
  let last ← Inquiry.ofExcept (narrow .endBlock last)
  return (first, last)

/-- The block distance stands in a contract of its own. -/
def blockDistance (c : Contract) : Inquiry UInt64 := do
  let config ← get .readingConfig c.address "config()" .address
  let distance ← get .readingBlockDistance config "blockDistance()" .number
  Inquiry.ofExcept (narrow .blockDistance distance)

/-- The zero address stands for no parent. -/
def parent (c : Contract) : Inquiry (Option Contract) := do
  let parent ← get .readingParent c.address "parentGameProxy()" .address
  if parent = .zero then return none else some <$> bind parent c.factory

def read (c : Contract) : (what : Read) → Inquiry (what.Value Contract)
  | .status => do
    let value ← get .readingStatus c.address "status()" .number
    Inquiry.ofExcept (Game.Status.ofValue (value % 256))
  | .claimCount => do
    let count ← get .readingClaimCount c.address "claimLen()" .number
    Inquiry.ofExcept (narrow .claimCount count)
  | .l1Head => get .readingL1Head c.address "l1Head()" .word
  | .blockRange => c.blockRange
  | .detectDuration =>
    lowWord <$> get .readingDetectDuration c.address "maxDetectFaultDuration()" .number
  | .clockDuration => lowWord <$> get .readingClockDuration c.address "maxClockDuration()" .number
  | .createdAt => lowWord <$> get .readingCreationTime c.address "createdAt()" .number
  | .rootClaim => get .readingRootClaim c.address "rootClaim()" .word
  | .claimsHash => get .readingClaimsHash c.address "claimsHash()" .word
  | .challenged index => call (.readingChallenged index) c.address "challengedClaims(uint256)"
    [⟨.number, index.toNat⟩] .flag
  | .challengeSuccess => get .readingChallengeSuccess c.address "isChallengeSuccess()" .flag
  | .blockDistance => c.blockDistance
  | .claims head => creationClaims c.factory c.address head
  | .parent => c.parent
  | .canResolveClaim => simulate .resolveClaim c.address "resolveClaim()" replyData
  | .canResolve => simulate .resolve c.address "resolve()" (answer .number)

end Contract

end Watchtower
