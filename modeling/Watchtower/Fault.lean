import Watchtower.L1.Block
import Watchtower.Rpc.Request

/-!
# Faults: what can go wrong, and in which context

* `Cause` : the innermost reason, one constructor a reason; `Cause.text` is its wording;
* `Context` : what was being done; `Context.text` is its wording;
* `Fault` : a cause and the contexts put around it; `Fault.message` is the outermost wording, the
  only one that a log line or an answer shows;
* `Fault.isNotInSync`, `Fault.isCancelled` : the kinds that the watcher branches on; a context never
  hides them (`isNotInSync_within`, `isCancelled_within`).
-/

namespace Watchtower

/-- Why a configuration is refused. -/
inductive ConfigProblem
  | zeroCapacity
  | zeroCacheStride
  | zeroPollInterval
  | zeroCacheSizeOrDistance
  | stated (text : String)
  deriving DecidableEq

def ConfigProblem.text : ConfigProblem → String
  | .zeroCapacity => "output cache capacity must be non-zero"
  | .zeroCacheStride => "output cache stride must be non-zero"
  | .zeroPollInterval => "poll interval must be non-zero"
  | .zeroCacheSizeOrDistance => "output cache size and block distance must be non-zero"
  | .stated text => text

/-- Why an ABI value cannot be decoded. -/
inductive AbiFault
  /-- A word, an offset or a length reaches outside the data, or a value outside its type. -/
  | invalidData
  /-- There is no data at all where some is due. -/
  | emptyData
  deriving DecidableEq

def AbiFault.text : AbiFault → String
  | .invalidData => "Invalid data"
  | .emptyData =>
    "Invalid name: please ensure the contract and method you're calling exist! failed to decode " ++
      "empty bytes. if you're using jsonrpc this is likely due to jsonrpc returning `0x` in " ++
      "case contract or method don't exist"

/-- Why a contract call gives no value. -/
inductive CallFault
  | rpc (fault : RpcFault)
  | abi (fault : AbiFault)
  deriving DecidableEq

def CallFault.text : CallFault → String
  | .rpc fault => if fault.isRevert then "Contract call reverted with data: 0x" else fault.text
  | .abi fault => fault.text

/-- The transactions that the watcher sends. -/
inductive TransactionKind
  | challenge
  | resolveClaim
  | resolve
  deriving DecidableEq

def TransactionKind.text : TransactionKind → String
  | .challenge => "challenge"
  | .resolveClaim => "resolveClaim"
  | .resolve => "resolve"

/-- Numbers that a contract keeps in 256 bits and the watcher in 64. -/
inductive Quantity
  | claimCount
  | startBlock
  | endBlock
  | blockDistance
  deriving DecidableEq

def Quantity.text : Quantity → String
  | .claimCount => "claim count"
  | .startBlock => "starting block number"
  | .endBlock => "l2 block number"
  | .blockDistance => "block distance"

inductive Cause
  /-- The rollup node has only derived up to L1 block `current`. -/
  | notInSync (head : L1.Head) (current : UInt64)
  | cancelled
  | invalidConfig (problem : ConfigProblem)
  | zeroStride
  | invertedRange (first last : UInt64)
  | claimCount (computed claimed : Nat)
  | noDivergence
  | invalidStatus (value : Nat)
  | headWithoutHash
  | headWithoutNumber (hash : Hash)
  | blockWithoutHash (number : UInt64)
  | creationNotFound (game : Address) (block : UInt64)
  | transactionNotFound (hash : Hash)
  | notCreationCall
  | abi (fault : AbiFault)
  | rpc (fault : RpcFault)
  | call (fault : CallFault)
  | unsupportedVersion (game : Address) (version : String)
  | tooLarge (what : Quantity) (value : Nat)
  | simulation (kind : TransactionKind) (fault : CallFault)
  | blockNotFound (hash : Hash)
  | numberNotFound (number : UInt64)
  | foreignReceipt (transaction block : Hash)
  | dispatchStopped
  | transactionDropped (kind : TransactionKind)
  | transactionReverted (kind : TransactionKind) (hash : Hash)
  | sending (reason : String)
  | droppedFromMempool
  | pollingStopped
  | eventWithoutGame
  /-- A failure told by a collaborator in its own words. -/
  | reported (text : String)
  deriving DecidableEq

def Cause.text : Cause → String
  | .notInSync head current =>
    s!"Local node has not processed L1 head #{head.number} ({head.hash.hex}), " ++
      s!"current L1 is #{current}"
  | .cancelled => "Operation cancelled"
  | .invalidConfig problem => s!"Invalid configuration: {problem.text}"
  | .zeroStride => "Claim stride must be non-zero"
  | .invertedRange first last =>
    s!"Invalid claim range: start block {first} is after end block {last}"
  | .claimCount computed claimed =>
    s!"Claim count mismatch: computed {computed} output roots, game was created with " ++
      s!"{claimed} claims"
  | .noDivergence => "No divergent claim found"
  | .invalidStatus value => s!"Invalid game status: {value}"
  | .headWithoutHash => "L1 block is missing its hash"
  | .headWithoutNumber hash => s!"L1 block {hash.hex} is missing its number"
  | .blockWithoutHash number => s!"L1 block #{number} is missing its hash"
  | .creationNotFound game block => s!"creation of game {game.hex} not found in L1 block #{block}"
  | .transactionNotFound hash => s!"transaction {hash.hex} not found in its block"
  | .notCreationCall => "calldata is not a createZkFaultDisputeGame call"
  | .abi fault => fault.text
  | .rpc fault => fault.text
  | .call fault => fault.text
  | .unsupportedVersion game version =>
    s!"ZK fault dispute game {game.hex} has unsupported version {version}"
  | .tooLarge what value => s!"{what.text} does not fit in a u64: {value}"
  | .simulation kind fault => s!"failed to simulate {kind.text}: {fault.text}"
  | .blockNotFound hash => s!"block {hash.hex} not found"
  | .numberNotFound number => s!"block #{number} not found"
  | .foreignReceipt transaction block =>
    s!"receipt {transaction.hex} does not belong to block {block.hex}"
  | .dispatchStopped => "transaction dispatch loop has stopped"
  | .transactionDropped kind => s!"transaction dispatch loop dropped the {kind.text} transaction"
  | .transactionReverted kind hash => s!"{kind.text} transaction {hash.hex} reverted"
  | .sending reason => s!"error sending transaction: {reason}"
  | .droppedFromMempool => "transaction dropped from the mempool"
  | .pollingStopped => "game polling loop has stopped"
  | .eventWithoutGame =>
    "Critical failure: `disputeProxy` field not present in `DisputeGameCreated` event."
  | .reported text => text

/-- What was being done when a fault arose. -/
inductive Context
  | fetchingClaims
  | readingVersion (game : Address)
  | readingStatus
  | readingClaimCount
  | readingL1Head
  | readingStartBlock
  | readingEndBlock
  | readingDetectDuration
  | readingClockDuration
  | readingCreationTime
  | readingRootClaim
  | readingClaimsHash
  | readingChallenged (index : UInt64)
  | readingChallengeSuccess
  | readingConfig
  | readingBlockDistance
  | readingParent
  | readingBond
  | decodingCreation (transaction : Hash)
  | fetchingSyncStatus
  | fetchingOutput (block : UInt64)
  | fetchingBlock (hash : Hash)
  | fetchingNumber (number : UInt64)
  | fetchingReceipts (block : Hash)
  | fetchingKey (key : Bytes)
  | fetchingProof (block : Hash)
  | stated (text : String)
  deriving DecidableEq

def Context.text : Context → String
  | .fetchingClaims => "failed to fetch the claims the game was created with"
  | .readingVersion game => s!"failed to retrieve version of dispute game {game.hex}"
  | .readingStatus => "failed to fetch status"
  | .readingClaimCount => "failed to fetch claim count"
  | .readingL1Head => "failed to fetch L1 head"
  | .readingStartBlock => "failed to retrieve game starting block"
  | .readingEndBlock => "failed to retrieve game l2 block number"
  | .readingDetectDuration => "failed to fetch maxDetectFaultDuration"
  | .readingClockDuration => "failed to fetch maxClockDuration"
  | .readingCreationTime => "failed to fetch createdAt"
  | .readingRootClaim => "failed to fetch root claim"
  | .readingClaimsHash => "failed to fetch claims hash"
  | .readingChallenged index => s!"failed to fetch challengedClaims({index})"
  | .readingChallengeSuccess => "failed to retrieve isChallengeSuccess"
  | .readingConfig => "failed to get config"
  | .readingBlockDistance => "failed to fetch blockDistance"
  | .readingParent => "failed to fetch parent game proxy"
  | .readingBond => "failed to retrieve required challenger bond"
  | .decodingCreation transaction =>
    s!"failed to decode creation calldata of {transaction.hex}"
  | .fetchingSyncStatus => "failed to fetch sync status"
  | .fetchingOutput block => s!"failed to fetch output at block #{block}"
  | .fetchingBlock hash => s!"failed to fetch block {hash.hex}"
  | .fetchingNumber number => s!"failed to fetch block #{number}"
  | .fetchingReceipts block => s!"failed to fetch receipts of block {block.hex}"
  | .fetchingKey key => s!"failed to fetch database key {hexOf key}"
  | .fetchingProof block => s!"failed to fetch message passer proof at {block.hex}"
  | .stated text => text

/-- A cause, and the contexts around it with the outermost first. -/
structure Fault where
  cause : Cause
  contexts : List Context := []
  deriving DecidableEq

namespace Fault

/-- The fault seen from one context further out. -/
def within (context : Context) (fault : Fault) : Fault :=
  { fault with contexts := context :: fault.contexts }

/-- The outermost wording. -/
def message (fault : Fault) : String :=
  match fault.contexts with
  | [] => fault.cause.text
  | context :: _ => context.text

def isNotInSync (fault : Fault) : Bool :=
  match fault.cause with
  | .notInSync .. => true
  | _ => false

def isCancelled (fault : Fault) : Bool :=
  match fault.cause with
  | .cancelled => true
  | _ => false

@[simp] theorem isNotInSync_within (context : Context) (fault : Fault) :
    (fault.within context).isNotInSync = fault.isNotInSync := rfl

@[simp] theorem isCancelled_within (context : Context) (fault : Fault) :
    (fault.within context).isCancelled = fault.isCancelled := rfl

end Fault

instance : Coe Cause Fault := ⟨fun cause => ⟨cause, []⟩⟩

/-- `x`, its fault seen from `context`. -/
def inContext {α : Type} (context : Context) (x : Except Fault α) : Except Fault α :=
  x.mapError (Fault.within context)

@[simp] theorem inContext_ok {α : Type} (context : Context) (a : α) :
    inContext context (.ok a) = .ok a := rfl

@[simp] theorem inContext_error {α : Type} (context : Context) (fault : Fault) :
    inContext context (.error fault : Except Fault α) = .error (fault.within context) := rfl

end Watchtower
