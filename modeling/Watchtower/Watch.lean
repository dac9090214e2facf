import Watchtower.Game.Status
import Watchtower.Game.Verdict
import Watchtower.Program
import Watchtower.Rollup.Output

/-!
# What the watcher of a game talks to

* `Fetch` : requests for chain data, to an L1 node, an L2 node or the rollup node;
* `Read` : what can be read from a dispute game's contract;
* `Notice` : the events it reports, as warnings or errors;
* `Watch γ` : the interface, with games named by handles of type `γ`.

A request and a pause may be cut short by the signal to stop. Their answers say so.
-/

namespace Watchtower

/-- A request for chain data. -/
inductive Fetch
  | header (hash : Hash)
  | headerAt (number : UInt64)
  | l1Block (hash : Hash)
  | receipts (block : Hash)
  | l2Block (hash : Hash)
  | node (hash : Hash)
  | code (hash : Hash)
  | stateOutput (block : Hash)
  | output (block : UInt64)
  | outputs (blocks : List UInt64)
  deriving DecidableEq

abbrev Fetch.Value : Fetch → Type
  | .header _ | .headerAt _ => L1.Header
  | .l1Block _ | .l2Block _ => L1.Block
  | .receipts _ => L1.Header × List L1.Receipt
  | .node _ | .code _ => Bytes
  | .stateOutput _ => Rollup.StateOutput
  | .output _ => Rollup.Output
  | .outputs _ => List Rollup.Output

/-- The request in words, as the object of "failed to". -/
def Fetch.text : Fetch → String
  | .header _ => "retrieve info"
  | .headerAt _ => "retrieve info by number"
  | .l1Block _ => "retrieve l1 info and txs"
  | .receipts _ => "fetch receipts"
  | .l2Block _ => "retrieve l2 info and txs"
  | .node _ => "retrieve node"
  | .code _ => "retrieve code"
  | .stateOutput _ => "fetch l2 output"
  | .output _ => "fetch output at block"
  | .outputs _ => "batch fetch outputs"

/-- Whether the rollup node is asked. -/
def Fetch.isRollup : Fetch → Bool
  | .output _ | .outputs _ => true
  | _ => false

/-- A value of a game's contract. -/
inductive Read
  | status
  | claimCount
  | l1Head
  | blockRange
  | detectDuration
  | clockDuration
  | createdAt
  | rootClaim
  | claimsHash
  | challenged (index : UInt64)
  | challengeSuccess
  | blockDistance
  /-- The claims that the game was created with, found through the block after its L1 head. -/
  | claims (head : L1.Head)
  /-- The game that this one builds on. -/
  | parent
  /-- Whether `resolveClaim` would go through. -/
  | canResolveClaim
  /-- Whether `resolve` would go through. -/
  | canResolve
  deriving DecidableEq

abbrev Read.Value (γ : Type) : Read → Type
  | .status => Game.Status
  | .claimCount | .detectDuration | .clockDuration | .createdAt | .blockDistance => UInt64
  | .l1Head | .rootClaim | .claimsHash => Hash
  | .blockRange => UInt64 × UInt64
  | .challenged _ | .challengeSuccess | .canResolveClaim | .canResolve => Bool
  | .claims _ => List Hash
  | .parent => Option γ

/-! ## Notices -/

inductive Level
  | warn
  | error
  deriving DecidableEq

def Level.text : Level → String
  | .warn => "WARN"
  | .error => "ERROR"

inductive Notice
  | outputDropped
  | outputsMissing
  | batchFailed (fault : Fault)
  | fetchFailed (what : Fetch) (fault : Fault)
  | windowMissed (index : UInt64)
  | nodeBehind (fault : Fault)
  | syncCheckFailed (fault : Fault)
  | inspectionFailed (fault : Fault)
  | submissionFailed (action : Game.Action) (fault : Fault)
  | statusUnreadable (fault : Fault)
  | claimCountUnreadable (fault : Fault)
  | transactionFailed (fault : Fault)
  | gameFailed (fault : Fault)
  | creationEventFailed (fault : Fault)
  deriving DecidableEq

namespace Notice

/-- Loss of a single answer is a warning, as is a node that lags; all else is an error. -/
def level : Notice → Level
  | outputDropped | outputsMissing | batchFailed _ | fetchFailed .. | nodeBehind _ => .warn
  | _ => .error

/-- The part of the program that reports it. -/
def target : Notice → String
  | outputDropped | outputsMissing | batchFailed _ => "output-cache"
  | fetchFailed .. => "retrying-source"
  | windowMissed _ => "zk-agent"
  | nodeBehind _ | syncCheckFailed _ | inspectionFailed _ | submissionFailed .. | statusUnreadable _
  | claimCountUnreadable _ => "zk-player"
  | transactionFailed _ => "tx-dispatch-driver"
  | gameFailed _ | creationEventFailed _ => "dispute-factory-driver"

def text : Notice → String
  | outputDropped => "Dropping unrequested output"
  | outputsMissing => "Output cache may be missing output roots"
  | batchFailed fault => s!"Failed to load outputs, will retry: {fault.message}"
  | fetchFailed what fault => s!"Failed to {what.text}: {fault.message}"
  | windowMissed _ => "Found a faulty claim, but the challenge window has passed"
  | nodeBehind fault => s!"Local node not sufficiently up to date: {fault.message}"
  | syncCheckFailed fault => s!"Failed to check local node sync status: {fault.message}"
  | inspectionFailed fault => s!"Error when acting on game: {fault.message}"
  | submissionFailed _ fault => s!"Failed to submit transaction: {fault.message}"
  | statusUnreadable fault => s!"Unable to retrieve game status: {fault.message}"
  | claimCountUnreadable fault => s!"Failed to get claim count: {fault.message}"
  | transactionFailed fault => s!"Transaction failed: {fault.message}"
  | gameFailed fault => s!"Error handling game: {fault.message}"
  | creationEventFailed fault => s!"Error handling DisputeGameCreated event: {fault.message}"

end Notice

/-! ## The interface -/

inductive Watch.Ask (γ : Type)
  | fetch (what : Fetch)
  | read (game : γ) (what : Read)
  /-- Whether the rollup node has come as far as the L1 block. -/
  | validate (head : L1.Head)
  | submit (game : Address) (action : Game.Action)
  /-- The time in seconds since 1970. -/
  | now
  /-- Whether the signal to stop has been given. -/
  | stopping
  /-- Waits for at least `least` milliseconds and for less than `slack` more. -/
  | pause (least slack : Nat)
  | notify (notice : Notice)
  deriving DecidableEq

/-- A request is answered by nothing, and a pause by `true`, if the signal to stop came first. -/
abbrev Watch.Reply (γ : Type) : Watch.Ask γ → Type
  | .fetch what => Option (Except Fault what.Value)
  | .read _ what => Except Fault (what.Value γ)
  | .validate _ | .submit .. => Except Fault Unit
  | .now => UInt64
  | .stopping | .pause .. => Bool
  | .notify _ => Unit

abbrev Watch (γ : Type) : Interface := ⟨Watch.Ask γ, Watch.Reply γ⟩

/-- Asks one question. -/
def Watch.ask {γ : Type} (q : Watch.Ask γ) : Program (Watch γ) (Watch.Reply γ q) :=
  Program.query (I := Watch γ) q

end Watchtower
