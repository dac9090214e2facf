import Watchtower.OutputLoad

/-!
# The inspector of a game

Once a tick it compares the claims of one game with the outputs of the rollup node, and says what
to send. It remembers nothing between ticks but the cached outputs.

* `L1.Head.ofHeader` : the L1 head of a game, from the header of its block. A pending block lacks
  its hash or its number, the hash being looked at first;
* `detectFault` : the index of a claim that differs. The last block comes first: a wrong root claim
  shows with a single output. Only if it agrees is the hash over all claims recomputed, and only if
  that differs are the claims themselves fetched;
* `Inspector.inspect` : the finding of a tick;
* `Inspector.ancestorsSound` : whether no game that this one builds on is lost or faulty. A game
  that builds on a faulty one is invalid whatever it claims;
* `Inspector.act` : the actions of a tick. Open challenges are settled first (`settlement`), then a
  game whose clock has run out is ended instead of inspected (`ends`), a game that a challenge has
  succeeded against is left alone, and only then is a challenge signalled (`signal`).
-/

namespace Watchtower

open Work OutputCache

variable {γ : Type}

def L1.Head.ofHeader (header : Header) : Except Fault Head :=
  match header.hash, header.number with
  | none, _ => .error Cause.headWithoutHash
  | some hash, none => .error (Cause.headWithoutNumber hash)
  | some hash, some number => .ok ⟨hash, number⟩

def detectFault (rounds : Nat) (game : γ) (range : Game.Range) (head : L1.Head) :
    Work γ (Option UInt64) := do
  let rootClaim ← read game .rootClaim
  let last ← loadOne range.last
  if rootClaim ≠ last.root then return some range.endIndex
  let committed ← read game .claimsHash
  let outputs ← loadRange rounds range
  if Game.claimsHash (outputs.map Rollup.Output.root) = committed then return none
  let claimed ← within .fetchingClaims (read game (.claims head))
  let index ← ofExcept (Game.locateDivergence (outputs.map Rollup.Output.root) claimed)
  have inside : index.val < outputs.length := by have := index.isLt; simpa using this
  return some (range.indexOf outputs[index.val].number)

structure Inspector (γ : Type) where
  game : γ
  range : Game.Range
  window : Game.Window
  head : L1.Head
  /-- How many rounds its loops may go. -/
  rounds : Nat

namespace Inspector

def inspect (i : Inspector γ) : Work γ Game.Finding := do
  let fault ← detectFault i.rounds i.game i.range i.head
  let late := i.window.hasPassed (← ask .now)
  match fault with
  | none => return .clean late
  | some target =>
    let challenged ← read i.game (.challenged target)
    return ⟨true, target, challenged, late⟩

/-- Walks from a game to the game it builds on, at most `rounds` times. A game that does not say
its stride is given the inspector's own. -/
def ancestorsSound (i : Inspector γ) : (rounds : Nat) → Option γ → Work γ Bool
  | _, none => return true
  | 0, some _ => stuck
  | rounds + 1, some ancestor => do
    match ← read ancestor .status with
    | .defenderWins => return true
    | .challengerWins => return false
    | .inProgress =>
      let (first, last) ← read ancestor .blockRange
      let distance ← read ancestor .blockDistance
      let stride := if distance = 0 then i.range.stride else distance
      let range ← ofExcept (Game.Range.of first last stride)
      let header ← fetch (.header (← read ancestor .l1Head))
      let head ← ofExcept (L1.Head.ofHeader header)
      if (← detectFault i.rounds ancestor range head).isSome then return false
      i.ancestorsSound rounds (← read ancestor .parent)

/-- Settles the open challenges of the game, unless one has succeeded. -/
def settlement (i : Inspector γ) (succeeded : Bool) : Work γ (List Game.Action) := do
  if succeeded then return []
  return if ← read i.game .canResolveClaim then [.resolveClaim] else []

/-- Whether the game is to be ended, which it cannot be before its clock has run out. -/
def ends (i : Inspector γ) : Work γ Bool := do
  if i.window.isResolvable (← ask .now) then read i.game .canResolve else return false

/-- The challenge that follows from an inspection, if one does. -/
def signal (i : Inspector γ) : Work γ (List Game.Action) := do
  match (← i.inspect).verdict with
  | .noFault | .alreadyChallenged _ => return []
  | .windowMissed index =>
    notify (.windowMissed index)
    return []
  | .challenge index =>
    return if ← i.ancestorsSound i.rounds (← read i.game .parent) then [.challenge index] else []

def act (i : Inspector γ) : Work γ (List Game.Action) := do
  if (← read i.game .status) ≠ .inProgress then return []
  let succeeded ← read i.game .challengeSuccess
  let settling ← i.settlement succeeded
  if ← i.ends then return settling ++ [.resolve]
  if succeeded then return settling
  return settling ++ (← i.signal)

end Inspector

end Watchtower
