import Watchtower.Contract

/-!
# Orders for transactions

* `order` : the transaction of an action on a game. A challenge takes a bond along;
* `requiredBond` : the bond that a game asks for, read right before the challenge;
* `settle` : what becomes of an action, given what became of its order: it has succeeded only if its
  own transaction is in a block and its receipt says so;
* `submit` : an action from the bond to the receipt.
-/

namespace Watchtower.Submission

def kindOf : Game.Action → TransactionKind
  | .challenge _ => .challenge
  | .resolveClaim => .resolveClaim
  | .resolve => .resolve

def callDataOf : Game.Action → Bytes
  | .challenge index => Abi.callData "challengeBySignal(uint256)" [⟨.number, index.toNat⟩]
  | .resolveClaim => Abi.callData "resolveClaim()" []
  | .resolve => Abi.callData "resolve()" []

def order (game : Address) (action : Game.Action) (bond : Option Nat) : Order :=
  ⟨game, callDataOf action, bond⟩

def requiredBond (game : Address) : Game.Action → Inquiry (Option Nat)
  | .challenge _ => some <$> Contract.get .readingBond game "challengerBond()" .number
  | .resolveClaim | .resolve => return none

def settle (kind : TransactionKind) : Delivery → Except Fault Unit
  | .stopped => .error Cause.dispatchStopped
  | .dropped => .error (Cause.transactionDropped kind)
  | .reported (.error fault) => .error fault
  | .reported (.ok mined) =>
    if mined.status = some 1 then .ok ()
    else .error (Cause.transactionReverted kind mined.transaction)

def submit (game : Address) (action : Game.Action) : Inquiry Unit := do
  let bond ← requiredBond game action
  let delivery ← Inquiry.query (.order (order game action bond))
  Inquiry.ofExcept (settle (kindOf action) delivery)

end Watchtower.Submission
