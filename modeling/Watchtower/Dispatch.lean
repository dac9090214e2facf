import Watchtower.Chain

/-!
# Sending transactions for everybody

All orders of a process go through one queue, and one transaction is sent at a time. Whoever placed
an order holds a ticket of type `τ` and hears what became of it, if still listening.

* `Dispatch τ` : what the queue and the node are asked;
* `Dispatch.carryOut` : one order, from being sent to its receipt;
* `Dispatch.serve` : the orders in the queue, one after another. A fault is reported and does not
  hold up the next order.
-/

namespace Watchtower

inductive Dispatch.Ask (τ : Type)
  /-- The next order; nothing once the signal to stop has been given or no order will come. -/
  | next
  /-- Signs and sends a transaction; the hash it has then, or why it was not taken. -/
  | send (order : Order)
  /-- Waits for a transaction to be in a block; nothing if it is gone. -/
  | await (transaction : Hash)
  /-- Tells what became of an order. -/
  | acknowledge (ticket : τ) (result : Except Fault Mined)
  | notify (notice : Notice)

abbrev Dispatch.Reply (τ : Type) : Dispatch.Ask τ → Type
  | .next => Option (τ × Order)
  | .send _ => Except RpcFault Hash
  | .await _ => Except Fault (Option Mined)
  | .acknowledge .. | .notify _ => Unit

abbrev Dispatch (τ : Type) : Interface := ⟨Dispatch.Ask τ, Dispatch.Reply τ⟩

namespace Dispatch

variable {τ : Type}

def ask (q : Dispatch.Ask τ) : Program (Dispatch τ) (Dispatch.Reply τ q) :=
  Program.query (I := Dispatch τ) q

/-- A transaction that is waited for is either in a block or gone. -/
def arrived : Except Fault (Option Mined) → Except Fault Mined
  | .ok (some mined) => .ok mined
  | .ok none => .error Cause.droppedFromMempool
  | .error fault => .error fault

def carryOut (order : Order) : Program (Dispatch τ) (Except Fault Mined) := do
  match ← ask (.send order) with
  | .error fault => return .error (Cause.sending fault.text)
  | .ok transaction => return arrived (← ask (.await transaction))

/-- One order, with the word about it. -/
def handleOrder (ticket : τ) (order : Order) : Program (Dispatch τ) Unit := do
  let result ← carryOut order
  match result with
  | .ok _ => pure ()
  | .error fault => ask (.notify (.transactionFailed fault))
  ask (.acknowledge ticket result)

/-- At most `orders` orders, as they come. -/
def serve : (orders : Nat) → Program (Dispatch τ) Unit
  | 0 => .stuck
  | orders + 1 => do
    match ← ask .next with
    | none => return ()
    | some (ticket, order) =>
      handleOrder ticket order
      serve orders

end Dispatch

end Watchtower
