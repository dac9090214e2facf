import Watchtower.Program
import Watchtower.Rpc.Request
import Watchtower.Watch

/-!
# What the clients of nodes talk to

* `Order` : a transaction that someone else signs and sends; `Delivery` : what became of it;
* `Chain` : the interface: JSON-RPC requests, some of them in flight together, requests for chain
  data, and orders;
* `Inquiry α` : a program over it that ends in a value or a fault;
* `Inquiry.request`, `Inquiry.ask` : one request, and one whose result is read as a value.
-/

namespace Watchtower

structure Order where
  recipient : Address
  data : Bytes
  /-- The amount sent along. -/
  value : Option Nat
  deriving DecidableEq

/-- A transaction in a block, and how its execution ended. -/
structure Mined where
  transaction : Hash
  status : Option UInt64
  deriving DecidableEq

inductive Delivery
  | reported (result : Except Fault Mined)
  /-- The order was taken, but nothing was heard of it again. -/
  | dropped
  /-- Nobody takes orders any more. -/
  | stopped

inductive Chain.Ask
  /-- Requests that are in flight together. -/
  | send (requests : List Request)
  | fetch (what : Fetch)
  | order (order : Order)
  deriving DecidableEq

abbrev Chain.Reply : Chain.Ask → Type
  | .send requests => Vector (Except RpcFault Json) requests.length
  | .fetch what => Except Fault what.Value
  | .order _ => Delivery

abbrev Chain : Interface := ⟨Chain.Ask, Chain.Reply⟩

abbrev Inquiry (α : Type) : Type := ExceptT Fault (Program Chain) α

namespace Inquiry

variable {α : Type}

def query (q : Chain.Ask) : Program Chain (Chain.Reply q) := Program.query (I := Chain) q

def request (r : Request) : Inquiry (Except RpcFault Json) := do
  let replies : Vector (Except RpcFault Json) 1 ← query (.send [r])
  return replies[0]

def fetch (what : Fetch) : Inquiry what.Value := ExceptT.mk (query (.fetch what))

def ofExcept : Except Fault α → Inquiry α
  | .ok value => return value
  | .error fault => throw fault

/-- The same inquiry, its fault seen from a context. -/
def within (context : Context) (x : Inquiry α) : Inquiry α :=
  ExceptT.mk (inContext context <$> x.run)

/-- The result of a request as a value. -/
def readAnswer (item : Json → Option α) (reply : Except RpcFault Json) : Except RpcFault α :=
  reply >>= fun value => match item value with
    | some a => .ok a
    | none => .error .malformed

def ask (context : Context) (r : Request) (item : Json → Option α) : Inquiry α := do
  match readAnswer item (← request r) with
  | .ok value => return value
  | .error fault => throw (Fault.within context (Cause.rpc fault))

end Inquiry

end Watchtower
