import Watchtower.Bytes.Hex
import Watchtower.Json

/-!
# JSON-RPC requests, and how they fail

* `Request` : the requests that are made of nodes; `Request.method` and `Request.params` are what
  goes over the wire. Contracts are read at the latest block;
* `RpcFault` : the node's own error, no answer at all, or an answer of another shape;
* `RpcFault.text` : the wording that reaches a log or an error text;
* `RpcFault.isRevert` : whether the node says that the call reverted.
-/

namespace Watchtower

inductive Request
  | call (callee : Address) (data : Bytes)
  /-- A block, with its transactions in full or only their hashes. -/
  | blockByHash (hash : Hash) (full : Bool)
  | blockByNumber (number : UInt64)
  | receipts (block : Hash)
  /-- An entry of the node's own database. -/
  | database (key : Bytes)
  /-- What proves the state of an account at a block. -/
  | proof (account : Address) (block : Hash)
  | output (block : UInt64)
  | syncStatus
  deriving DecidableEq

namespace Request

def method : Request → String
  | call .. => "eth_call"
  | blockByHash .. => "eth_getBlockByHash"
  | blockByNumber _ => "eth_getBlockByNumber"
  | receipts _ => "eth_getBlockReceipts"
  | database _ => "debug_dbGet"
  | proof .. => "eth_getProof"
  | output _ => "optimism_outputAtBlock"
  | syncStatus => "optimism_syncStatus"

def params : Request → Json
  | call callee data => .array
    [.object [("to", .string callee.hex), ("data", .string (hexOf data))], .string "latest"]
  | blockByHash hash full => .array [.string hash.hex, .bool full]
  | blockByNumber number => .array [.string (quantityOf number.toNat), .bool false]
  | receipts block => .array [.string block.hex]
  | database key => .array [.string (hexOf key)]
  | proof account block => .array
    [.string account.hex, .array [], .object [("blockHash", .string block.hex)]]
  | output block => .array [.string (quantityOf block.toNat)]
  | syncStatus => .null

end Request

inductive RpcFault
  /-- The node answered with an error object; `data` is its extra value, as text. -/
  | returned (code : Int) (message : String) (data : Option String)
  /-- The request got no answer; the text says why. -/
  | transport (reason : String)
  /-- The answer is not of the expected shape. -/
  | malformed
  deriving DecidableEq

def RpcFault.text : RpcFault → String
  | .returned code message none => s!"(code: {code}, message: {message}, data: None)"
  | .returned code message (some data) => s!"(code: {code}, message: {message}, data: Some({data}))"
  | .transport reason => reason
  | .malformed => "malformed response"

/-- Whether `part` stands somewhere in `whole`. -/
def occursIn (part : List Char) : List Char → Bool
  | [] => part.isEmpty
  | c :: rest => part.isPrefixOf (c :: rest) || occursIn part rest

/-- A node reports a reverted call in its message, always in lower case. -/
def RpcFault.isRevert : RpcFault → Bool
  | .returned _ message _ => occursIn "revert".toList message.toList
  | _ => false

end Watchtower
