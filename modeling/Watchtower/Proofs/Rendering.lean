import Watchtower.Rpc.Answer

/-!
# Blocks written as a node writes them

* `Json.ofHash`, `Json.ofAddress`, `Json.ofOctets` : values in strings, which are read back;
* `L1.Event.json`, `L1.Receipt.json`, `L1.Transaction.json` : parts of a block, with zero for what is
  not used. Each is read back (`L1.Receipt.ofJson?_json` …);
* `L1.headerJson`, `L1.blockJson` : a block of a given hash, without and with its transactions.
-/

namespace Watchtower

namespace Json

def ofHash (h : Hash) : Json := .string h.hex

def ofAddress (a : Address) : Json := .string a.hex

def ofOctets (bytes : Bytes) : Json := .string (hexOf bytes)

def zero : Json := .string "0x0"

theorem hash?_ofHash (h : Hash) : hash? (ofHash h) = some h := h.ofHex?_hex

theorem isNull_ofHash (h : Hash) : (ofHash h).isNull = false := rfl

theorem address?_ofAddress (a : Address) : address? (ofAddress a) = some a := a.ofHex?_hex

theorem octets?_ofOctets (bytes : Bytes) : octets? (ofOctets bytes) = some bytes :=
  ofHex?_hexOf bytes

theorem fixed?_ofOctets {size : Nat} {bytes : Bytes} (h : bytes.length = size) :
    fixed? size (ofOctets bytes) = some bytes := fixedHex?_hexOf h

theorem number?_zero : number? zero = some 0 := by decide +kernel

theorem word?_zero : word? zero = some 0 := by decide +kernel

/-- The filter of a block without events. -/
def noBloom : Json := ofOctets (List.replicate 256 0)

theorem exists_fixed?_noBloom : ∃ octets, fixed? 256 noBloom = some octets :=
  ⟨_, fixed?_ofOctets List.length_replicate⟩

theorem list?_array {α : Type} {item : Json → Option α} {write : α → Json}
    (h : ∀ a, item (write a) = some a) (values : List α) :
    list? item (.array (values.map write)) = some values := by
  change (values.map write).mapM item = some values
  induction values with
  | nil => rfl
  | cons a values ih =>
    rw [List.map_cons, List.mapM_cons, h, ih]
    rfl

end Json

open Json

namespace L1

def Event.json (event : Event) : Json := .object
  [("address", ofAddress event.address), ("topics", .array (event.topics.map ofHash)),
    ("data", ofOctets [])]

theorem Event.ofJson?_json (event : Event) : Event.ofJson? event.json = some event := by
  simp [Event.ofJson?, Event.json, asRecord, required, Json.optional, member?, List.lookup_cons,
    address?_ofAddress, list?_array hash?_ofHash, octets?_ofOctets]

def Receipt.jsonWith (bloom : Json) (receipt : Receipt) : Json := .object
  [("transactionHash", ofHash receipt.transaction), ("transactionIndex", zero),
    ("blockHash", (receipt.block.map ofHash).getD .null), ("from", ofAddress .zero),
    ("cumulativeGasUsed", zero), ("logs", .array (receipt.events.map Event.json)),
    ("logsBloom", bloom)]

theorem Receipt.ofJson?_jsonWith {bloom : Json} {octets : Bytes}
    (hbloom : fixed? 256 bloom = some octets) (receipt : Receipt) :
    Receipt.ofJson? (receipt.jsonWith bloom) = some receipt := by
  obtain ⟨transaction, block, events⟩ := receipt
  unfold Receipt.ofJson? Receipt.jsonWith
  cases block with
  | none =>
    simp [required, Json.optional, member?, List.lookup_cons, hash?_ofHash, address?_ofAddress,
      word?_zero, number?_zero, list?_array Event.ofJson?_json, hbloom, isNull]
  | some block =>
    simp [required, Json.optional, member?, List.lookup_cons, hash?_ofHash, address?_ofAddress,
      word?_zero, number?_zero, list?_array Event.ofJson?_json, hbloom, isNull_ofHash]

def Receipt.json (receipt : Receipt) : Json := receipt.jsonWith noBloom

theorem Receipt.ofJson?_json (receipt : Receipt) :
    Receipt.ofJson? receipt.json = some receipt := by
  obtain ⟨octets, hbloom⟩ := exists_fixed?_noBloom
  exact ofJson?_jsonWith hbloom receipt

def Transaction.json (t : Transaction) : Json := .object
  [("hash", ofHash t.hash), ("nonce", zero), ("value", zero), ("gas", zero),
    ("input", ofOctets t.input), ("v", zero), ("r", zero), ("s", zero)]

theorem Transaction.ofJson?_json (t : Transaction) : Transaction.ofJson? t.json = some t := by
  simp [Transaction.ofJson?, Transaction.json, required, Json.optional, defaulted, member?,
    List.lookup_cons, hash?_ofHash, number?_zero, word?_zero, octets?_ofOctets]

/-- A block without its transactions. -/
def headerJson (hash : Hash) : Json := .object [("hash", ofHash hash)]

theorem Header.ofJson?_headerJson (hash : Hash) :
    Header.ofJson? (headerJson hash) = some (.bare (some hash) none) := by
  simp [Header.ofJson?, headerJson, blockOfJson?, isObject, Json.optional, defaulted, member?,
    List.lookup_cons, hash?_ofHash, isNull_ofHash, Header.bare]

def blockJson (hash : Hash) (transactions : List Transaction) : Json := .object
  [("hash", ofHash hash), ("transactions", .array (transactions.map Transaction.json))]

theorem Block.ofJson?_blockJson (hash : Hash) (transactions : List Transaction) :
    ∃ header, Block.ofJson? (blockJson hash transactions) = some ⟨header, transactions⟩ := by
  refine ⟨{ Header.bare (some hash) none with transactionCount := transactions.length }, ?_⟩
  simp [Block.ofJson?, blockJson, blockOfJson?, isObject, Json.optional, defaulted, member?,
    List.lookup_cons, hash?_ofHash, isNull_ofHash, Header.bare,
    list?_array Transaction.ofJson?_json]

end L1

end Watchtower
