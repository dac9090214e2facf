import Watchtower.Contract
import Watchtower.Proofs.Rely
import Watchtower.Proofs.Rendering
import Watchtower.Sources

/-!
# Whose call a game's claims are decoded from

The claims of a game are looked for in a block that a node tells of, with any receipts, events and
transactions. The node's answers are taken as they are; each question has one answer, as none is
asked twice.

* `x.outcome answers` : what an inquiry comes to;
* `Shows`, `Lists` : the block, its receipts and its transactions in the answers of a node;
* `c.AnnouncedBy event`, `c.AnnouncedIn receipt` : the creation of a game is announced by an event, or
  by one in a receipt; `IsFirst p list a` : the first that there is;
* `c.relevant hash receipts` : what is left of receipts without all other events;
* `claims_of_creation` : the claims are those in the call of the transaction that the first
  announcement names, and nothing else in the block matters;
* `shows_showing` : there is a node for every block.
-/

namespace Watchtower

namespace Inquiry

variable {α β : Type} {answers : (q : Chain.Ask) → Chain.Reply q} {x : Inquiry α}
  {f : α → Inquiry β}

/-- What an inquiry comes to if each question always has the same answer. -/
def outcome (answers : (q : Chain.Ask) → Chain.Reply q) (x : Inquiry α) :
    Option (Except Fault α) :=
  (x.run.run (fun q s => (answers q, s)) ()).map Prod.fst

theorem outcome_bind (x : Inquiry α) (f : α → Inquiry β) :
    (x >>= f).outcome answers = match x.outcome answers with
      | some (.ok a) => (f a).outcome answers
      | some (.error fault) => some (.error fault)
      | none => none := by
  unfold outcome
  change Option.map Prod.fst ((x.run >>= fun r => ExceptT.bindCont f r).run _ ()) = _
  rw [Program.run_bind]
  cases x.run.run (fun q s => (answers q, s)) () with
  | none => rfl
  | some r =>
    obtain ⟨fault | a, -⟩ := r
    · rfl
    · rfl

theorem outcome_bind_of_ok {a : α} (h : x.outcome answers = some (.ok a)) :
    (x >>= f).outcome answers = (f a).outcome answers := by
  rw [outcome_bind, h]

theorem outcome_bind_of_error {fault : Fault} (h : x.outcome answers = some (.error fault)) :
    (x >>= f).outcome answers = some (.error fault) := by
  rw [outcome_bind, h]

theorem outcome_bind_ok_iff {b : β} : (x >>= f).outcome answers = some (.ok b) ↔
    ∃ a, x.outcome answers = some (.ok a) ∧ (f a).outcome answers = some (.ok b) := by
  rw [outcome_bind]
  constructor
  · intro h
    split at h
    · next a ha => exact ⟨a, ha, h⟩
    · cases Option.some.inj h
    · cases h
  · rintro ⟨a, ha, hb⟩
    rw [ha]
    exact hb

theorem fromNodes_bind (x : Inquiry α) (f : α → Inquiry β) :
    (x >>= f).fromNodes = x.fromNodes >>= fun a => (f a).fromNodes := by
  change ExceptT.mk ((x.run >>= fun r => ExceptT.bindCont f r).handle sourced) = _
  rw [Program.handle_bind]
  refine congrArg (x.run.handle sourced >>= ·) (funext fun r => ?_)
  cases r with
  | error fault => rfl
  | ok a => rfl

theorem fromNodes_fetch (what : Fetch) : (fetch what).fromNodes = what.inquire :=
  Program.bind_done what.inquire.run

/-! ## Requests -/

/-- The answer to a request that is made by itself. -/
def reply (answers : (q : Chain.Ask) → Chain.Reply q) (r : Request) : Except RpcFault Json :=
  Vector.get (α := Except RpcFault Json) (n := 1) (answers (.send [r])) ⟨0, Nat.one_pos⟩

/-- The answer to a request is a value. -/
def Says (answers : (q : Chain.Ask) → Chain.Reply q) (r : Request) (item : Json → Option α)
    (a : α) : Prop := readAnswer item (reply answers r) = .ok a

theorem readAnswer_ok {item : Json → Option α} {value : Json} {a : α} (h : item value = some a) :
    readAnswer item (.ok value) = .ok a := by
  simp [readAnswer, bind, Except.bind, h]

theorem outcome_ask (context : Context) (r : Request) (item : Json → Option α) :
    (ask context r item).outcome answers = some (match readAnswer item (reply answers r) with
      | .ok a => .ok a
      | .error fault => .error (Fault.within context (Cause.rpc fault))) := by
  unfold ask
  rw [outcome_bind_of_ok (a := reply answers r) rfl]
  cases readAnswer item (reply answers r) with
  | ok a => rfl
  | error fault => rfl

theorem outcome_ask_ok_iff {context : Context} {r : Request} {item : Json → Option α} {a : α} :
    (ask context r item).outcome answers = some (.ok a) ↔ Says answers r item a := by
  unfold Says
  rw [outcome_ask, Option.some.injEq]
  cases readAnswer item (reply answers r) with
  | ok b => simp only [Except.ok.injEq]
  | error fault => exact iff_of_false nofun nofun

/-- An inquiry that does not get stuck. -/
def Returns (x : Inquiry α) : Prop := ∀ answers, ∃ result, x.outcome answers = some result

theorem returns_pure (a : α) : (pure a : Inquiry α).Returns := fun _ => ⟨.ok a, rfl⟩

theorem returns_throw (fault : Fault) : (throw fault : Inquiry α).Returns :=
  fun _ => ⟨.error fault, rfl⟩

theorem returns_ask (context : Context) (r : Request) (item : Json → Option α) :
    (ask context r item).Returns := fun _ => ⟨_, outcome_ask context r item⟩

theorem Returns.bind (h : x.Returns) (hf : ∀ a, (f a).Returns) : (x >>= f).Returns := by
  intro answers
  obtain ⟨fault | a, hx⟩ := h answers
  · exact ⟨.error fault, outcome_bind_of_error hx⟩
  · obtain ⟨result, hresult⟩ := hf a answers
    exact ⟨result, (outcome_bind_of_ok hx).trans hresult⟩

end Inquiry

open Inquiry

namespace Execution

variable {answers : (q : Chain.Ask) → Chain.Reply q}

/-- What is found, or else a fault. -/
def present {α : Type} (missing : Fault) : Option α → Inquiry α
  | some found => return found
  | none => throw missing

theorem headerAt_eq (number : UInt64) : headerAt number =
    ask (.fetchingNumber number) (.blockByNumber number) (nullable L1.Header.ofJson?) >>=
      present (Cause.numberNotFound number) :=
  congrArg (ask .. >>= ·) (funext fun found => by cases found <;> rfl)

theorem header_eq (hash : Hash) : header hash =
    ask (.fetchingBlock hash) (.blockByHash hash false) (nullable L1.Header.ofJson?) >>=
      present (Cause.blockNotFound hash) :=
  congrArg (ask .. >>= ·) (funext fun found => by cases found <;> rfl)

theorem block_eq (hash : Hash) : block hash =
    ask (.fetchingBlock hash) (.blockByHash hash true) (nullable L1.Block.ofJson?) >>=
      present (Cause.blockNotFound hash) :=
  congrArg (ask .. >>= ·) (funext fun found => by cases found <;> rfl)

section
variable {α : Type} {context : Context} {r : Request} {item : Json → Option (Option α)}
  {missing : Fault}

theorem outcome_present_ok_iff {a : α} :
    (ask context r item >>= present missing).outcome answers = some (.ok a) ↔
      Says answers r item (some a) := by
  rw [outcome_bind_ok_iff]
  simp only [outcome_ask_ok_iff]
  constructor
  · rintro ⟨_ | found, hsays, h⟩
    · cases h
    · cases h
      exact hsays
  · exact fun hsays => ⟨some a, hsays, rfl⟩

theorem returns_present : (ask context r item >>= present missing).Returns := by
  refine (returns_ask context r item).bind ?_
  rintro (_ | found)
  · exact returns_throw missing
  · exact returns_pure found

end

/-- Receipts are given if all are of the block. -/
theorem outcome_receipts {hash : Hash} {found : L1.Header} {list : List L1.Receipt}
    (hheader : Says answers (.blockByHash hash false) (nullable L1.Header.ofJson?) (some found))
    (hlist : Says answers (.receipts hash) (Json.list? L1.Receipt.ofJson?) list) :
    (receipts hash).outcome answers = some (match list.find? (·.block ≠ some hash) with
      | some receipt => .error (Cause.foreignReceipt receipt.transaction hash)
      | none => .ok (found, list)) := by
  unfold receipts
  rw [header_eq, outcome_bind_of_ok (outcome_present_ok_iff.mpr hheader),
    outcome_bind_of_ok (outcome_ask_ok_iff.mpr hlist)]
  cases list.find? (·.block ≠ some hash) with
  | some receipt => rfl
  | none => rfl

theorem says_of_outcome_receipts {hash : Hash} {found : L1.Header × List L1.Receipt}
    (h : (receipts hash).outcome answers = some (.ok found)) :
    Says answers (.blockByHash hash false) (nullable L1.Header.ofJson?) (some found.1) ∧
      Says answers (.receipts hash) (Json.list? L1.Receipt.ofJson?) found.2 := by
  unfold receipts at h
  rw [header_eq] at h
  obtain ⟨header, hheader, h⟩ := outcome_bind_ok_iff.mp h
  obtain ⟨list, hlist, h⟩ := outcome_bind_ok_iff.mp h
  split at h
  · cases h
  · cases h
    exact ⟨outcome_present_ok_iff.mp hheader, outcome_ask_ok_iff.mp hlist⟩

theorem returns_receipts (hash : Hash) : (receipts hash).Returns := by
  unfold receipts
  rw [header_eq]
  refine returns_present.bind fun header => Returns.bind (returns_ask _ _ _) fun list => ?_
  split
  · exact returns_throw _
  · exact returns_pure _

end Execution

/-! ## Whom the receipts name -/

/-- The first element of a list that has a property. -/
def IsFirst {α : Type} (p : α → Prop) (list : List α) (a : α) : Prop :=
  ∃ before after, list = before ++ a :: after ∧ p a ∧ ∀ b ∈ before, ¬ p b

theorem isFirst_iff {α : Type} {p : α → Prop} {q : α → Bool} (hq : ∀ a, p a ↔ q a = true)
    {list : List α} {a : α} : IsFirst p list a ↔ list.find? q = some a := by
  rw [List.find?_eq_some_iff_append]
  unfold IsFirst
  simp only [hq, Bool.not_eq_true, Bool.not_eq_true']
  constructor
  · rintro ⟨before, after, rfl, ha, hbefore⟩
    exact ⟨ha, before, after, rfl, hbefore⟩
  · rintro ⟨ha, before, after, rfl, hbefore⟩
    exact ⟨before, after, rfl, ha, hbefore⟩

namespace Contract

variable {c : Contract} {hash : Hash}

/-- The event announces the creation of the game by its factory. -/
structure AnnouncedBy (c : Contract) (event : L1.Event) : Prop where
  emitter : event.address = c.factory
  signature : event.topics[0]? = some (Abi.topic "DisputeGameCreated(address,uint32,bytes32)")
  game : event.topics[1]? = some c.address.padded

theorem announcedBy_iff {event : L1.Event} :
    c.AnnouncedBy event ↔ isCreation c.factory c.address event = true := by
  unfold isCreation
  simp only [Bool.and_eq_true, decide_eq_true_eq]
  constructor
  · exact fun ⟨hemitter, hsignature, hgame⟩ => ⟨⟨hemitter, hsignature⟩, hgame⟩
  · exact fun ⟨⟨hemitter, hsignature⟩, hgame⟩ => ⟨hemitter, hsignature, hgame⟩

instance (event : L1.Event) : Decidable (c.AnnouncedBy event) :=
  decidable_of_iff _ announcedBy_iff.symm

def AnnouncedIn (c : Contract) (receipt : L1.Receipt) : Prop :=
  ∃ event ∈ receipt.events, c.AnnouncedBy event

theorem announcedIn_iff {receipt : L1.Receipt} :
    c.AnnouncedIn receipt ↔ receipt.events.any (isCreation c.factory c.address) = true := by
  rw [List.any_eq_true]
  exact exists_congr fun event => and_congr_right fun _ => announcedBy_iff

theorem creator?_of_isFirst {receipts : List L1.Receipt} {receipt : L1.Receipt}
    (h : IsFirst c.AnnouncedIn receipts receipt) :
    creator? c.factory c.address receipts = some receipt.transaction := by
  unfold creator?
  rw [(isFirst_iff fun _ => announcedIn_iff).mp h]
  rfl

theorem exists_isFirst_of_creator? {receipts : List L1.Receipt} {transaction : Hash}
    (h : creator? c.factory c.address receipts = some transaction) :
    ∃ receipt, IsFirst c.AnnouncedIn receipts receipt ∧ receipt.transaction = transaction := by
  obtain ⟨receipt, hfind, rfl⟩ := Option.map_eq_some_iff.mp h
  exact ⟨receipt, (isFirst_iff fun _ => announcedIn_iff).mpr hfind, rfl⟩

theorem creator?_eq_none_iff {receipts : List L1.Receipt} :
    creator? c.factory c.address receipts = none ↔ ∀ r ∈ receipts, ¬ c.AnnouncedIn r := by
  unfold creator?
  rw [Option.map_eq_none_iff, List.find?_eq_none]
  exact forall_congr' fun r => imp_congr_right fun _ => not_congr announcedIn_iff.symm

/-- The transaction of the first receipt of another block. -/
def stray? (hash : Hash) (receipts : List L1.Receipt) : Option Hash :=
  (receipts.find? (·.block ≠ some hash)).map L1.Receipt.transaction

theorem stray?_of_isFirst {receipts : List L1.Receipt} {receipt : L1.Receipt}
    (h : IsFirst (fun r => r.block ≠ some hash) receipts receipt) :
    stray? hash receipts = some receipt.transaction := by
  unfold stray?
  rw [(isFirst_iff fun _ => decide_eq_true_iff.symm).mp h]
  rfl

theorem stray?_eq_none_iff {receipts : List L1.Receipt} :
    stray? hash receipts = none ↔ ∀ r ∈ receipts, r.block = some hash := by
  unfold stray?
  rw [Option.map_eq_none_iff, List.find?_eq_none]
  exact forall_congr' fun r => imp_congr_right fun _ => by simp

/-! ## What matters of receipts -/

/-- A receipt without all other events. -/
def stripped (c : Contract) (receipt : L1.Receipt) : L1.Receipt :=
  { receipt with events := receipt.events.filter c.AnnouncedBy }

theorem any_stripped (c : Contract) (receipt : L1.Receipt) :
    (c.stripped receipt).events.any (isCreation c.factory c.address) =
      receipt.events.any (isCreation c.factory c.address) := by
  unfold stripped
  rw [List.any_filter]
  refine congrArg receipt.events.any (funext fun event => ?_)
  rw [Bool.and_eq_right_iff_imp, decide_eq_true_eq, announcedBy_iff]
  exact id

/-- Of receipts, those that announce the game, with nothing but that, and those of other blocks. -/
def relevant (c : Contract) (hash : Hash) (receipts : List L1.Receipt) : List L1.Receipt :=
  (receipts.map c.stripped).filter fun r => r.events ≠ [] ∨ r.block ≠ some hash

theorem stray?_relevant (c : Contract) (hash : Hash) (receipts : List L1.Receipt) :
    stray? hash (c.relevant hash receipts) = stray? hash receipts := by
  unfold stray? relevant
  rw [List.find?_filter, List.find?_map, Option.map_map]
  refine congrArg (Option.map L1.Receipt.transaction) (congrArg (List.find? · receipts) ?_)
  funext receipt
  by_cases hforeign : receipt.block = some hash <;> simp [stripped, hforeign]

theorem creator?_relevant (c : Contract) (hash : Hash) (receipts : List L1.Receipt) :
    creator? c.factory c.address (c.relevant hash receipts) =
      creator? c.factory c.address receipts := by
  unfold creator? relevant
  rw [List.find?_filter, List.find?_map, Option.map_map]
  refine congrArg (Option.map L1.Receipt.transaction) (congrArg (List.find? · receipts) ?_)
  funext receipt
  rw [Function.comp_apply, any_stripped, Bool.eq_iff_iff, decide_eq_true_eq, decide_eq_true_eq]
  refine and_iff_right_of_imp fun h => .inl fun hnone => ?_
  rw [← any_stripped, hnone] at h
  cases h

/-! ## The claims in the creating call -/

variable {answers : (q : Chain.Ask) → Chain.Reply q}

def claimsOfCall (hash transaction : Hash) : Inquiry (List Hash) := do
  let block ← Inquiry.fetch (.l1Block hash)
  match block.transactions.find? (·.hash = transaction) with
  | none => throw (Cause.transactionNotFound transaction : Fault)
  | some call =>
    Inquiry.within (.decodingCreation transaction) (Inquiry.ofExcept (decodeClaims call.input))

def claimsInBlock (c : Contract) (number : UInt64) (hash : Hash) : Inquiry (List Hash) := do
  let (_, receipts) ← Inquiry.fetch (.receipts hash)
  match creator? c.factory c.address receipts with
  | none => throw (Cause.creationNotFound c.address number : Fault)
  | some transaction => claimsOfCall hash transaction

theorem read_claims (c : Contract) (head : L1.Head) :
    c.read (.claims head) = Inquiry.fetch (.headerAt (head.number + 1)) >>= fun header =>
      match header.hash with
      | none => throw (Cause.blockWithoutHash (head.number + 1) : Fault)
      | some hash => c.claimsInBlock (head.number + 1) hash := rfl

/-- The node tells of a block of this number and hash, and of its receipts. -/
structure Shows (answers : (q : Chain.Ask) → Chain.Reply q) (number : UInt64) (hash : Hash)
    (receipts : List L1.Receipt) : Prop where
  numbered : ∃ header, header.hash = some hash ∧
    Says answers (.blockByNumber number) (Execution.nullable L1.Header.ofJson?) (some header)
  known : ∃ header,
    Says answers (.blockByHash hash false) (Execution.nullable L1.Header.ofJson?) (some header)
  receipts : Says answers (.receipts hash) (Json.list? L1.Receipt.ofJson?) receipts

/-- And of its transactions. -/
def Lists (answers : (q : Chain.Ask) → Chain.Reply q) (hash : Hash)
    (transactions : List L1.Transaction) : Prop :=
  ∃ header, Says answers (.blockByHash hash true) (Execution.nullable L1.Block.ofJson?)
    (some ⟨header, transactions⟩)

theorem outcome_claimsOfCall {hash : Hash} {transactions : List L1.Transaction}
    (h : Lists answers hash transactions) (transaction : Hash) :
    (claimsOfCall hash transaction).fromNodes.outcome answers =
      some (match transactions.find? (·.hash = transaction) with
        | none => .error (Cause.transactionNotFound transaction)
        | some call => inContext (.decodingCreation transaction) (decodeClaims call.input)) := by
  obtain ⟨header, hblock⟩ := h
  unfold claimsOfCall
  rw [fromNodes_bind, fromNodes_fetch]
  change (Execution.block hash >>= _).outcome answers = _
  rw [Execution.block_eq, outcome_bind_of_ok (Execution.outcome_present_ok_iff.mpr hblock)]
  cases transactions.find? (·.hash = transaction) with
  | none => rfl
  | some call =>
    dsimp only
    cases decodeClaims call.input with
    | ok claims => rfl
    | error fault => rfl

section
variable {number : UInt64} {receipts : List L1.Receipt} {head : L1.Head}

/-- Once the node tells of the block, all depends on its receipts. -/
theorem outcome_read_claims (h : Shows answers number hash receipts)
    (hnumber : head.number + 1 = number) :
    (c.read (.claims head)).fromNodes.outcome answers =
      match stray? hash receipts with
      | some transaction => some (.error (Cause.foreignReceipt transaction hash))
      | none => match creator? c.factory c.address receipts with
        | none => some (.error (Cause.creationNotFound c.address number))
        | some transaction => (claimsOfCall hash transaction).fromNodes.outcome answers := by
  obtain ⟨⟨first, hhash, hfirst⟩, ⟨second, hsecond⟩, hreceipts⟩ := h
  have hsources := Execution.outcome_receipts hsecond hreceipts
  rw [read_claims, hnumber, fromNodes_bind, fromNodes_fetch]
  change (Execution.headerAt number >>= _).outcome answers = _
  rw [Execution.headerAt_eq, outcome_bind_of_ok (Execution.outcome_present_ok_iff.mpr hfirst), hhash]
  dsimp only
  unfold claimsInBlock
  rw [fromNodes_bind, fromNodes_fetch]
  change (Execution.receipts hash >>= _).outcome answers = _
  unfold stray?
  cases hforeign : receipts.find? (·.block ≠ some hash) with
  | some receipt =>
    rw [hforeign] at hsources
    exact outcome_bind_of_error hsources
  | none =>
    rw [hforeign] at hsources
    rw [outcome_bind_of_ok hsources, Option.map_none]
    dsimp only
    cases creator? c.factory c.address receipts with
    | none => rfl
    | some transaction => rfl

theorem shows_of_ok {claims : List Hash} (hnumber : head.number + 1 = number)
    (h : (c.read (.claims head)).fromNodes.outcome answers = some (.ok claims)) :
    ∃ hash receipts, Shows answers number hash receipts := by
  rw [read_claims, hnumber, fromNodes_bind, fromNodes_fetch] at h
  obtain ⟨header, hheader, h⟩ := outcome_bind_ok_iff.mp h
  change (Execution.headerAt number).outcome answers = _ at hheader
  rw [Execution.headerAt_eq] at hheader
  cases hhash : header.hash with
  | none =>
    rw [hhash] at h
    cases h
  | some hash =>
    rw [hhash] at h
    change (c.claimsInBlock number hash).fromNodes.outcome answers = _ at h
    unfold claimsInBlock at h
    rw [fromNodes_bind, fromNodes_fetch] at h
    obtain ⟨found, hfound, -⟩ := outcome_bind_ok_iff.mp h
    obtain ⟨hknown, hreceipts⟩ := Execution.says_of_outcome_receipts hfound
    exact ⟨hash, found.2, ⟨header, hhash, Execution.outcome_present_ok_iff.mp hheader⟩,
      ⟨found.1, hknown⟩, hreceipts⟩

theorem lists_of_ok {transaction : Hash} {claims : List Hash}
    (h : (claimsOfCall hash transaction).fromNodes.outcome answers = some (.ok claims)) :
    ∃ transactions, Lists answers hash transactions := by
  unfold claimsOfCall at h
  rw [fromNodes_bind, fromNodes_fetch] at h
  obtain ⟨block, hblock, -⟩ := outcome_bind_ok_iff.mp h
  change (Execution.block hash).outcome answers = _ at hblock
  rw [Execution.block_eq] at hblock
  exact ⟨block.transactions, block.header, Execution.outcome_present_ok_iff.mp hblock⟩

theorem returns_claimsOfCall (hash transaction : Hash) :
    (claimsOfCall hash transaction).fromNodes.Returns := by
  unfold claimsOfCall
  rw [fromNodes_bind, fromNodes_fetch]
  have hblock : (Execution.block hash).Returns := by
    rw [Execution.block_eq]
    exact Execution.returns_present
  refine Returns.bind hblock fun block => ?_
  split
  · exact returns_throw _
  · next call _ =>
    cases decodeClaims call.input with
    | ok claims => exact returns_pure claims
    | error fault => exact returns_throw (fault.within _)

theorem returns_read_claims (c : Contract) (head : L1.Head) :
    (c.read (.claims head)).fromNodes.Returns := by
  rw [read_claims, fromNodes_bind, fromNodes_fetch]
  have hheader : (Execution.headerAt (head.number + 1)).Returns := by
    rw [Execution.headerAt_eq]
    exact Execution.returns_present
  refine Returns.bind hheader fun header => ?_
  split
  · exact returns_throw _
  · next hash _ =>
    unfold claimsInBlock
    rw [fromNodes_bind, fromNodes_fetch]
    refine Returns.bind (Execution.returns_receipts hash) fun (_, receipts) => ?_
    dsimp only
    split
    · exact returns_throw _
    · next transaction _ => exact returns_claimsOfCall hash transaction

theorem outcome_read_claims_ok_iff {claims : List Hash} (hnumber : head.number + 1 = number) :
    (c.read (.claims head)).fromNodes.outcome answers = some (.ok claims) ↔
      ∃ hash receipts receipt transactions call, Shows answers number hash receipts ∧
        (∀ r ∈ receipts, r.block = some hash) ∧ IsFirst c.AnnouncedIn receipts receipt ∧
        Lists answers hash transactions ∧
        IsFirst (fun t => t.hash = receipt.transaction) transactions call ∧
        decodeClaims call.input = .ok claims := by
  constructor
  · intro h
    obtain ⟨hash, receipts, hshows⟩ := shows_of_ok hnumber h
    rw [outcome_read_claims hshows hnumber] at h
    split at h
    · cases h
    next hown =>
    split at h
    · cases h
    next transaction hcreator =>
    obtain ⟨receipt, hfirst, rfl⟩ := exists_isFirst_of_creator? hcreator
    obtain ⟨transactions, hlists⟩ := lists_of_ok h
    rw [outcome_claimsOfCall hlists, Option.some.injEq] at h
    split at h
    · cases h
    next call hcall =>
    refine ⟨hash, receipts, receipt, transactions, call, hshows, stray?_eq_none_iff.mp hown, hfirst,
      hlists, (isFirst_iff fun t => decide_eq_true_iff.symm).mpr hcall, ?_⟩
    · cases hdecoded : decodeClaims call.input with
      | error fault =>
        rw [hdecoded] at h
        cases h
      | ok decoded =>
        rw [hdecoded] at h
        exact h
  · rintro ⟨hash, receipts, receipt, transactions, call, hshows, hown, hfirst, hlists, hcall,
      hdecoded⟩
    rw [outcome_read_claims hshows hnumber, stray?_eq_none_iff.mpr hown, creator?_of_isFirst hfirst]
    dsimp only
    rw [outcome_claimsOfCall hlists,
      (isFirst_iff fun t => decide_eq_true_iff.symm).mp hcall]
    dsimp only
    rw [hdecoded]
    rfl

end

/-- However the nodes answer, the read of a game's claims comes to a result. It is the claims decoded
from the first transaction with the hash of the first receipt that announces the game, in the block
after the head, all of whose receipts are its own. If there is a receipt of another block, no receipt
that announces the game, or no such transaction, it is a fault that says so. And nothing else in the
receipts matters: not the events of other emitters, of other signatures or for other games, nor
receipts with no more than these. -/
theorem claims_of_creation (c : Contract) (head : L1.Head) {number : UInt64}
    (hnumber : number.toNat = head.number.toNat + 1) (answers : (q : Chain.Ask) → Chain.Reply q) :
    ∃ result, (c.read (.claims head)).fromNodes.outcome answers = some result ∧
      (∀ claims, result = .ok claims ↔
        ∃ hash receipts receipt transactions call, Shows answers number hash receipts ∧
          (∀ r ∈ receipts, r.block = some hash) ∧ IsFirst c.AnnouncedIn receipts receipt ∧
          Lists answers hash transactions ∧
          IsFirst (fun t => t.hash = receipt.transaction) transactions call ∧
          decodeClaims call.input = .ok claims) ∧
      (∀ hash receipts, Shows answers number hash receipts →
        (∀ receipt, IsFirst (fun r => r.block ≠ some hash) receipts receipt →
          result = .error (Cause.foreignReceipt receipt.transaction hash)) ∧
        ((∀ r ∈ receipts, r.block = some hash) →
          ((∀ r ∈ receipts, ¬ c.AnnouncedIn r) →
            result = .error (Cause.creationNotFound c.address number)) ∧
          ∀ receipt transactions, IsFirst c.AnnouncedIn receipts receipt →
            Lists answers hash transactions → (∀ t ∈ transactions, t.hash ≠ receipt.transaction) →
            result = .error (Cause.transactionNotFound receipt.transaction))) ∧
      ∀ answers' hash receipts receipts' transactions, Shows answers number hash receipts →
        Lists answers hash transactions → Shows answers' number hash receipts' →
        Lists answers' hash transactions → c.relevant hash receipts = c.relevant hash receipts' →
        (c.read (.claims head)).fromNodes.outcome answers' = some result := by
  have hsucc : head.number + 1 = number := by
    apply UInt64.toNat_inj.mp
    rw [hnumber, UInt64.toNat_add]
    exact Nat.mod_eq_of_lt (hnumber ▸ number.toNat_lt)
  obtain ⟨result, hresult⟩ := c.returns_read_claims head answers
  refine ⟨result, hresult, fun claims => ?_, fun hash receipts hshows => ?_, ?_⟩
  · rw [← outcome_read_claims_ok_iff hsucc, hresult, Option.some.injEq]
  · rw [outcome_read_claims hshows hsucc] at hresult
    refine ⟨fun receipt hforeign => ?_, fun hown => ?_⟩
    · rw [stray?_of_isFirst hforeign] at hresult
      exact (Option.some.inj hresult).symm
    · rw [stray?_eq_none_iff.mpr hown] at hresult
      refine ⟨fun hnone => ?_, fun receipt transactions hfirst hlists hmissing => ?_⟩
      · rw [creator?_eq_none_iff.mpr hnone] at hresult
        exact (Option.some.inj hresult).symm
      · have hnocall : transactions.find? (·.hash = receipt.transaction) = none :=
          List.find?_eq_none.mpr (by simpa using hmissing)
        rw [creator?_of_isFirst hfirst] at hresult
        dsimp only at hresult
        rw [outcome_claimsOfCall hlists, hnocall] at hresult
        exact (Option.some.inj hresult).symm
  · intro answers' hash receipts receipts' transactions hshows hlists hshows' hlists' hrelevant
    rw [← hresult, outcome_read_claims hshows' hsucc, outcome_read_claims hshows hsucc,
      ← stray?_relevant c hash receipts', ← creator?_relevant c hash receipts', ← hrelevant,
      stray?_relevant, creator?_relevant]
    simp only [outcome_claimsOfCall hlists, outcome_claimsOfCall hlists']

/-! ## Every block can be shown -/

/-- A node answers requests that are in flight together each for itself. -/
def ofNode (node : Request → Except RpcFault Json) : (q : Chain.Ask) → Chain.Reply q
  | .send requests => ⟨(requests.map node).toArray, by simp⟩
  | .fetch _ => .error Cause.cancelled
  | .order _ => .stopped

def showing (hash : Hash) (receipts : List L1.Receipt) (transactions : List L1.Transaction) :
    Request → Except RpcFault Json
  | .blockByNumber _ | .blockByHash _ false => .ok (L1.headerJson hash)
  | .blockByHash _ true => .ok (L1.blockJson hash transactions)
  | .receipts _ => .ok (.array (receipts.map L1.Receipt.json))
  | _ => .error .malformed

theorem shows_showing (number : UInt64) (hash : Hash) (receipts : List L1.Receipt)
    (transactions : List L1.Transaction) :
    Shows (ofNode (showing hash receipts transactions)) number hash receipts ∧
      Lists (ofNode (showing hash receipts transactions)) hash transactions := by
  have hheader : readAnswer (Execution.nullable L1.Header.ofJson?) (.ok (L1.headerJson hash)) =
      .ok (some (.bare (some hash) none)) :=
    readAnswer_ok (congrArg (some <$> ·) (L1.Header.ofJson?_headerJson hash))
  refine ⟨⟨⟨_, rfl, hheader⟩, ⟨_, hheader⟩, ?_⟩, ?_⟩
  · exact readAnswer_ok (Json.list?_array L1.Receipt.ofJson?_json receipts)
  · obtain ⟨header, hblock⟩ := L1.Block.ofJson?_blockJson hash transactions
    exact ⟨header, readAnswer_ok (congrArg (some <$> ·) hblock)⟩

theorem length_selector (signature : String) : (Abi.selector signature).length = 4 := by
  rw [Abi.selector, List.length_take, Hash.size]
  rfl

/-- Only data after the selector is decoded. -/
theorem decodeClaims_selector (data : Bytes) :
    decodeClaims (Abi.selector creationSignature ++ data) = match decodeArguments data with
      | .ok creation => .ok creation.claims
      | .error fault => .error (Cause.abi fault) := by
  have hlength := length_selector creationSignature
  have hdata : (Abi.selector creationSignature ++ data).drop 4 = data := List.drop_left' hlength
  unfold decodeClaims
  refine (if_pos (List.take_left' hlength)).trans ?_
  generalize (Abi.selector creationSignature ++ data).drop 4 = arguments at hdata
  subst hdata
  cases decodeArguments arguments <;> rfl

end Contract

open Contract

namespace Sample

/-! ## A game with one claim -/

def contract : Contract := ⟨.filled 4, .zero⟩

def announcing (game : Address) : L1.Event := ⟨.zero, [creationTopic, game.padded]⟩

/-- The second receipt announces the game. Before that there are an event of another emitter, one for
another game, and one that says nothing. -/
def receipts : List L1.Receipt :=
  [⟨.filled 1, some (.filled 8), [{ announcing (.filled 4) with address := .filled 9 },
      announcing (.filled 5)]⟩,
    ⟨.filled 2, some (.filled 8), [⟨.zero, []⟩, announcing (.filled 4)]⟩]

def creating : L1.Transaction := ⟨.filled 2, Abi.callData creationSignature
  [⟨.number, 0⟩, ⟨.words, [.filled 3]⟩, ⟨.number, 0⟩, ⟨.number, 0⟩, ⟨.octets, []⟩]⟩

set_option maxRecDepth 100000 in
theorem decodeClaims_creating : decodeClaims creating.input = .ok [.filled 3] := by
  refine (decodeClaims_selector _).trans ?_
  rw [show decodeArguments _ = .ok ⟨0, [.filled 3], 0, 0, []⟩ from rfl]

theorem isFirst_announcing : IsFirst contract.AnnouncedIn receipts
    ⟨.filled 2, some (.filled 8), [⟨.zero, []⟩, announcing (.filled 4)]⟩ := by
  refine ⟨[_], [], rfl, ⟨announcing (.filled 4), List.mem_cons_of_mem _ List.mem_cons_self, ?_⟩, ?_⟩
  · exact ⟨rfl, rfl, rfl⟩
  · rw [List.forall_mem_singleton]
    rintro ⟨event, hevent, h⟩
    rcases List.mem_cons.mp hevent with rfl | hevent
    · exact absurd h.emitter (by decide)
    · obtain rfl := List.mem_singleton.mp hevent
      have hgame : Address.padded (.filled 5) = Address.padded (.filled 4) :=
        Option.some.inj h.game
      exact absurd hgame (by decide)

end Sample

open Sample in
/-- The claims are found whatever other transaction comes first. -/
theorem claims_of_creation_sample : ∃ answers,
    (contract.read (.claims ⟨.zero, 7⟩)).fromNodes.outcome answers = some (.ok [.filled 3]) := by
  obtain ⟨hshows, hlists⟩ := shows_showing 8 (.filled 8) receipts [⟨.filled 1, []⟩, creating]
  refine ⟨ofNode (showing (.filled 8) receipts [⟨.filled 1, []⟩, creating]), ?_⟩
  obtain ⟨result, hresult, hok, -⟩ := claims_of_creation contract ⟨.zero, 7⟩
    (show (8 : UInt64).toNat = (7 : UInt64).toNat + 1 from rfl)
    (ofNode (showing (.filled 8) receipts [⟨.filled 1, []⟩, creating]))
  have hcall : IsFirst (fun t : L1.Transaction => t.hash = .filled 2) [⟨.filled 1, []⟩, creating]
      creating := ⟨[_], [], rfl, rfl, List.forall_mem_singleton.mpr (by decide)⟩
  have hown : ∀ r ∈ receipts, r.block = some (.filled 8) :=
    List.forall_mem_cons.mpr ⟨rfl, List.forall_mem_singleton.mpr rfl⟩
  rw [hresult, (hok [.filled 3]).mpr ⟨_, _, _, _, _, hshows, hown, isFirst_announcing, hlists, hcall,
    decodeClaims_creating⟩]

end Watchtower
