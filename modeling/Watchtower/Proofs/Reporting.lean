import Watchtower.Proofs.Records
import Watchtower.Proofs.Scalars
import Watchtower.Rollup.Reading

/-!
# What the rollup node's texts are read as

* `Holds ms name F` : exactly one member has the name, and its value is as `F` says;
* `WrittenBy` : the members that a block, a head, an output or a sync state is written as, among any
  others and in any order;
* `Schema`, `Flawed schema ms` : a known member is missing, stands there twice or has a value of
  another form;
* `reports_read` : what is written is read, and what is flawed is refused;
* `whole_of_unspelled` : an object is refused if the name of any member is not Unicode.
-/

namespace Watchtower

open Json Rollup.Part

/-! ## Members of objects -/

namespace Json

/-- Exactly one member has the name, and its value is as `F` says. -/
def Holds (ms : List (Bytes × Bytes)) (name : String) (F : Bytes → Prop) : Prop :=
  ∃ v, ms.filter (·.1 = name.toUTF8.toList) = [(name.toUTF8.toList, v)] ∧ F v

theorem holds_of_append {before after : List (Bytes × Bytes)} {name : String}
    {F : Bytes → Prop} {v : Bytes} (hv : F v)
    (hbefore : (before.map Prod.fst).all (· ≠ name.toUTF8.toList))
    (hafter : (after.map Prod.fst).all (· ≠ name.toUTF8.toList)) :
    Holds (before ++ (name.toUTF8.toList, v) :: after) name F := by
  have hnone {ms : List (Bytes × Bytes)} (h : (ms.map Prod.fst).all (· ≠ name.toUTF8.toList)) :
      ms.filter (·.1 = name.toUTF8.toList) = [] := by
    rw [List.filter_eq_nil_iff]
    intro m hm
    simpa using List.all_eq_true.mp h m.1 (List.mem_map_of_mem hm)
  refine ⟨v, ?_, hv⟩
  rw [List.filter_append, List.filter_cons_of_pos (by simp), hnone hbefore, hnone hafter]
  rfl

/-- The names of the members that are known, by the kind of their values. -/
structure Schema where
  hashes : List String
  numbers : List String
  blocks : List String

def Schema.names (s : Schema) : List String := s.hashes ++ s.numbers ++ s.blocks

end Json

namespace Rollup

def BlockRef.schema : Schema := ⟨["hash", "parentHash"], ["number", "timestamp"], []⟩

/-- The members that a block is written as, among any others. -/
structure BlockRef.WrittenBy (ms : List (Bytes × Bytes)) (b : BlockRef) : Prop where
  hash : Holds ms "hash" (HashText · b.hash)
  number : Holds ms "number" (WordText · b.number)
  parentHash : Holds ms "parentHash" (HashText · b.parentHash)
  timestamp : Holds ms "timestamp" (WordText · b.timestamp)

/-- The text of a block. -/
def BlockRef.IsText (v : Bytes) (b : BlockRef) : Prop := ∃ ms, ObjectText ms v ∧ b.WrittenBy ms

end Rollup

/-- Some known member is missing or stands there more than once, or its value is of no form that it
could be written in. -/
inductive Rollup.Flawed : Schema → List (Bytes × Bytes) → Prop
  | count {s : Schema} {ms : List (Bytes × Bytes)} {name : String} : name ∈ s.names →
      (ms.filter (·.1 = name.toUTF8.toList)).length ≠ 1 → Flawed s ms
  | hash {s : Schema} {ms : List (Bytes × Bytes)} {name : String} {v : Bytes} : name ∈ s.hashes →
      (name.toUTF8.toList, v) ∈ ms → ¬HashLike v → Flawed s ms
  | number {s : Schema} {ms : List (Bytes × Bytes)} {name : String} {v : Bytes} : name ∈ s.numbers →
      (name.toUTF8.toList, v) ∈ ms → (∀ x, ¬WordText v x) → Flawed s ms
  | block {s : Schema} {ms ms' : List (Bytes × Bytes)} {name : String} {v : Bytes} :
      name ∈ s.blocks → (name.toUTF8.toList, v) ∈ ms → ObjectText ms' v →
      Flawed BlockRef.schema ms' → Flawed s ms

namespace L1.Head

def schema : Schema := ⟨["hash"], ["number"], []⟩

structure WrittenBy (ms : List (Bytes × Bytes)) (head : Head) : Prop where
  hash : Holds ms "hash" (HashText · head.hash)
  number : Holds ms "number" (WordText · head.number)

end L1.Head

namespace Rollup

namespace Output

def schema : Schema :=
  ⟨["version", "outputRoot", "withdrawalStorageRoot", "stateRoot"], [], ["blockRef"]⟩

structure WrittenBy (ms : List (Bytes × Bytes)) (o : Output) : Prop where
  version : Holds ms "version" (HashText · o.version)
  root : Holds ms "outputRoot" (HashText · o.root)
  block : Holds ms "blockRef" (BlockRef.IsText · o.block)
  withdrawalStorageRoot : Holds ms "withdrawalStorageRoot" (HashText · o.withdrawalStorageRoot)
  stateRoot : Holds ms "stateRoot" (HashText · o.stateRoot)

end Output

namespace SyncStatus

def schema : Schema := ⟨[], [], ["current_l1", "head_l1"]⟩

structure WrittenBy (ms : List (Bytes × Bytes)) (s : SyncStatus) : Prop where
  currentL1 : Holds ms "current_l1" (BlockRef.IsText · s.currentL1)
  headL1 : Holds ms "head_l1" (BlockRef.IsText · s.headL1)

end SyncStatus

/-! ## How the values of members are read -/

open Reader

section
variable {ms : List (Bytes × Bytes)} {name : String} {v : Bytes}

theorem local_map {α β : Type} {read : Reader α} (f : α → β) (h : Local read) :
    Local (f <$> read) := by
  intro v hv l rest hl hrest x r
  simp only [map_eq_ok_iff, h v hv l rest hl hrest]
  constructor
  · rintro ⟨a, ⟨ha, hr⟩, hx⟩
    exact ⟨⟨a, ha, hx⟩, hr⟩
  · rintro ⟨⟨a, ha, hx⟩, hr⟩
    exact ⟨a, ⟨ha, hr⟩, hx⟩

/-- What is made of the values read depends on nothing else. -/
theorem local_bind {α β : Type} {read : Reader α} {f : α → Reader β} (h : Local read)
    (hf : ∀ a, (∃ b, f a = pure b) ∨ ∃ misread, f a = throw misread) : Local (read >>= f) := by
  intro v hv l rest hl hrest x r
  simp only [bind_eq_ok_iff, h v hv l rest hl hrest]
  constructor
  · rintro ⟨a, middle, ⟨ha, rfl⟩, hx⟩
    obtain ⟨b, hb⟩ | ⟨misread, hb⟩ := hf a
    · rw [hb] at hx
      cases hx
      exact ⟨⟨a, [], ha, by rw [hb]; rfl⟩, rfl⟩
    · rw [hb] at hx
      cases hx
  · rintro ⟨⟨a, middle, ha, hx⟩, rfl⟩
    obtain ⟨b, hb⟩ | ⟨misread, hb⟩ := hf a
    · rw [hb] at hx
      cases hx
      exact ⟨a, r, ⟨ha, rfl⟩, by rw [hb]; rfl⟩
    · rw [hb] at hx
      cases hx

theorem local_hashMember (name : String) : Local (hashMember name).read :=
  local_map Part.hash takes_hash.isLocal

theorem local_numberMember (name : String) : Local (numberMember name).read :=
  local_map Part.number takes_word.isLocal

theorem hashMember_read_iff (hv : Value v) {x : Part} :
    (hashMember name).read v = .ok (x, []) ↔ ∃ h, HashRead v h ∧ Part.hash h = x := by
  change (Part.hash <$> Reader.hash) v = _ ↔ _
  simp only [map_eq_ok_iff, takes_hash.alone_iff hv]

theorem numberMember_read_iff (hv : Value v) {x : Part} :
    (numberMember name).read v = .ok (x, []) ↔ ∃ n, WordText v n ∧ Part.number n = x := by
  change (Part.number <$> Reader.word) v = _ ↔ _
  simp only [map_eq_ok_iff, takes_word.alone_iff hv]

/-- The fields are those that the schema names, each with a reader for its kind. -/
structure Matches (s : Schema) (fields : List (Member Part)) : Prop where
  isLocal : ∀ field ∈ fields, Local field.read
  nodup : (fields.map Member.name).Nodup
  hashes : ∀ name ∈ s.hashes, hashMember name ∈ fields
  numbers : ∀ name ∈ s.numbers, numberMember name ∈ fields
  blocks : ∀ name ∈ s.blocks, blockMember name ∈ fields

/-! ## Blocks -/

theorem matches_block : Matches BlockRef.schema BlockRef.fields where
  isLocal := by simp [BlockRef.fields, local_hashMember, local_numberMember]
  nodup := by simp [BlockRef.fields, hashMember, numberMember, Member.of]
  hashes := by simp [BlockRef.schema, BlockRef.fields]
  numbers := by simp [BlockRef.schema, BlockRef.fields]
  blocks := by simp [BlockRef.schema]

theorem local_blockReader : Local BlockRef.reader := by
  refine local_bind (local_record matches_block.isLocal) fun values => ?_
  split
  · exact .inl ⟨_, rfl⟩
  · exact .inr ⟨_, rfl⟩

theorem local_blockMember (name : String) : Local (blockMember name).read :=
  local_map Part.block local_blockReader

/-- What a member holds is read there. -/
theorem exists_of_holds {F : Bytes → Prop} {field : Member Part} {x : Part}
    (h : Holds ms name F) (hms : ∀ m ∈ ms, Value m.2) (hname : field.name = name.toUTF8.toList)
    (hread : ∀ v, Value v → F v → field.read v = .ok (x, [])) :
    ∃ v, ms.filter (·.1 = field.name) = [(field.name, v)] ∧ field.read v = .ok (x, []) := by
  obtain ⟨v, hfilter, hv⟩ := h
  have hmem : (name.toUTF8.toList, v) ∈ ms :=
    (List.mem_filter.mp (hfilter ▸ List.mem_singleton_self _)).1
  rw [hname]
  exact ⟨v, hfilter, hread v (hms _ hmem) hv⟩

theorem exists_of_holds_hash {h : Hash} (hholds : Holds ms name (HashText · h))
    (hms : ∀ m ∈ ms, Value m.2) : ∃ v, ms.filter (·.1 = (hashMember name).name) =
      [((hashMember name).name, v)] ∧ (hashMember name).read v = .ok (.hash h, []) :=
  exists_of_holds hholds hms rfl fun _ hv htext =>
    (hashMember_read_iff hv).mpr ⟨h, htext.hashRead, rfl⟩

theorem exists_of_holds_number {n : UInt64} (hholds : Holds ms name (WordText · n))
    (hms : ∀ m ∈ ms, Value m.2) : ∃ v, ms.filter (·.1 = (numberMember name).name) =
      [((numberMember name).name, v)] ∧ (numberMember name).read v = .ok (.number n, []) :=
  exists_of_holds hholds hms rfl fun _ hv htext => (numberMember_read_iff hv).mpr ⟨n, htext, rfl⟩

theorem blockReader_of_isText {b : BlockRef} (h : BlockRef.IsText v b) :
    BlockRef.reader v = .ok (b, []) := by
  obtain ⟨ms, htext, hwritten⟩ := h
  have hms := htext.values
  have hfits : Fits BlockRef.fields ms
      [.hash b.hash, .number b.number, .hash b.parentHash, .number b.timestamp] :=
    .cons (exists_of_holds_hash hwritten.hash hms) <|
    .cons (exists_of_holds_number hwritten.number hms) <|
    .cons (exists_of_holds_hash hwritten.parentHash hms) <|
    .cons (exists_of_holds_number hwritten.timestamp hms) .nil
  exact bind_of_ok
    ((record_alone_iff matches_block.isLocal matches_block.nodup htext).mpr ⟨hfits, rfl⟩)

theorem exists_of_holds_block {b : BlockRef} (hholds : Holds ms name (BlockRef.IsText · b))
    (hms : ∀ m ∈ ms, Value m.2) : ∃ v, ms.filter (·.1 = (blockMember name).name) =
      [((blockMember name).name, v)] ∧ (blockMember name).read v = .ok (.block b, []) :=
  exists_of_holds hholds hms rfl fun _ _ htext =>
    map_of_ok Part.block (blockReader_of_isText htext)

/-! ## Flaws -/

/-- The only value of a field is the one that is read. -/
theorem read_of_fits {fields : List (Member Part)} {values : List Part} {field : Member Part}
    (h : Fits fields ms values) (hfield : field ∈ fields) (hv : (field.name, v) ∈ ms) :
    ∃ x, field.read v = .ok (x, []) := by
  obtain ⟨x, w, hfilter, hread⟩ := exists_of_forall₂ h hfield
  have hmem : (field.name, v) ∈ ms.filter (·.1 = field.name) := List.mem_filter.mpr ⟨hv, by simp⟩
  rw [hfilter, List.mem_singleton, Prod.mk.injEq] at hmem
  exact ⟨x, hmem.2 ▸ hread⟩

theorem not_fits_of_flawed {s : Schema} (h : Flawed s ms) {fields : List (Member Part)}
    (hfields : Matches s fields) (hms : ∀ m ∈ ms, Value m.2) (values : List Part) :
    ¬Fits fields ms values := by
  induction h generalizing fields values with
  | @count s ms name hname hcount =>
    intro hfits
    have hfield : ∃ field ∈ fields, field.name = name.toUTF8.toList := by
      simp only [Schema.names, List.mem_append] at hname
      obtain (hname | hname) | hname := hname
      · exact ⟨_, hfields.hashes name hname, rfl⟩
      · exact ⟨_, hfields.numbers name hname, rfl⟩
      · exact ⟨_, hfields.blocks name hname, rfl⟩
    obtain ⟨field, hfield, hfieldname⟩ := hfield
    obtain ⟨x, w, hfilter, -⟩ := exists_of_forall₂ hfits hfield
    rw [hfieldname] at hfilter
    rw [hfilter] at hcount
    exact hcount rfl
  | @hash s ms name v hname hv hflaw =>
    intro hfits
    obtain ⟨x, hread⟩ := read_of_fits hfits (hfields.hashes name hname) hv
    obtain ⟨h, hh, -⟩ := (hashMember_read_iff (hms _ hv)).mp hread
    exact hflaw hh.hashLike
  | @number s ms name v hname hv hflaw =>
    intro hfits
    obtain ⟨x, hread⟩ := read_of_fits hfits (hfields.numbers name hname) hv
    obtain ⟨n, hn, -⟩ := (numberMember_read_iff (hms _ hv)).mp hread
    exact hflaw n hn
  | @block s ms ms' name v hname hv htext _ ih =>
    intro hfits
    obtain ⟨x, hread⟩ := read_of_fits hfits (hfields.blocks name hname) hv
    obtain ⟨b, hb, -⟩ := map_eq_ok_iff.mp hread
    obtain ⟨values, middle, hrecord, -⟩ := bind_eq_ok_iff.mp hb
    have hfits := (record_alone_iff matches_block.isLocal matches_block.nodup htext).mp hrecord
    exact ih matches_block htext.values values hfits.1

/-! ## Whole texts -/

section
variable {α : Type} {fields : List (Member Part)} {build : List Part → Reader α} {text : String}

theorem whole_of_fits {s : Schema} (hfields : Matches s fields) (h : Document ms text)
    {values : List Part} {a : α}
    (hfits : Fits fields ms values) (hbuild : build values = pure a) :
    whole (record fields >>= build) text = .ok a := by
  obtain ⟨l, t, r, htext, hl, hobject, hr⟩ := h
  have hrecord : record fields (l ++ (t ++ r)) = .ok (values, r) :=
    (record_eq_ok_iff hfields.isLocal hfields.nodup hobject hl).mpr ⟨hfits, rfl⟩
  unfold whole
  rw [htext, bind_of_ok hrecord, hbuild]
  change (if r.all Reader.isBlank then _ else _) = _
  rw [if_pos (List.all_eq_true.mpr fun b hb => isBlank_iff.mpr (hr b hb))]
  rfl

theorem whole_eq_error (h : ∀ values r, record fields text.toUTF8.toList ≠ .ok (values, r)) :
    ∃ misread, whole (record fields >>= build) text = .error misread := by
  cases hread : (record fields >>= build) text.toUTF8.toList with
  | error misread =>
    refine ⟨misread, ?_⟩
    unfold whole
    rw [hread]
    rfl
  | ok p =>
    obtain ⟨values, middle, hrecord, -⟩ := bind_eq_ok_iff.mp hread
    exact absurd hrecord (h values middle)

theorem whole_of_flawed {s : Schema} (hfields : Matches s fields) (h : Document ms text)
    (hflaw : Flawed s ms) :
    ∃ misread, whole (record fields >>= build) text = .error misread := by
  obtain ⟨l, t, r, htext, hl, hobject, -⟩ := h
  refine whole_eq_error fun values middle hrecord => ?_
  rw [htext] at hrecord
  have hfits := ((record_eq_ok_iff hfields.isLocal hfields.nodup hobject hl).mp hrecord).1
  exact not_fits_of_flawed hflaw hfields hobject.values values hfits

/-- A member is refused whose name is not Unicode, even if its name is not known. -/
theorem whole_of_unspelled {s : Schema} (hfields : Matches s fields) {l u r : Bytes}
    (htext : text.toUTF8.toList = l ++ 0x7b :: (u ++ 0x7d :: r)) (hl : Blank l)
    (hu : Content (MemberText Verbatim Value) ms u) {m : Bytes × Bytes} (hm : m ∈ ms)
    (hname : ∀ name, ¬Spells m.1 name) :
    ∃ misread, whole (record fields >>= build) text = .error misread := by
  refine whole_eq_error fun values middle hrecord => ?_
  rw [htext] at hrecord
  obtain ⟨name, hspells⟩ := spells_of_record hfields.isLocal hu hl hrecord m hm
  exact hname name hspells

end

end

namespace Output

theorem matches_fields : Matches schema fields where
  isLocal := by simp [fields, local_hashMember, local_blockMember]
  nodup := by simp [fields, hashMember, blockMember, Member.of]
  hashes := by simp [schema, fields]
  numbers := by simp [schema]
  blocks := by simp [schema, fields]

theorem fits_of_writtenBy {ms : List (Bytes × Bytes)} {o : Output} (h : o.WrittenBy ms)
    (hms : ∀ m ∈ ms, Value m.2) : Fits fields ms [.hash o.version, .hash o.root, .block o.block,
      .hash o.withdrawalStorageRoot, .hash o.stateRoot] :=
  .cons (exists_of_holds_hash h.version hms) <|
  .cons (exists_of_holds_hash h.root hms) <|
  .cons (exists_of_holds_block h.block hms) <|
  .cons (exists_of_holds_hash h.withdrawalStorageRoot hms) <|
  .cons (exists_of_holds_hash h.stateRoot hms) .nil

end Output

namespace SyncStatus

theorem matches_fields : Matches schema fields where
  isLocal := by simp [fields, local_blockMember]
  nodup := by simp [fields, blockMember, Member.of]
  hashes := by simp [schema]
  numbers := by simp [schema]
  blocks := by simp [schema, fields]

theorem fits_of_writtenBy {ms : List (Bytes × Bytes)} {s : SyncStatus} (h : s.WrittenBy ms)
    (hms : ∀ m ∈ ms, Value m.2) : Fits fields ms [.block s.currentL1, .block s.headL1] :=
  .cons (exists_of_holds_block h.currentL1 hms) <|
  .cons (exists_of_holds_block h.headL1 hms) .nil

end SyncStatus

end Rollup

namespace L1.Head

open Rollup

theorem matches_fields : Matches schema fields where
  isLocal := by simp [fields, local_hashMember, local_numberMember]
  nodup := by simp [fields, hashMember, numberMember, Member.of]
  hashes := by simp [schema, fields]
  numbers := by simp [schema, fields]
  blocks := by simp [schema]

theorem fits_of_writtenBy {ms : List (Bytes × Bytes)} {head : Head} (h : head.WrittenBy ms)
    (hms : ∀ m ∈ ms, Value m.2) : Reader.Fits fields ms [.hash head.hash, .number head.number] :=
  .cons (exists_of_holds_hash h.hash hms) <|
  .cons (exists_of_holds_number h.number hms) .nil

end L1.Head

open Rollup

/-- What a report is written as is what it is read as, whatever else the object holds. A report with
a flaw is refused. -/
theorem reports_read {ms : List (Bytes × Bytes)} {text : String} (h : Document ms text) :
    ((∀ head : L1.Head, head.WrittenBy ms → L1.Head.parse text = .ok head) ∧
      (Flawed L1.Head.schema ms → ∃ misread, L1.Head.parse text = .error misread)) ∧
    ((∀ output : Output, output.WrittenBy ms → Output.parse text = .ok output) ∧
      (Flawed Output.schema ms → ∃ misread, Output.parse text = .error misread)) ∧
    ((∀ status : SyncStatus, status.WrittenBy ms → SyncStatus.parse text = .ok status) ∧
      (Flawed SyncStatus.schema ms → ∃ misread, SyncStatus.parse text = .error misread)) := by
  have hms : ∀ m ∈ ms, Value m.2 := by
    obtain ⟨l, t, r, -, -, hobject, -⟩ := h
    exact hobject.values
  refine ⟨⟨fun head hhead => ?_, fun hflaw => ?_⟩, ⟨fun output houtput => ?_, fun hflaw => ?_⟩,
    fun status hstatus => ?_, fun hflaw => ?_⟩
  · exact whole_of_fits L1.Head.matches_fields h (L1.Head.fits_of_writtenBy hhead hms) rfl
  · exact whole_of_flawed L1.Head.matches_fields h hflaw
  · exact whole_of_fits Output.matches_fields h (Output.fits_of_writtenBy houtput hms) rfl
  · exact whole_of_flawed Output.matches_fields h hflaw
  · exact whole_of_fits SyncStatus.matches_fields h (SyncStatus.fits_of_writtenBy hstatus hms) rfl
  · exact whole_of_flawed SyncStatus.matches_fields h hflaw

/-! ## A text with all that may stand around what is read -/

def sampleHash : Bytes := 0x22 :: (0x30 :: 0x78 :: List.replicate 64 0x41 ++ [0x22])

def sampleBlock : BlockRef := ⟨.filled 0xaa, maxUInt64, .filled 0xaa, 0⟩

def sampleBlockMembers : List (Bytes × Bytes) :=
  [("number".toUTF8.toList, decimalText 18446744073709551615), ("hash".toUTF8.toList, sampleHash),
   ("timestamp".toUTF8.toList, decimalText 0), ("parentHash".toUTF8.toList, sampleHash)]

def sampleDigits : String := String.ofList (List.replicate 64 'A')

def sampleBlockText : String :=
  "\x7b\"number\": 18446744073709551615,\"hash\": \"0x" ++ sampleDigits ++
    "\",\"timestamp\": 0,\"parentHash\": \"0x" ++ sampleDigits ++ "\"\x7d"

/-- A value with a member in it that has a known name. -/
def sampleExtraText : String := "[true,\x7b\"hash\":-1.5e+3\x7d]"

def sampleMembers : List (Bytes × Bytes) :=
  [("x".toUTF8.toList, sampleExtraText.toUTF8.toList),
   ("head_l1".toUTF8.toList, sampleBlockText.toUTF8.toList),
   ("x".toUTF8.toList, [0x6e, 0x75, 0x6c, 0x6c]),
   ("current_l1".toUTF8.toList, sampleBlockText.toUTF8.toList)]

def sampleText : String :=
  "\n\x7b\"x\": " ++ sampleExtraText ++ ",\"head_l1\": " ++ sampleBlockText ++
    ",\"x\": null,\"\\u0063urrent_l1\"\n:\t" ++ sampleBlockText ++ "\x7d "

theorem hashText_sampleHash : HashText sampleHash (.filled 0xaa) :=
  have hspells : Spells _ _ := spells_of_plain rfl
  ⟨List.replicate 64 'A', ⟨by decide, _, _, rfl, hspells, .inr (by decide)⟩, by decide⟩

theorem value_sampleHash : Value sampleHash := (spells_of_plain rfl).value

theorem toList_sampleDigits : sampleDigits.toUTF8.toList = List.replicate 64 0x41 := by
  unfold sampleDigits
  rw [toList_toUTF8_ofList]
  rfl

theorem objectText_sampleBlock : ObjectText sampleBlockMembers sampleBlockText.toUTF8.toList := by
  have h :=
    joined_cons (memberText_of_plain "number" rfl (value_decimalText 18446744073709551615)) <|
    joined_cons (memberText_of_plain "hash" rfl value_sampleHash) <|
    joined_cons (memberText_of_plain "timestamp" rfl (value_decimalText 0)) <|
    joined_singleton (memberText_of_plain "parentHash" rfl value_sampleHash)
  have hopen : "\x7b\"number\": 18446744073709551615,\"hash\": \"0x".toUTF8.toList =
      0x7b :: 0x22 :: ("number".toUTF8.toList ++ 0x22 :: 0x3a :: 0x20 ::
        (decimalText 18446744073709551615 ++ 0x2c :: 0x22 :: ("hash".toUTF8.toList ++
          [0x22, 0x3a, 0x20, 0x22, 0x30, 0x78]))) := by
    simp only [toList_eq_data]
    rfl
  have hmiddle : "\",\"timestamp\": 0,\"parentHash\": \"0x".toUTF8.toList =
      0x22 :: 0x2c :: 0x22 :: ("timestamp".toUTF8.toList ++ 0x22 :: 0x3a :: 0x20 ::
        (decimalText 0 ++ 0x2c :: 0x22 :: ("parentHash".toUTF8.toList ++
          [0x22, 0x3a, 0x20, 0x22, 0x30, 0x78]))) := by
    simp only [toList_eq_data]
    rfl
  have hclose : "\"\x7d".toUTF8.toList = [0x22, 0x7d] := by
    simp only [toList_eq_data]
    rfl
  refine ⟨_, ?_, .joined h⟩
  unfold sampleBlockText sampleHash
  simp only [toList_toUTF8_append, hopen, hmiddle, hclose, toList_sampleDigits]
  simp

theorem writtenBy_sampleBlock : sampleBlock.WrittenBy sampleBlockMembers where
  hash := ⟨_, by simp [sampleBlockMembers], hashText_sampleHash⟩
  number := ⟨decimalText 18446744073709551615, by simp [sampleBlockMembers], rfl⟩
  parentHash := ⟨_, by simp [sampleBlockMembers], hashText_sampleHash⟩
  timestamp := ⟨decimalText 0, by simp [sampleBlockMembers], rfl⟩

theorem value_sampleExtra : Value sampleExtraText.toUTF8.toList := by
  have hnumber : NumberText ⟨true, [0x31], some [0x35], some (false, [0x33])⟩
      [0x2d, 0x31, 0x2e, 0x35, 0x65, 0x2b, 0x33] :=
    ⟨[0x2e, 0x35], [0x65, 0x2b, 0x33], ⟨⟨by simp, by simp⟩, by simp⟩, .some ⟨by simp, by simp⟩,
      @ExponentText.some 0x65 [0x2b] [0x33] false (by simp) (by simp) ⟨by simp, by simp⟩, rfl⟩
  have hname : Verbatim [0x68, 0x61, 0x73, 0x68] [0x68, 0x61, 0x73, 0x68] :=
    ⟨rfl, (spells_of_plain rfl).stringBody⟩
  have hmember : MemberText Verbatim (Nested 1) (_, _) _ :=
    ⟨_, [], [], rfl, hname, blank_nil, blank_nil, .number hnumber⟩
  have hobject : Nested 2 _ := .object (.joined (joined_singleton hmember))
  have hvalue : Value _ :=
    ⟨3, .array (.joined (joined_cons ⟨rfl, .true⟩ (joined_singleton ⟨rfl, hobject⟩)))⟩
  rw [toList_eq_data]
  exact hvalue

theorem document_sample : Document sampleMembers sampleText := by
  have hblock := objectText_sampleBlock.value
  have hextra := value_sampleExtra
  have hnull : Value [0x6e, 0x75, 0x6c, 0x6c] := ⟨1, .null⟩
  have hescaped : Spells "\\u0063urrent_l1".toUTF8.toList "current_l1".toUTF8.toList := by
    have hwritten : "\\u0063urrent_l1".toUTF8.toList =
        0x5c :: 0x75 :: ([0x30, 0x30, 0x36, 0x33] ++ "urrent_l1".toUTF8.toList) := by
      simp only [toList_eq_data]
      rfl
    have hname : "current_l1".toUTF8.toList =
        String.utf8EncodeChar (Char.ofNat 0x63) ++ "urrent_l1".toUTF8.toList := by
      simp only [toList_eq_data]
      rfl
    rw [hwritten, hname]
    exact .code ⟨rfl, by decide⟩ (by decide) (spells_of_plain (by rw [toList_eq_data]; rfl))
  have hopen : "\n\x7b\"x\": ".toUTF8.toList =
      0x0a :: 0x7b :: 0x22 :: ("x".toUTF8.toList ++ [0x22, 0x3a, 0x20]) := by
    simp only [toList_eq_data]
    rfl
  have hfirst : ",\"head_l1\": ".toUTF8.toList =
      0x2c :: 0x22 :: ("head_l1".toUTF8.toList ++ [0x22, 0x3a, 0x20]) := by
    simp only [toList_eq_data]
    rfl
  have hsecond : ",\"x\": null,\"\\u0063urrent_l1\"\n:\t".toUTF8.toList =
      0x2c :: 0x22 :: ("x".toUTF8.toList ++ 0x22 :: 0x3a :: 0x20 ::
        ([0x6e, 0x75, 0x6c, 0x6c] ++ 0x2c :: 0x22 :: ("\\u0063urrent_l1".toUTF8.toList ++
          [0x22, 0x0a, 0x3a, 0x09]))) := by
    simp only [toList_eq_data]
    rfl
  have hclose : "\x7d ".toUTF8.toList = [0x7d, 0x20] := by
    simp only [toList_eq_data]
    rfl
  unfold Document sampleMembers sampleText
  simp only [toList_toUTF8_append, hopen, hfirst, hsecond, hclose]
  -- what the values look like does not matter from here on
  generalize sampleBlockText.toUTF8.toList = block at *
  generalize sampleExtraText.toUTF8.toList = extra at *
  have hlast : MemberText Spells Value ("current_l1".toUTF8.toList, block) _ :=
    ⟨_, [0x0a], [0x09], rfl, hescaped, by simp [Blank, blanks], by simp [Blank, blanks], hblock⟩
  have h :=
    joined_cons (memberText_of_plain "x" rfl hextra) <|
    joined_cons (memberText_of_plain "head_l1" rfl hblock) <|
    joined_cons (memberText_of_plain "x" rfl hnull) <|
    joined_singleton hlast
  exact ⟨[0x0a], _, [0x20], by simp, by simp [Blank, blanks], ⟨_, rfl, .joined h⟩,
    by simp [Blank, blanks]⟩

theorem reports_read_sample : Document sampleMembers sampleText ∧
    (SyncStatus.WrittenBy sampleMembers ⟨sampleBlock, sampleBlock⟩ ∧
      SyncStatus.parse sampleText = .ok ⟨sampleBlock, sampleBlock⟩) ∧
    Flawed Output.schema sampleMembers ∧
    ∃ misread, Output.parse sampleText = .error misread := by
  have hblock : BlockRef.IsText sampleBlockText.toUTF8.toList sampleBlock :=
    ⟨_, objectText_sampleBlock, writtenBy_sampleBlock⟩
  have hwritten : SyncStatus.WrittenBy sampleMembers ⟨sampleBlock, sampleBlock⟩ :=
    ⟨@holds_of_append (sampleMembers.take 3) [] "current_l1" _ _ hblock
        (by simp [sampleMembers]) rfl,
      @holds_of_append (sampleMembers.take 1) (sampleMembers.drop 2) "head_l1" _ _ hblock
        (by simp [sampleMembers]) (by simp [sampleMembers])⟩
  have hflawed : Flawed Output.schema sampleMembers :=
    @Flawed.count _ _ "outputRoot" (by decide) (by simp [sampleMembers])
  obtain ⟨-, ⟨-, houtput⟩, ⟨hstatus, -⟩⟩ := reports_read document_sample
  exact ⟨document_sample, ⟨hwritten, hstatus _ hwritten⟩, hflawed, houtput hflawed⟩

/-! ## What else is read, and what is not -/

/-- Two blanks stand instead of the last two digits. -/
def blankedDigits : String := String.ofList ((List.replicate 31 ['a', 'b']).flatten ++ [' ', ' '])

def blankedHash : Bytes := 0x22 :: (0x30 :: 0x78 :: blankedDigits.toUTF8.toList ++ [0x22])

def blankedText : String := "\x7b\"hash\": \"0x" ++ blankedDigits ++ "\",\"number\": 5\x7d"

/-- A member of an unknown name that is half of a character. -/
def halvedText : String :=
  "\x7b\"hash\": \"0x" ++ sampleDigits ++ "\",\"\\ud800\": 0,\"number\": 5\x7d"

theorem toList_blankedDigits : blankedDigits.toUTF8.toList =
    (List.replicate 31 [0x61, 0x62]).flatten ++ [0x20, 0x20] := by
  unfold blankedDigits
  rw [toList_toUTF8_ofList]
  rfl

theorem spells_blankedHash : Spells (0x30 :: 0x78 :: blankedDigits.toUTF8.toList)
    (0x30 :: 0x78 :: blankedDigits.toUTF8.toList) := by
  rw [toList_blankedDigits]
  exact spells_of_plain rfl

theorem value_blankedHash : Value blankedHash := spells_blankedHash.value

theorem not_hashText_blankedHash (h : Hash) : ¬HashText blankedHash h := by
  rintro ⟨cs, ⟨hlength, t, m, hquoted, hm, hmark⟩, hcs⟩
  have ht := List.append_cancel_right (List.cons.inj hquoted).2
  rw [← ht] at hm
  rw [← spells_blankedHash.unique hm, toList_blankedDigits] at hmark
  obtain hsame | hsame := hmark
  · rw [← hsame] at hlength
    revert hlength
    decide
  · have htail : (List.replicate 31 ['a', 'b']).flatten ++ [' ', ' '] = cs :=
      (List.cons.inj (List.cons.inj hsame).2).2
    have hnone : hexDigits? ((List.replicate 31 ['a', 'b']).flatten ++ [' ', ' ']) = none := by
      decide
    rw [← htail, hnone] at hcs
    cases hcs

theorem hashRead_blankedHash :
    HashRead blankedHash ⟨List.replicate 31 0xab ++ [0], by decide⟩ := by
  refine ⟨_, _, rfl, spells_blankedHash, ?_⟩
  rw [toList_blankedDigits]
  rfl

theorem document_blanked : Document [("hash".toUTF8.toList, blankedHash),
    ("number".toUTF8.toList, decimalText 5)] blankedText := by
  have hopen : "\x7b\"hash\": \"0x".toUTF8.toList =
      0x7b :: 0x22 :: ("hash".toUTF8.toList ++ [0x22, 0x3a, 0x20, 0x22, 0x30, 0x78]) := by
    simp only [toList_eq_data]
    rfl
  have hclose : "\",\"number\": 5\x7d".toUTF8.toList =
      0x22 :: 0x2c :: 0x22 :: ("number".toUTF8.toList ++ 0x22 :: 0x3a :: 0x20 ::
        (decimalText 5 ++ [0x7d])) := by
    simp only [toList_eq_data]
    rfl
  have h :=
    joined_cons (memberText_of_plain "hash" rfl value_blankedHash) <|
    joined_singleton (memberText_of_plain "number" rfl (value_decimalText 5))
  refine ⟨[], _, [], ?_, blank_nil, ⟨_, rfl, .joined h⟩, blank_nil⟩
  unfold blankedText blankedHash
  simp only [toList_toUTF8_append, hopen, hclose]
  simp

theorem blankedText_parse :
    L1.Head.parse blankedText = .ok ⟨⟨List.replicate 31 0xab ++ [0], by decide⟩, 5⟩ := by
  have hfits : Reader.Fits L1.Head.fields [("hash".toUTF8.toList, blankedHash),
      ("number".toUTF8.toList, decimalText 5)]
      [.hash ⟨List.replicate 31 0xab ++ [0], by decide⟩, .number 5] :=
    .cons ⟨blankedHash, by simp [hashMember, Member.of],
      (hashMember_read_iff value_blankedHash).mpr ⟨_, hashRead_blankedHash, rfl⟩⟩ <|
    .cons ⟨decimalText 5, by simp [numberMember, Member.of],
      (numberMember_read_iff (value_decimalText 5)).mpr ⟨5, rfl, rfl⟩⟩ .nil
  exact whole_of_fits L1.Head.matches_fields document_blanked hfits rfl

theorem not_spells_half (name : Bytes) : ¬Spells [0x5c, 0x75, 0x64, 0x38, 0x30, 0x30] name := by
  intro h
  have hread : Reader.text true ([0x5c, 0x75, 0x64, 0x38, 0x30, 0x30] ++ [0x22]) = .ok (name, []) :=
    (Reader.text_true_eq_ok_iff h.stringBody).mpr ⟨h, rfl⟩
  have herror : Reader.text true ([0x5c, 0x75, 0x64, 0x38, 0x30, 0x30] ++ [0x22]) =
      .error .malformed := rfl
  rw [herror] at hread
  cases hread

theorem halvedText_parse : ∃ misread, L1.Head.parse halvedText = .error misread := by
  have hbody : StringBody [0x5c, 0x75, 0x64, 0x38, 0x30, 0x30] :=
    @StringBody.code 0xd800 [0x64, 0x38, 0x30, 0x30] [] ⟨rfl, by decide⟩ .nil
  have hname {n : Bytes} (hn : n.all (Plain ·)) : Verbatim n n :=
    ⟨rfl, (spells_of_plain hn).stringBody⟩
  have h :=
    joined_cons (memberText_of_name (@hname [0x68, 0x61, 0x73, 0x68] rfl) value_sampleHash) <|
    joined_cons (memberText_of_name ⟨rfl, hbody⟩ (value_decimalText 0)) <|
    joined_singleton (memberText_of_name (@hname [0x6e, 0x75, 0x6d, 0x62, 0x65, 0x72] rfl)
      (value_decimalText 5))
  have hopen : "\x7b\"hash\": \"0x".toUTF8.toList =
      [0x7b, 0x22, 0x68, 0x61, 0x73, 0x68, 0x22, 0x3a, 0x20, 0x22, 0x30, 0x78] := by
    rw [toList_eq_data]
    rfl
  have hclose : "\",\"\\ud800\": 0,\"number\": 5\x7d".toUTF8.toList =
      [0x22, 0x2c, 0x22, 0x5c, 0x75, 0x64, 0x38, 0x30, 0x30, 0x22, 0x3a, 0x20] ++ decimalText 0 ++
        [0x2c, 0x22, 0x6e, 0x75, 0x6d, 0x62, 0x65, 0x72, 0x22, 0x3a, 0x20] ++ decimalText 5 ++
          [0x7d] := by
    rw [toList_eq_data]
    rfl
  refine whole_of_unspelled (r := []) L1.Head.matches_fields ?_ blank_nil (.joined h)
    (List.mem_cons_of_mem _ List.mem_cons_self) not_spells_half
  unfold halvedText sampleHash
  simp only [toList_toUTF8_append, toList_sampleDigits, hopen, hclose]
  simp

/-- A blank in a hash is not refused: the octet that it leaves is read as zero. A member of another
name is, if the name holds half of a character beyond 16 bits. -/
theorem blanked_hash_read :
    (∀ h, ¬HashText blankedHash h) ∧
    L1.Head.parse blankedText = .ok ⟨⟨List.replicate 31 0xab ++ [0], by decide⟩, 5⟩ ∧
    ∃ misread, L1.Head.parse halvedText = .error misread :=
  ⟨not_hashText_blankedHash, blankedText_parse, halvedText_parse⟩

end Watchtower
