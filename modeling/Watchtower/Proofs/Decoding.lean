import Watchtower.Proofs.Creation

/-!
# What the data of a creating call is decoded to

A tail stands wherever its head says. So data is decoded by what it holds at three places, which any
octets may name: at the heads, at the length of the claims and at that of the extra data.

* `numberAt data place` : the number in a word of the data;
* `WordsWithin data place words`, `OctetsWithin data place` : the tail of a list of words, and that
  of a string, with all of it inside the data;
* `wordsAt_eq_ok_iff`, `exists_octetsAt_iff` : these are the tails that are decoded, and all others
  are refused (`exists_decodeClaims_error`);
* `encode_creationArguments` : the arguments as they are encoded, heads first;
* `creation_decoded` : a creating call is decoded to its claims, and nothing is but what holds them.
-/

namespace Watchtower

namespace Abi

theorem bind_eq_ok_iff {α β : Type} {x : Except AbiFault α} {f : α → Except AbiFault β} {b : β} :
    x >>= f = .ok b ↔ ∃ a, x = .ok a ∧ f a = .ok b := by
  cases x with
  | error fault => simp [bind, Except.bind]
  | ok a => simp [bind, Except.bind]

/-- The number in the 32 octets at a place. -/
def numberAt (data : Bytes) (place : Nat) : Nat := ofBigEndian ((data.drop place).take 32)

theorem wordAt_eq_ok_iff {data : Bytes} {place : Nat} {word : Hash} :
    wordAt data place = .ok word ↔ (data.drop place).take 32 = word.bytes := by
  unfold wordAt firstWord Hash.ofBytes?
  constructor
  · intro h
    by_cases hsize : ((data.drop place).take 32).length = 32
    · rw [dif_pos hsize] at h
      cases h
      rfl
    · rw [dif_neg hsize] at h
      cases h
  · intro h
    have hsize : ((data.drop place).take 32).length = 32 := by rw [h, word.size]
    rw [dif_pos hsize]
    exact congrArg Except.ok (Hash.ext h)

theorem wordAt_of_outside {data : Bytes} {place : Nat} (h : data.length < place + 32) :
    wordAt data place = .error .invalidData := by
  have hsize : ((data.drop place).take 32).length ≠ 32 := by
    rw [List.length_take, List.length_drop]
    omega
  unfold wordAt firstWord Hash.ofBytes?
  rw [dif_neg hsize]

theorem exists_wordAt {data : Bytes} {place : Nat} (h : place + 32 ≤ data.length) :
    ∃ word, wordAt data place = .ok word ∧ word.toNat = numberAt data place := by
  have hsize : ((data.drop place).take 32).length = 32 := by
    rw [List.length_take, List.length_drop]
    omega
  exact ⟨⟨_, hsize⟩, wordAt_eq_ok_iff.mpr rfl, rfl⟩

theorem exists_wordAt_iff {data : Bytes} {place : Nat} :
    (∃ word, wordAt data place = .ok word) ↔ place + 32 ≤ data.length := by
  constructor
  · rintro ⟨word, h⟩
    by_cases hplace : place + 32 ≤ data.length
    · exact hplace
    · rw [wordAt_of_outside (by omega)] at h
      cases h
  · intro h
    obtain ⟨word, hword, -⟩ := exists_wordAt h
    exact ⟨word, hword⟩

/-- A size is read if its word is within the data and its number fits into 32 bits. -/
theorem sizeAt_eq (data : Bytes) (place : Nat) : sizeAt data place =
    if place + 32 ≤ data.length ∧ numberAt data place < UInt32.size then .ok (numberAt data place)
    else .error .invalidData := by
  unfold sizeAt
  by_cases hplace : place + 32 ≤ data.length
  · obtain ⟨word, hword, hnumber⟩ := exists_wordAt hplace
    rw [hword]
    change (if word.toNat < UInt32.size then _ else _) = _
    rw [hnumber]
    by_cases hsmall : numberAt data place < UInt32.size
    · rw [if_pos hsmall, if_pos ⟨hplace, hsmall⟩]
      rfl
    · rw [if_neg hsmall, if_neg fun h => hsmall h.2]
      rfl
  · rw [wordAt_of_outside (by omega), if_neg fun h => hplace h.1]
    rfl

theorem sizeAt_eq_ok_iff {data : Bytes} {place size : Nat} : sizeAt data place = .ok size ↔
    place + 32 ≤ data.length ∧ numberAt data place = size ∧ size < UInt32.size := by
  rw [sizeAt_eq]
  split
  · next h =>
    rw [Except.ok.injEq]
    constructor
    · rintro rfl
      exact ⟨h.1, rfl, h.2⟩
    · exact fun h => h.2.1
  · next h =>
    refine iff_of_false nofun ?_
    rintro ⟨hplace, rfl, hsmall⟩
    exact h ⟨hplace, hsmall⟩

theorem length_flatMap_bytes (words : List Hash) :
    (words.flatMap Hash.bytes).length = 32 * words.length := by
  induction words with
  | nil => rfl
  | cons word words ih =>
    rw [List.flatMap_cons, List.length_append, word.size, ih, List.length_cons]
    omega

/-- As many words are read as there are, one after the other. -/
theorem firstWords_eq_ok_iff {count : Nat} {data : Bytes} {words : List Hash} :
    firstWords count data = .ok words ↔
      words.length = count ∧ data.take (32 * count) = words.flatMap Hash.bytes := by
  induction count generalizing data words with
  | zero =>
    rw [firstWords, Except.ok.injEq, List.length_eq_zero_iff]
    constructor
    · rintro rfl
      exact ⟨rfl, rfl⟩
    · exact fun h => h.1.symm
  | succ count ih =>
    have hsplit : data.take (32 * (count + 1)) =
        data.take 32 ++ (data.drop 32).take (32 * count) := by
      rw [Nat.mul_succ, Nat.add_comm, List.take_add]
    rw [firstWords, bind_eq_ok_iff]
    constructor
    · rintro ⟨word, hword, h⟩
      obtain ⟨others, hothers, h⟩ := bind_eq_ok_iff.mp h
      obtain rfl : word :: others = words := Except.ok.inj h
      obtain ⟨hlength, hbytes⟩ := ih.mp hothers
      have hfirst : data.take 32 = word.bytes := (@wordAt_eq_ok_iff data 0 word).mp hword
      exact ⟨congrArg (· + 1) hlength, by rw [hsplit, hfirst, hbytes, List.flatMap_cons]⟩
    · rintro ⟨hlength, hbytes⟩
      cases words with
      | nil => cases hlength
      | cons word others =>
        rw [hsplit, List.flatMap_cons] at hbytes
        have hsize : (data.take 32).length = word.bytes.length := by
          have htotal := congrArg List.length hbytes
          have hothers := length_flatMap_bytes others
          have hcount : others.length = count := Nat.succ.inj hlength
          simp only [List.length_append, List.length_take, List.length_drop, word.size] at htotal ⊢
          omega
        obtain ⟨hfirst, hrest⟩ := List.append_inj hbytes hsize
        have hword : firstWord data = .ok word := (@wordAt_eq_ok_iff data 0 word).mpr hfirst
        refine ⟨word, hword, ?_⟩
        rw [ih.mpr ⟨Nat.succ.inj hlength, hrest⟩]
        rfl

/-! ## Tails within the data -/

/-- The length of a list of words at a place, and then the words, none of it outside the data. -/
structure WordsWithin (data : Bytes) (place : Nat) (words : List Hash) : Prop where
  place_small : place < UInt32.size
  count : numberAt data place = words.length
  count_small : words.length < UInt32.size
  within : place + 32 + 32 * words.length ≤ data.length
  bytes : (data.drop (place + 32)).take (32 * words.length) = words.flatMap Hash.bytes

/-- The length of a string at a place, and then as many octets, none of it outside the data. -/
structure OctetsWithin (data : Bytes) (place : Nat) : Prop where
  place_small : place < UInt32.size
  length_small : numberAt data place < UInt32.size
  within : place + 32 + numberAt data place ≤ data.length

theorem wordsAt_eq_ok_iff {data : Bytes} {head : Nat} {words : List Hash} :
    wordsAt data head = .ok words ↔
      head + 32 ≤ data.length ∧ WordsWithin data (numberAt data head) words := by
  unfold wordsAt
  simp only [bind_eq_ok_iff, sizeAt_eq_ok_iff, firstWords_eq_ok_iff]
  constructor
  · rintro ⟨place, ⟨hhead, rfl, hplace⟩, count, ⟨hlength, hcount, hsmall⟩, rfl, hbytes⟩
    have htotal := congrArg List.length hbytes
    rw [length_flatMap_bytes, List.length_take, List.length_drop] at htotal
    exact ⟨hhead, hplace, hcount, hsmall, by omega, hbytes⟩
  · rintro ⟨hhead, hplace, hcount, hsmall, hwithin, hbytes⟩
    exact ⟨_, ⟨hhead, rfl, hplace⟩, _, ⟨by omega, hcount, hsmall⟩, rfl, hbytes⟩

theorem exists_octetsAt_iff {data : Bytes} {head : Nat} :
    (∃ octets, octetsAt data head = .ok octets) ↔
      head + 32 ≤ data.length ∧ OctetsWithin data (numberAt data head) := by
  unfold octetsAt
  simp only [bind_eq_ok_iff, sizeAt_eq_ok_iff]
  constructor
  · rintro ⟨octets, place, ⟨hhead, rfl, hplace⟩, length, ⟨hlength, rfl, hsmall⟩, h⟩
    split at h
    · next hwithin => exact ⟨hhead, hplace, hsmall, hwithin⟩
    · cases h
  · rintro ⟨hhead, hplace, hsmall, hwithin⟩
    refine ⟨(data.drop (numberAt data head + 32)).take (numberAt data (numberAt data head)),
      numberAt data head, ⟨hhead, rfl, hplace⟩, _, ⟨by omega, rfl, hsmall⟩, ?_⟩
    rw [if_pos hwithin]
    rfl

end Abi

open Abi

namespace Contract

/-! ## Calls that hold claims -/

/-- The arguments of a creating call hold some claims. -/
structure Holds (data : Bytes) (claims : List Hash) : Prop where
  heads : 160 ≤ data.length
  claims : WordsWithin data (numberAt data 32) claims
  extraData : OctetsWithin data (numberAt data 128)

theorem exists_numberAt_iff {data : Bytes} {head : Nat} :
    (∃ n, decodeAt data head .number = .ok n) ↔ head + 32 ≤ data.length := by
  rw [← exists_wordAt_iff]
  change (∃ n, Hash.toNat <$> wordAt data head = .ok n) ↔ _
  cases wordAt data head with
  | error fault => exact iff_of_false nofun nofun
  | ok word => exact iff_of_true ⟨_, rfl⟩ ⟨_, rfl⟩

theorem decodeArguments_ok_iff {data : Bytes} {claims : List Hash} :
    (∃ creation, decodeArguments data = .ok creation ∧ creation.claims = claims) ↔
      Holds data claims := by
  unfold decodeArguments
  by_cases hempty : data.isEmpty = true
  · rw [if_pos hempty]
    refine iff_of_false nofun fun h => ?_
    rw [List.isEmpty_iff.mp hempty] at h
    exact absurd h.heads (by decide)
  rw [if_neg hempty]
  simp only [bind_eq_ok_iff]
  constructor
  · rintro ⟨_, ⟨gameType, -, claims, hclaims, parent, -, last, -, extra, hextra, h⟩, rfl⟩
    obtain rfl := Except.ok.inj h
    obtain ⟨-, hclaims⟩ := wordsAt_eq_ok_iff.mp hclaims
    obtain ⟨hheads, hextra⟩ := exists_octetsAt_iff.mp ⟨extra, hextra⟩
    exact ⟨hheads, hclaims, hextra⟩
  · rintro ⟨hheads, hclaims, hextra⟩
    have hword : ∀ head, head + 32 ≤ 160 → ∃ n, decodeAt data head .number = .ok n := fun head h =>
      exists_numberAt_iff.mpr (Nat.le_trans h hheads)
    obtain ⟨gameType, hgameType⟩ := hword 0 (by decide)
    obtain ⟨parent, hparent⟩ := hword 64 (by decide)
    obtain ⟨last, hlast⟩ := hword 96 (by decide)
    obtain ⟨extra, hextra⟩ : ∃ extra, octetsAt data 128 = .ok extra :=
      exists_octetsAt_iff.mpr ⟨hheads, hextra⟩
    have hclaims : wordsAt data 32 = .ok claims := wordsAt_eq_ok_iff.mpr ⟨by omega, hclaims⟩
    exact ⟨_, ⟨gameType, hgameType, claims, hclaims, parent, hparent, last, hlast, extra, hextra,
      rfl⟩, rfl⟩

theorem decodeClaims_selector_ok_iff {data : Bytes} {claims : List Hash} :
    decodeClaims (selector creationSignature ++ data) = .ok claims ↔ Holds data claims := by
  rw [decodeClaims_selector, ← decodeArguments_ok_iff]
  cases decodeArguments data with
  | error fault => exact iff_of_false nofun nofun
  | ok creation => simp

theorem decodeClaims_eq_ok_iff {input : Bytes} {claims : List Hash} :
    decodeClaims input = .ok claims ↔
      ∃ data, input = selector creationSignature ++ data ∧ Holds data claims := by
  constructor
  · intro h
    by_cases hselector : input.take 4 = selector creationSignature
    · have hinput : input = selector creationSignature ++ input.drop 4 := by
        rw [← hselector, List.take_append_drop]
      rw [hinput] at h
      exact ⟨input.drop 4, hinput, decodeClaims_selector_ok_iff.mp h⟩
    · rw [decodeClaims, if_neg hselector] at h
      cases h
  · rintro ⟨data, rfl, h⟩
    exact decodeClaims_selector_ok_iff.mpr h

/-- What does not hold any claims is refused by the decoder. -/
theorem exists_decodeClaims_error {data : Bytes} (h : ∀ claims, ¬ Holds data claims) :
    ∃ fault, decodeClaims (selector creationSignature ++ data) = .error (Cause.abi fault) := by
  cases hdecoded : decodeArguments data with
  | ok creation => exact absurd (decodeArguments_ok_iff.mp ⟨creation, hdecoded, rfl⟩) (h _)
  | error fault => exact ⟨fault, by rw [decodeClaims_selector, hdecoded]⟩

/-! ## Encoded calls -/

/-- The arguments of the call that creates a game. -/
def creationArguments (gameType : Nat) (claims : List Hash) (parentIndex lastBlock : Nat)
    (extraData : Bytes) : List Argument :=
  [⟨.number, gameType⟩, ⟨.words, claims⟩, ⟨.number, parentIndex⟩, ⟨.number, lastBlock⟩,
    ⟨.octets, extraData⟩]

/-- Where the extra data of a call with some claims stands. -/
def extraPlace (claims : List Hash) : Nat := 192 + 32 * claims.length

/-- The places and the lengths in a call fit into the 32 bits that they are read from, as they do in
every call of less than four gigabytes. -/
structure Addressable (claims : List Hash) (extraData : Bytes) : Prop where
  place : extraPlace claims < UInt32.size
  length : extraData.length < UInt32.size

section
variable (gameType : Nat) (claims : List Hash) (parentIndex lastBlock : Nat)
  (extraData trailing : Bytes)

/-- Five heads, the claims after their number, and the extra data after its length. -/
def pieces : List Bytes :=
  [bigEndian 32 gameType, bigEndian 32 160, bigEndian 32 parentIndex, bigEndian 32 lastBlock,
    bigEndian 32 (extraPlace claims), bigEndian 32 claims.length, claims.flatMap Hash.bytes,
    bigEndian 32 extraData.length, extraData, fill extraData.length]

theorem encode_creationArguments :
    encode (creationArguments gameType claims parentIndex lastBlock extraData) =
      (pieces gameType claims parentIndex lastBlock extraData).flatten := by
  have htail : (Argument.tail ⟨.words, claims⟩).length = 32 + 32 * claims.length := by
    rw [Argument.tail, List.length_append, length_bigEndian, length_flatMap_bytes]
  have hplace : 160 + (32 + 32 * claims.length) = extraPlace claims := by
    rw [extraPlace]
    omega
  simp only [creationArguments, encode, headsAndTails, Argument.fixed?, htail, hplace,
    List.length_cons, List.length_nil]
  simp [pieces, Argument.tail, lengthAndOctets]

/-- One of the pieces, with anything after them. -/
theorem take_drop_flatten (before after : List Bytes) {piece : Bytes} {place size : Nat}
    (h : before.flatten.length = place) (hsize : piece.length = size) :
    (((before ++ piece :: after).flatten ++ trailing).drop place).take size = piece := by
  rw [List.flatten_append, List.flatten_cons, List.append_assoc, List.append_assoc,
    List.drop_left' h, List.take_left' hsize]

theorem numberAt_flatten (before after : List Bytes) {n place : Nat}
    (h : before.flatten.length = place) (hn : n < UInt32.size) :
    numberAt ((before ++ bigEndian 32 n :: after).flatten ++ trailing) place = n := by
  have hword : UInt32.size ≤ Nat.pow 256 32 := by decide
  rw [numberAt, take_drop_flatten trailing before after h (length_bigEndian 32 n),
    ofBigEndian_bigEndian, Nat.mod_eq_of_lt (Nat.lt_of_lt_of_le hn hword)]

/-- What stands at which place of an encoded call. -/
structure Places (claims : List Hash) (extraData data : Bytes) : Prop where
  claimsHead : numberAt data 32 = 160
  extraHead : numberAt data 128 = extraPlace claims
  claimsLength : numberAt data 160 = claims.length
  claimsBytes : (data.drop (160 + 32)).take (32 * claims.length) = claims.flatMap Hash.bytes
  extraLength : numberAt data (extraPlace claims) = extraData.length
  within : extraPlace claims + 32 + extraData.length ≤ data.length

theorem places_encode (h : Addressable claims extraData) : Places claims extraData
    (encode (creationArguments gameType claims parentIndex lastBlock extraData) ++ trailing) := by
  have hcount : claims.length < UInt32.size := by
    have hplace := h.place
    rw [extraPlace] at hplace
    omega
  have hbytes := length_flatMap_bytes claims
  rw [encode_creationArguments]
  refine ⟨?_, ?_, ?_, ?_, ?_, ?_⟩
  · exact numberAt_flatten trailing [_] _ (by simp) (by decide)
  · exact numberAt_flatten trailing [_, _, _, _] _ (by simp) h.place
  · exact numberAt_flatten trailing [_, _, _, _, _] _ (by simp) hcount
  · exact take_drop_flatten trailing [_, _, _, _, _, _] _ (by simp) hbytes
  · refine numberAt_flatten trailing [_, _, _, _, _, _, _] _ ?_ h.length
    simp only [List.flatten_cons, List.flatten_nil, List.length_append, length_bigEndian, hbytes,
      List.length_nil, extraPlace]
    omega
  · simp only [pieces, List.flatten_cons, List.flatten_nil, List.length_append, length_bigEndian,
      hbytes, List.length_nil, extraPlace]
    omega

end

/-- An encoded call holds its claims. -/
theorem Places.holds {claims : List Hash} {extraData data : Bytes}
    (hp : Places claims extraData data) (h : Addressable claims extraData) : Holds data claims := by
  have hplace := h.place
  have hwithin := hp.within
  rw [extraPlace] at hplace hwithin
  refine ⟨by omega, ?_, ?_⟩
  · rw [hp.claimsHead]
    exact ⟨by decide, hp.claimsLength, by omega, by omega, hp.claimsBytes⟩
  · rw [hp.extraHead]
    exact ⟨h.place, hp.extraLength ▸ h.length, hp.extraLength ▸ hp.within⟩

theorem Holds.length_lt {claims : List Hash} {data : Bytes} (h : Holds data claims) :
    32 * claims.length < data.length := by
  have hwithin := h.claims.within
  omega

/-- A place or a length that points outside leaves no claims to be held. -/
theorem not_holds_of_outside {data : Bytes} {claims : List Hash}
    (h : data.length < 160 ∨
      data.length < numberAt data 32 + 32 + 32 * numberAt data (numberAt data 32) ∨
      data.length < numberAt data 128 + 32 + numberAt data (numberAt data 128)) :
    ¬ Holds data claims := by
  intro hholds
  have hheads := hholds.heads
  have hclaims := hholds.claims.within
  have hextra := hholds.extraData.within
  rw [← hholds.claims.count] at hclaims
  omega

/-- A creating call, with anything after it, is decoded to its claims in their order. And whatever
octets are decoded, they are the selector and then data with five heads at least: the claims are as
many as the word says that the second head points to, and their octets are those after that word,
all of it within the data. Where one of the two places or lengths points outside, decoding ends with
a fault. -/
theorem creation_decoded :
    (∀ (gameType : Nat) (claims : List Hash) (parentIndex lastBlock : Nat)
      (extraData trailing : Bytes), Addressable claims extraData →
      decodeClaims (callData creationSignature
        (creationArguments gameType claims parentIndex lastBlock extraData) ++ trailing) =
        .ok claims) ∧
      (∀ input claims, decodeClaims input = .ok claims ↔
        ∃ data, input = selector creationSignature ++ data ∧ Holds data claims) ∧
      (∀ input claims, decodeClaims input = .ok claims → 32 * claims.length < input.length) ∧
      ∀ data : Bytes, (data.length < 160 ∨
        data.length < numberAt data 32 + 32 + 32 * numberAt data (numberAt data 32) ∨
        data.length < numberAt data 128 + 32 + numberAt data (numberAt data 128)) →
        ∃ fault, decodeClaims (selector creationSignature ++ data) = .error (Cause.abi fault) := by
  refine ⟨fun gameType claims parentIndex lastBlock extraData trailing h => ?_,
    fun input claims => decodeClaims_eq_ok_iff, fun input claims h => ?_, fun data h => ?_⟩
  · have hplaces := places_encode gameType claims parentIndex lastBlock extraData trailing h
    rw [callData, List.append_assoc]
    exact decodeClaims_selector_ok_iff.mpr (hplaces.holds h)
  · obtain ⟨data, rfl, hholds⟩ := decodeClaims_eq_ok_iff.mp h
    have hlength := hholds.length_lt
    rw [List.length_append]
    omega
  · exact exists_decodeClaims_error fun claims => not_holds_of_outside h

/-- A call with two claims, some extra data and an octet after all. -/
theorem creation_decoded_sample : Addressable [.filled 1, .filled 2] [7] ∧
    decodeClaims (callData creationSignature
      (creationArguments 42 [.filled 1, .filled 2] 3 109 [7]) ++ [0xff]) =
      .ok [.filled 1, .filled 2] := by
  have h : Addressable [.filled 1, .filled 2] [7] := ⟨by decide, by decide⟩
  exact ⟨h, creation_decoded.1 42 _ 3 109 _ [0xff] h⟩

end Contract
end Watchtower
