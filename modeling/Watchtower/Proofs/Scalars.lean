import Watchtower.Proofs.Skipping

/-!
# Reading hashes and numbers

* `HashText v h`, `WordText v x` : the texts of a hash and of a 64-bit integer;
* `HashLike` : 64 characters that are digits or blanks, which is all that is asked of a hash;
* `takes_hash`, `takes_word` : of all values, these are the ones that are read.
-/

namespace Watchtower.Json

/-! ## Hashes -/

/-- A string of 64 characters, after an optional `0x`. -/
def LongText (v : Bytes) (cs : List Char) : Prop :=
  cs.length = 64 ∧ ∃ t m, v = 0x22 :: (t ++ [0x22]) ∧ Spells t m ∧
    (m.map (fun b => Char.ofNat b.toNat) = cs ∨
      m.map (fun b => Char.ofNat b.toNat) = '0' :: 'x' :: cs)

/-- The 64 digits of a hash, of either case. -/
def HashText (v : Bytes) (h : Hash) : Prop := ∃ cs, LongText v cs ∧ hexDigits? cs = some h.bytes

/-- Each of the 64 characters is a digit or a blank. -/
def HashLike (v : Bytes) : Prop :=
  ∃ cs, LongText v cs ∧
    ∀ c ∈ cs, c ∈ [' ', '\r', '\n', '\t'] ∨ ∃ digit, hexDigitValue? c = some digit

theorem isBlank_of_hexDigitValue? {c : Char} {digit : Nat} (h : hexDigitValue? c = some digit) :
    isBlank c = false ∧ c ≠ 'x' := by
  refine ⟨?_, ?_⟩
  · rw [Bool.eq_false_iff]
    intro hblank
    simp only [isBlank, Bool.or_eq_true, decide_eq_true_eq] at hblank
    obtain ((rfl | rfl) | rfl) | rfl := hblank <;> cases h
  · rintro rfl
    cases h

theorem spacedHex?_of_hexDigits? {cs : List Char} {bytes : Bytes} (h : hexDigits? cs = some bytes) :
    spacedHex? none cs = some bytes ∧ cs.length = 2 * bytes.length ∧
      ∀ c ∈ cs, ∃ digit, hexDigitValue? c = some digit := by
  fun_induction hexDigits? cs generalizing bytes with
  | case1 =>
    cases h
    exact ⟨rfl, rfl, nofun⟩
  | case2 => cases h
  | case3 high low rest ih =>
    simp only [Option.bind_eq_bind, Option.bind_eq_some_iff, Option.pure_def,
      Option.some.injEq] at h
    obtain ⟨i, hi, j, hj, tail, htail, rfl⟩ := h
    obtain ⟨hread, hlength, hdigits⟩ := ih htail
    refine ⟨?_, ?_, ?_⟩
    · rw [spacedHex?, (isBlank_of_hexDigitValue? hi).1, hi]
      change spacedHex? (some i) (low :: rest) = _
      rw [spacedHex?, (isBlank_of_hexDigitValue? hj).1, hj]
      change (do return UInt8.ofNat (16 * i + j) :: (← spacedHex? none rest)) = _
      rw [hread]
      rfl
    · simp only [List.length_cons, hlength]
      omega
    · intro c hc
      obtain rfl | rfl | hc : c = high ∨ c = low ∨ c ∈ rest := by simpa using hc
      · exact ⟨i, hi⟩
      · exact ⟨j, hj⟩
      · exact hdigits c hc

theorem digits_of_spacedHex? {pending : Option Nat} {cs : List Char} {bytes : Bytes}
    (h : spacedHex? pending cs = some bytes) :
    ∀ c ∈ cs, c ∈ [' ', '\r', '\n', '\t'] ∨ ∃ digit, hexDigitValue? c = some digit := by
  induction cs generalizing pending bytes with
  | nil => nofun
  | cons c cs ih =>
    by_cases hblank : isBlank c = true
    · rw [spacedHex?, if_pos hblank] at h
      have hmem : c ∈ [' ', '\r', '\n', '\t'] := by
        simp only [isBlank, Bool.or_eq_true, decide_eq_true_eq] at hblank
        obtain ((rfl | rfl) | rfl) | rfl := hblank <;> decide
      exact List.forall_mem_cons.mpr ⟨.inl hmem, ih h⟩
    · rw [spacedHex?, if_neg hblank, Option.bind_eq_bind, Option.bind_eq_some_iff] at h
      obtain ⟨digit, hdigit, h⟩ := h
      refine List.forall_mem_cons.mpr ⟨.inr ⟨digit, hdigit⟩, ?_⟩
      cases pending with
      | none => exact ih h
      | some high =>
        simp only [Option.bind_eq_bind, Option.bind_eq_some_iff] at h
        obtain ⟨tail, htail, -⟩ := h
        exact ih htail

/-- A mark is taken off only if it stands before the digits. -/
theorem withoutHexMark_of_length {cs cs' : List Char} (h : cs = cs' ∨ cs = '0' :: 'x' :: cs')
    (hdigits : ∀ c ∈ cs', c ≠ 'x') : withoutHexMark cs = cs' := by
  obtain rfl | rfl := h
  · unfold withoutHexMark
    split
    · next rest => exact absurd rfl (hdigits 'x' (by simp))
    · rfl
  · rfl

theorem eq_withoutHexMark (cs : List Char) :
    cs = withoutHexMark cs ∨ cs = '0' :: 'x' :: withoutHexMark cs := by
  unfold withoutHexMark
  split
  · exact .inr rfl
  · exact .inl rfl

/-- A string is read as a hash if its characters are. -/
def HashRead (v : Bytes) (h : Hash) : Prop :=
  ∃ t m, v = 0x22 :: (t ++ [0x22]) ∧ Spells t m ∧
    Hash.ofHexChars? (m.map fun b => Char.ofNat b.toNat) = some h

theorem HashText.hashRead {v : Bytes} {h : Hash} (htext : HashText v h) : HashRead v h := by
  obtain ⟨cs, ⟨hlength, t, m, rfl, hm, hmark⟩, hcs⟩ := htext
  obtain ⟨hread, -, hdigits⟩ := spacedHex?_of_hexDigits? hcs
  have hother : ∀ c ∈ cs, c ≠ 'x' := by
    intro c hc
    obtain ⟨digit, hdigit⟩ := hdigits c hc
    exact (isBlank_of_hexDigitValue? hdigit).2
  refine ⟨t, m, rfl, hm, ?_⟩
  unfold Hash.ofHexChars? fixedHex?
  simp only
  rw [withoutHexMark_of_length hmark hother, if_pos hlength, hread, Option.map_some, h.size,
    Nat.sub_self, List.replicate_zero, List.append_nil]
  exact h.ofBytes?_bytes

theorem HashRead.hashLike {v : Bytes} {h : Hash} (hread : HashRead v h) : HashLike v := by
  obtain ⟨t, m, rfl, hm, hcs⟩ := hread
  unfold Hash.ofHexChars? fixedHex? at hcs
  simp only [Option.bind_eq_bind, Option.bind_eq_some_iff] at hcs
  obtain ⟨bytes, hbytes, -⟩ := hcs
  split at hbytes
  · next hlength =>
    obtain ⟨bytes, hbytes, -⟩ := Option.map_eq_some_iff.mp hbytes
    exact ⟨_, ⟨hlength, t, m, rfl, hm, eq_withoutHexMark _⟩, digits_of_spacedHex? hbytes⟩
  · cases hbytes

namespace Reader

theorem takes_hash : Takes Value Reader.hash HashRead := by
  intro v hv l rest hl hrest h r
  have hother {b : UInt8} {u : Bytes} (hb : b ∈ starters) (hquote : b ≠ 0x22) :
      Reader.hash (l ++ (b :: u ++ rest)) = .ok (h, r) ↔ HashRead (b :: u) h ∧ r = rest := by
    refine iff_of_false ?_ ?_
    · unfold Reader.hash
      rw [List.cons_append, bind_of_ok (peek_of_blank hl (starters_apart b hb).1), if_neg hquote]
      exact unexpected_ne_ok
    · rintro ⟨⟨t, m, hquoted, -⟩, -⟩
      exact hquote (List.cons.inj hquoted).1
  cases hv.shape with
  | null => exact hother (by decide) (by decide)
  | true => exact hother (by decide) (by decide)
  | false => exact hother (by decide) (by decide)
  | array => exact hother (by decide) (by decide)
  | object => exact hother (by decide) (by decide)
  | number hn =>
    obtain ⟨b, u, rfl, hb⟩ := hn.head
    have hquote : b ≠ 0x22 := by
      rintro rfl
      exact absurd hb (by decide)
    exact hother (mem_starters hb) hquote
  | @string t ht =>
    unfold Reader.hash
    simp only [List.cons_append, List.append_assoc, List.nil_append]
    rw [bind_of_ok (peek_of_blank hl (by decide)), if_pos rfl, bind_of_ok (mark_cons (by decide)),
      bind_eq_ok_iff]
    simp only [text_true_eq_ok_iff ht]
    constructor
    · rintro ⟨m, middle, ⟨hm, rfl⟩, hread⟩
      cases hhash : Hash.ofHexChars? (m.map fun b => Char.ofNat b.toNat) with
      | none =>
        rw [hhash] at hread
        cases hread
      | some h' =>
        rw [hhash] at hread
        cases hread
        exact ⟨⟨t, m, rfl, hm, hhash⟩, rfl⟩
    · rintro ⟨⟨t', m, hquoted, hm, hhash⟩, rfl⟩
      have ht : t = t' := List.append_cancel_right (List.cons.inj hquoted).2
      refine ⟨m, r, ⟨ht ▸ hm, rfl⟩, ?_⟩
      rw [hhash]
      rfl

end Reader

/-! ## Numbers -/

/-- A number of 64 bits in its fewest decimal digits. -/
def WordText (v : Bytes) (x : UInt64) : Prop := v = decimalText x.toNat

namespace Reader

theorem word?_eq_some_iff {n : Numeral} {t : Bytes} (h : NumberText n t) (x : UInt64) :
    n.word? = some x ↔ WordText t x := by
  constructor
  · intro hword
    obtain ⟨negative, whole, f, e⟩ := n
    obtain ⟨fraction, exponent, hwhole, hf, he, rfl⟩ := h
    match negative, f, e, hf, he, hword with
    | false, none, none, .none, .none, hword =>
      unfold Numeral.word? at hword
      simp only at hword hwhole
      split at hword
      · next hsize =>
        cases hword
        have hvalue : (UInt64.ofNat (decimal whole)).toNat = decimal whole :=
          UInt64.toNat_ofNat_of_lt hsize
        unfold WordText
        rw [hvalue, ← eq_decimalText hwhole]
        simp
      · cases hword
  · rintro rfl
    rw [NumberText.unique h (numberText_decimalText _)]
    unfold Numeral.word?
    simp only [decimal_decimalText]
    rw [if_pos x.toNat_lt]
    exact congrArg some UInt64.ofNat_toNat

theorem takes_word : Takes Value word WordText := by
  intro v hv l rest hl hrest x r
  have hother {b : UInt8} {u : Bytes} (hb : b ∈ starters)
      (hdigit : (isDigit b || b = 0x2d) = false) :
      word (l ++ (b :: u ++ rest)) = .ok (x, r) ↔ WordText (b :: u) x ∧ r = rest := by
    refine iff_of_false ?_ ?_
    · unfold word
      rw [List.cons_append, bind_of_ok (peek_of_blank hl (starters_apart b hb).1),
        if_neg (by rw [hdigit]; decide)]
      exact unexpected_ne_ok
    · rintro ⟨htext, -⟩
      have hmem := (digits_decimalText x.toNat).2 b (by rw [← htext]; simp)
      rw [isDigit_iff.mpr hmem] at hdigit
      cases hdigit
  cases hv.shape with
  | null => exact hother (by decide) (by decide)
  | true => exact hother (by decide) (by decide)
  | false => exact hother (by decide) (by decide)
  | string => exact hother (by decide) (by decide)
  | array => exact hother (by decide) (by decide)
  | object => exact hother (by decide) (by decide)
  | @number n _ hn =>
    obtain ⟨b, u, rfl, hb⟩ := hn.head
    have hread := numeral_of_numberText .early hn hrest
    unfold word
    rw [List.cons_append] at hread ⊢
    rw [bind_of_ok (peek_of_blank hl (starters_apart b (mem_starters hb)).1), if_pos hb,
      bind_of_ok hread, ← word?_eq_some_iff hn]
    cases n.word? with
    | some value =>
      constructor
      · rintro ⟨⟩
        exact ⟨rfl, rfl⟩
      · rintro ⟨⟨⟩, rfl⟩
        rfl
    | none =>
      refine iff_of_false ?_ nofun
      dsimp only
      split <;> nofun

end Reader

end Watchtower.Json
