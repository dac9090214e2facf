import Watchtower.Proofs.Spelling
import Mathlib.Data.List.Basic
import Mathlib.Data.List.Induction

/-!
# Reading numbers

* `Ends rest` : what follows a value, which no number can go on with;
* `numeral_of_numberText` : a number is read with its parts, up to there;
* `decimalText n` : a number in its fewest decimal digits, which have that value
  (`decimal_decimalText`) and are the only whole digits that have it (`eq_decimalText`);
* `NumberText.unique` : a text is a number in one way.
-/

namespace Watchtower.Json

open Reader (Numeral)

/-! ## Numbers -/

/-- What may follow a value. -/
def followers : Bytes := [0x20, 0x09, 0x0a, 0x0d, 0x2c, 0x5d, 0x7d]

/-- What comes next cannot go on with a value. -/
def Ends (rest : Bytes) : Prop := ∀ b ∈ rest.head?, b ∈ followers

namespace Reader

section
variable {atEnd : Misread} {t rest : Bytes}

theorem isDigit_iff {b : UInt8} : isDigit b = true ↔ 0x30 ≤ b ∧ b ≤ 0x39 := by
  simp [isDigit]

/-- No part of a number begins with what may follow a value, or with what begins another part. -/
theorem isDigit_eq_false :
    ∀ b ∈ followers ++ [0x2e, 0x65, 0x45, 0x2b, 0x2d], isDigit b = false := by
  simp [followers, isDigit]

theorem not_mem_followers :
    ∀ b ∈ followers, b ∉ ([0x2e] : Bytes) ∧ b ∉ ([0x65, 0x45] : Bytes) := by
  simp [followers]

theorem someDigits_of_digits (h : Digits t) (hrest : ∀ b ∈ rest.head?, isDigit b = false) :
    someDigits atEnd (t ++ rest) = .ok (t, rest) := by
  obtain ⟨hne, hdigits⟩ := h
  have htake : (t ++ rest).takeWhile isDigit = t ∧ (t ++ rest).dropWhile isDigit = rest := by
    rw [List.takeWhile_append_of_pos fun b hb => isDigit_iff.mpr (hdigits b hb),
      List.dropWhile_append_of_pos fun b hb => isDigit_iff.mpr (hdigits b hb)]
    cases rest with
    | nil => simp
    | cons b rest => simp [hrest b rfl]
  unfold someDigits
  rw [htake.1, htake.2]
  cases t with
  | nil => exact absurd rfl hne
  | cons b t => rfl

theorem wholeDigits_of_wholeDigits (h : WholeDigits t)
    (hrest : ∀ b ∈ rest.head?, isDigit b = false) :
    wholeDigits atEnd (t ++ rest) = .ok (t, rest) := by
  unfold wholeDigits
  rw [bind_of_ok (someDigits_of_digits h.1 hrest), if_neg]
  · rfl
  · intro hzero
    simp only [Bool.and_eq_true, decide_eq_true_eq] at hzero
    have hone := h.2 hzero.1
    omega

theorem optionalMark_of_mem {b : UInt8} {marks : Bytes} (h : b ∈ marks) (rest : Bytes) :
    optionalMark marks (b :: rest) = .ok (some b, rest) := by
  rw [optionalMark, if_pos (by simpa using h)]

theorem optionalMark_of_not_mem {marks : Bytes} (h : ∀ b ∈ rest.head?, b ∉ marks) :
    optionalMark marks rest = .ok (none, rest) := by
  cases rest with
  | nil => rfl
  | cons b rest => rw [optionalMark, if_neg (by simpa using h b rfl)]

/-- A sign is taken off if there is one, as no digit is one. -/
theorem optionalMark_sign {sign marks : Bytes} (ht : Digits t)
    (hsign : sign = [] ∨ ∃ b ∈ marks, sign = [b]) (hmarks : ∀ b ∈ marks, isDigit b = false) :
    optionalMark marks (sign ++ (t ++ rest)) = .ok (sign.head?, t ++ rest) := by
  obtain rfl | ⟨b, hb, rfl⟩ := hsign
  · refine optionalMark_of_not_mem ?_
    cases t with
    | nil => exact absurd rfl ht.1
    | cons b t =>
      intro c hc hmem
      cases hc
      have hdigit := isDigit_iff.mpr (ht.2 b (by simp))
      rw [hmarks b hmem] at hdigit
      cases hdigit
  · exact optionalMark_of_mem hb _

theorem exponent_of_exponentText {e : Option (Bool × Bytes)} {exponent : Bytes} {β : Type}
    (h : ExponentText e exponent) (hrest : Ends rest) (next : Option (Bool × Bytes) → Reader β) :
    (optionalMark [0x65, 0x45] >>= fun mark =>
      match mark with
      | none => pure none >>= next
      | some _ => optionalMark [0x2b, 0x2d] >>= fun sign => someDigits atEnd >>= fun found =>
        pure (some (sign == some 0x2d, found)) >>= next) (exponent ++ rest) = next e rest := by
  cases h with
  | none =>
    rw [List.nil_append,
      bind_of_ok (optionalMark_of_not_mem fun b hb => (not_mem_followers b (hrest b hb)).2)]
    rfl
  | @some mark sign t negative hmark hsign ht =>
    have hdigit : ∀ b ∈ rest.head?, isDigit b = false := fun b hb =>
      isDigit_eq_false b (List.mem_append_left _ (hrest b hb))
    have hsigns : (sign = [] ∨ ∃ b ∈ ([0x2b, 0x2d] : Bytes), sign = [b]) ∧
        (sign.head? == some 0x2d) = negative := by
      simp only [List.mem_cons, Prod.mk.injEq, List.not_mem_nil, or_false] at hsign
      obtain ⟨rfl, rfl⟩ | ⟨rfl, rfl⟩ | ⟨rfl, rfl⟩ := hsign <;> simp
    rw [List.cons_append, List.append_assoc, bind_of_ok (optionalMark_of_mem hmark _)]
    change (optionalMark [0x2b, 0x2d] >>= _) _ = _
    rw [bind_of_ok (optionalMark_sign ht hsigns.1 (by simp [isDigit])),
      bind_of_ok (someDigits_of_digits ht hdigit), hsigns.2]
    rfl

/-- What follows the digits before the point is no digit. -/
theorem isDigit_head_exponent {e : Option (Bool × Bytes)} {exponent : Bytes}
    (h : ExponentText e exponent) (hrest : Ends rest) :
    ∀ b ∈ (exponent ++ rest).head?, isDigit b = false ∧ b ∉ ([0x2e] : Bytes) := by
  intro b hb
  cases h with
  | none =>
    have hb := hrest b hb
    exact ⟨isDigit_eq_false b (List.mem_append_left _ hb), (not_mem_followers b hb).1⟩
  | @some mark sign t negative hmark hsign ht =>
    cases hb
    have hmarks : ∀ b ∈ ([0x65, 0x45] : Bytes), isDigit b = false ∧ b ∉ ([0x2e] : Bytes) := by
      simp [isDigit]
    exact hmarks _ hmark

theorem numeral_of_numberText (atEnd : Misread) {n : Numeral} (h : NumberText n t)
    (hrest : Ends rest) : numeral atEnd (t ++ rest) = .ok (n, rest) := by
  obtain ⟨negative, whole, f, e⟩ := n
  obtain ⟨fraction, exponent, hwhole, hf, he, rfl⟩ := h
  have hsign : (if negative then [0x2d] else [] : Bytes) = [] ∨
      ∃ b ∈ ([0x2d] : Bytes), (if negative then [0x2d] else [] : Bytes) = [b] := by
    cases negative <;> simp
  have hhead := isDigit_head_exponent he hrest
  unfold numeral
  simp only at hwhole hf he ⊢
  simp only [List.append_assoc]
  rw [bind_of_ok (optionalMark_sign hwhole.1 hsign (by simp [isDigit]))]
  cases hf with
  | none =>
    rw [List.nil_append, bind_of_ok (wholeDigits_of_wholeDigits hwhole fun b hb => (hhead b hb).1),
      bind_of_ok (optionalMark_of_not_mem fun b hb => (hhead b hb).2)]
    refine (exponent_of_exponentText he hrest _).trans ?_
    cases negative <;> rfl
  | @some t ht =>
    rw [bind_of_ok (wholeDigits_of_wholeDigits hwhole (by simp [isDigit])), List.cons_append,
      bind_of_ok (optionalMark_of_mem (by simp) _)]
    have hread := @someDigits_of_digits atEnd _ _ ht fun b hb => (hhead b hb).1
    refine (bind_of_ok (map_of_ok some hread)).trans ?_
    refine (exponent_of_exponentText he hrest _).trans ?_
    cases negative <;> rfl

end

end Reader

/-! ## Plain integers -/

/-- A number in its fewest decimal digits. -/
def decimalText (n : Nat) : Bytes := (Nat.toDigits 10 n).map fun c => UInt8.ofNat c.toNat

/-- One digit is added at the end at a time. -/
theorem decimalText_induction {motive : Nat → Prop} (digit : ∀ d < 10, motive d)
    (more : ∀ n d, 0 < n → d < 10 → motive n → motive (n * 10 + d)) (n : Nat) : motive n := by
  induction n using Nat.strongRecOn with
  | ind n ih =>
    by_cases hn : n < 10
    · exact digit n hn
    · have hsplit : n / 10 * 10 + n % 10 = n := by omega
      rw [← hsplit]
      exact more (n / 10) (n % 10) (by omega) (by omega) (ih (n / 10) (by omega))

def digitOctet (d : Nat) : UInt8 := UInt8.ofNat (Nat.digitChar d).toNat

theorem digit_digitOctet : ∀ d < 10, (0x30 ≤ digitOctet d ∧ digitOctet d ≤ 0x39) ∧
    Reader.digitValue (digitOctet d) = d ∧ (digitOctet d = 0x30 → d = 0) := by
  decide

theorem exists_digitOctet {b : UInt8} (h : 0x30 ≤ b ∧ b ≤ 0x39) : ∃ d < 10, b = digitOctet d := by
  have hall : ∀ n < 0x3a, 0x30 ≤ n → UInt8.ofNat n = digitOctet (n - 0x30) := by decide
  obtain ⟨hlow, hhigh⟩ := h
  rw [UInt8.le_iff_toNat_le] at hlow hhigh
  have hlow : 0x30 ≤ b.toNat := hlow
  have hhigh : b.toNat ≤ 0x39 := hhigh
  refine ⟨b.toNat - 0x30, by omega, ?_⟩
  rw [← hall b.toNat (by omega) hlow, UInt8.ofNat_toNat]

theorem decimal_append_singleton (t : Bytes) (b : UInt8) :
    Reader.decimal (t ++ [b]) = Reader.decimal t * 10 + Reader.digitValue b := by
  simp [Reader.decimal]

theorem decimalText_of_lt {n : Nat} (h : n < 10) : decimalText n = [digitOctet n] := by
  unfold decimalText
  rw [Nat.toDigits_of_lt_base h]
  rfl

theorem decimalText_mul_add {n d : Nat} (hn : 0 < n) (hd : d < 10) :
    decimalText (n * 10 + d) = decimalText n ++ [digitOctet d] := by
  unfold decimalText
  rw [Nat.mul_comm, ← Nat.toDigits_append_toDigits (by decide) hn hd, List.map_append,
    Nat.toDigits_of_lt_base hd]
  rfl

theorem digits_decimalText (n : Nat) : Digits (decimalText n) := by
  induction n using decimalText_induction with
  | digit d hd =>
    rw [decimalText_of_lt hd]
    exact ⟨by simp, by simpa using (digit_digitOctet d hd).1⟩
  | more n d hn hd ih =>
    rw [decimalText_mul_add hn hd]
    refine ⟨by simp, fun b hb => ?_⟩
    rcases List.mem_append.mp hb with hb | hb
    · exact ih.2 b hb
    · rw [List.mem_singleton.mp hb]
      exact (digit_digitOctet d hd).1

theorem decimal_decimalText (n : Nat) : Reader.decimal (decimalText n) = n := by
  induction n using decimalText_induction with
  | digit d hd =>
    rw [decimalText_of_lt hd]
    simpa [Reader.decimal] using (digit_digitOctet d hd).2.1
  | more n d hn hd ih =>
    rw [decimalText_mul_add hn hd, decimal_append_singleton, ih, (digit_digitOctet d hd).2.1]

theorem head_decimalText (n : Nat) : (decimalText n).head? = some 0x30 → n = 0 := by
  induction n using decimalText_induction with
  | digit d hd =>
    rw [decimalText_of_lt hd]
    simpa using (digit_digitOctet d hd).2.2
  | more n d hn hd ih =>
    rw [decimalText_mul_add hn hd, List.head?_append_of_ne_nil _ (digits_decimalText n).1]
    intro hzero
    have := ih hzero
    omega

theorem wholeDigits_decimalText (n : Nat) : WholeDigits (decimalText n) := by
  refine ⟨digits_decimalText n, fun hzero => ?_⟩
  rw [head_decimalText n hzero, decimalText_of_lt (by decide)]
  rfl

theorem eq_decimalText {t : Bytes} (h : WholeDigits t) : t = decimalText (Reader.decimal t) := by
  induction t using List.reverseRecOn with
  | nil => exact absurd rfl h.1.1
  | append_singleton t b ih =>
    obtain ⟨⟨-, hdigits⟩, hzero⟩ := h
    obtain ⟨d, hd, rfl⟩ := exists_digitOctet (hdigits b (by simp))
    rw [decimal_append_singleton, (digit_digitOctet d hd).2.1]
    by_cases ht : t = []
    · subst ht
      rw [show Reader.decimal [] = 0 from rfl, Nat.zero_mul, Nat.zero_add, decimalText_of_lt hd,
        List.nil_append]
    · have hhead : t.head? ≠ some 0x30 := by
        intro hhead
        have hone := hzero (by rw [List.head?_append_of_ne_nil _ ht, hhead])
        rw [List.length_append, List.length_singleton] at hone
        exact ht (List.length_eq_zero_iff.mp (by omega))
      have hwhole : WholeDigits t :=
        ⟨⟨ht, fun b hb => hdigits b (List.mem_append_left _ hb)⟩, fun h => absurd h hhead⟩
      have htext := ih hwhole
      have hpos : 0 < Reader.decimal t := by
        apply Nat.pos_of_ne_zero
        intro hvalue
        rw [hvalue, decimalText_of_lt (by decide)] at htext
        exact hhead (by rw [htext]; rfl)
      rw [decimalText_mul_add hpos hd, ← htext]

theorem numberText_decimalText (n : Nat) :
    NumberText ⟨false, decimalText n, none, none⟩ (decimalText n) :=
  ⟨[], [], wholeDigits_decimalText n, .none, .none, by simp⟩

theorem value_decimalText (n : Nat) : Value (decimalText n) :=
  ⟨1, .number (numberText_decimalText n)⟩

theorem NumberText.unique {n n' : Numeral} {t : Bytes} (h : NumberText n t) (h' : NumberText n' t) :
    n = n' := by
  have hends : Ends [] := nofun
  have hread := Reader.numeral_of_numberText .early h hends
  rw [Reader.numeral_of_numberText .early h' hends] at hread
  cases hread
  rfl

end Watchtower.Json
