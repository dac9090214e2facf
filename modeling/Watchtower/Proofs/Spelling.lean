import Watchtower.Proofs.Grammar

/-!
# Reading strings

* `bind_of_ok`, `bind_eq_ok_iff` : readers one after the other;
* `peek_of_blank`, `next_of_blank`, `mark_of_blank` : the octet after blanks;
* `text_false`, `text_true_eq_ok_iff` : a string that is skipped, and one that is read, which only
  succeeds where the string is Unicode;
* `Spells.unique` : a string stands for one sequence of octets.
-/

namespace Watchtower.Json

namespace Reader

section
variable {α β : Type} {R : Reader α} {f : α → Reader β} {bytes rest : Bytes}

theorem bind_of_ok {a : α} (h : R bytes = .ok (a, rest)) : (R >>= f) bytes = f a rest := by
  change (R bytes >>= fun p => f p.1 p.2) = _
  rw [h]
  rfl

theorem bind_eq_ok_iff {b : β} : (R >>= f) bytes = .ok (b, rest) ↔
    ∃ a middle, R bytes = .ok (a, middle) ∧ f a middle = .ok (b, rest) := by
  change (R bytes >>= fun p => f p.1 p.2) = _ ↔ _
  cases R bytes with
  | error misread => simp [bind, Except.bind]
  | ok p =>
    constructor
    · exact fun h => ⟨p.1, p.2, rfl, h⟩
    · rintro ⟨a, middle, h, hf⟩
      cases h
      exact hf

theorem map_eq_ok_iff {g : α → β} {b : β} :
    (g <$> R) bytes = .ok (b, rest) ↔ ∃ a, R bytes = .ok (a, rest) ∧ g a = b := by
  rw [map_eq_pure_bind, bind_eq_ok_iff]
  constructor
  · rintro ⟨a, middle, h, hb⟩
    cases hb
    exact ⟨a, h, rfl⟩
  · rintro ⟨a, h, rfl⟩
    exact ⟨a, rest, h, rfl⟩

theorem map_of_ok {a : α} (g : α → β) (h : R bytes = .ok (a, rest)) :
    (g <$> R) bytes = .ok (g a, rest) :=
  map_eq_ok_iff.mpr ⟨a, h, rfl⟩

end

/-! ## The octet after blanks -/

section
variable {b : UInt8} {l rest : Bytes}

theorem isBlank_iff : isBlank b = true ↔ b ∈ blanks := by
  simp only [isBlank, blanks, Bool.or_eq_true, decide_eq_true_eq, List.mem_cons, List.not_mem_nil]
  grind

theorem dropWhile_isBlank (hl : Blank l) (hb : isBlank b = false) :
    (l ++ b :: rest).dropWhile isBlank = b :: rest := by
  rw [List.dropWhile_append_of_pos fun c hc => isBlank_iff.mpr (hl c hc), List.dropWhile_cons,
    if_neg (by simp [hb])]

theorem peek_of_blank (hl : Blank l) (hb : isBlank b = false) :
    peek (l ++ b :: rest) = .ok (b, b :: rest) := by
  unfold peek
  rw [dropWhile_isBlank hl hb]

theorem next_of_blank (hl : Blank l) (hb : isBlank b = false) :
    next (l ++ b :: rest) = .ok (b, rest) := by
  unfold next
  rw [dropWhile_isBlank hl hb]

theorem mark_of_blank (hl : Blank l) (hb : isBlank b = false) :
    mark b (l ++ b :: rest) = .ok ((), rest) := by
  unfold mark
  rw [bind_of_ok (next_of_blank hl hb)]
  simp
  rfl

theorem mark_cons (hb : isBlank b = false) : mark b (b :: rest) = .ok ((), rest) :=
  mark_of_blank blank_nil hb

end

/-! ## Strings -/

theorem hexQuad_of_quad {code : Nat} {q : Bytes} (h : Quad code q) (rest : Bytes) :
    hexQuad (q ++ rest) = .ok (code, rest) := by
  obtain ⟨hlength, hcode⟩ := h
  match q, hlength with
  | [a, b, c, d], _ =>
    simp only [hexNumber?, List.map_cons, List.map_nil, List.foldlM_cons, List.foldlM_nil,
      Option.bind_eq_bind, Option.bind_eq_some_iff, Option.map_eq_some_iff,
      Option.pure_def] at hcode
    obtain ⟨_, ⟨i, hi, rfl⟩, _, ⟨j, hj, rfl⟩, _, ⟨k, hk, rfl⟩, _, ⟨l, hl, rfl⟩, h⟩ := hcode
    simp only [List.cons_append, List.nil_append, hexQuad, hexValue?, hi, hj, hk, hl]
    simp at h
    congr 2
    omega

theorem plainEscape?_of_letters : ∀ p ∈ letters, plainEscape? p.1 = some p.2 ∧ p.1 ≠ 0x75 := by
  simp [letters, plainEscape?]

theorem escape_letter {b c : UInt8} (strict : Bool) (h : (b, c) ∈ letters) (rest : Bytes) :
    escape strict (b :: rest) = .ok ([c], rest) := by
  obtain ⟨hvalue, hother⟩ := plainEscape?_of_letters (b, c) h
  simp only at hvalue hother
  rw [escape, if_neg hother, hvalue]

theorem escape_code {code : Nat} {q : Bytes} (h : Quad code q) (strict : Bool) (rest : Bytes) :
    escape strict (0x75 :: (q ++ rest)) =
      if !strict then .ok ([], rest)
      else if 0xdc00 ≤ code && code ≤ 0xdfff then .error .malformed
      else if code < 0xd800 || 0xdbff < code then
        .ok (String.utf8EncodeChar (Char.ofNat code), rest)
      else trailingHalf code rest := by
  rw [escape, if_pos rfl, hexQuad_of_quad h]
  rfl

theorem trailingHalf_code {trail : Nat} {q : Bytes} (h : Quad trail q) (lead : Nat) (rest : Bytes) :
    trailingHalf lead (0x5c :: 0x75 :: (q ++ rest)) =
      if trail < 0xdc00 || 0xdfff < trail then .error .malformed
      else .ok (String.utf8EncodeChar
        (Char.ofNat (0x10000 + (lead - 0xd800) * 0x400 + (trail - 0xdc00))), rest) := by
  simp only [trailingHalf, ne_eq, not_true_eq_false, if_false, hexQuad_of_quad h]
  rfl

section
variable {strict : Bool} {size : Nat} {t rest : Bytes}

theorem textParts_quote (strict : Bool) (hsize : 0 < size) (rest : Bytes) :
    textParts strict size (0x22 :: rest) = .ok ([], rest) := by
  obtain ⟨size, rfl⟩ := Nat.exists_eq_add_one.mpr hsize
  rw [textParts, if_pos rfl]

theorem textParts_plain {b : UInt8} (hb : Plain b) (strict : Bool) (hsize : 0 < size)
    (rest : Bytes) : textParts strict size (b :: rest) =
      (textParts strict (size - 1) rest).map fun p => (b :: p.1, p.2) := by
  obtain ⟨size, rfl⟩ := Nat.exists_eq_add_one.mpr hsize
  obtain ⟨hlow, hquote, hslash⟩ := hb
  rw [textParts, if_neg hquote, if_neg hslash, if_neg (by exact UInt8.not_lt.mpr hlow),
    Nat.add_sub_cancel]
  cases textParts strict size rest <;> rfl

theorem textParts_escape {part rest rest' : Bytes} (h : escape strict rest = .ok (part, rest'))
    (hsize : 0 < size) : textParts strict size (0x5c :: rest) =
      (textParts strict (size - 1) rest').map fun p => (part ++ p.1, p.2) := by
  obtain ⟨size, rfl⟩ := Nat.exists_eq_add_one.mpr hsize
  rw [textParts, if_neg (by decide), if_pos rfl, h, Nat.add_sub_cancel]
  change (textParts strict size rest' >>= _) = _
  cases textParts strict size rest' <;> rfl

theorem textParts_escape_error {misread : Misread} {rest : Bytes}
    (h : escape strict rest = .error misread) (hsize : 0 < size) :
    textParts strict size (0x5c :: rest) = .error misread := by
  obtain ⟨size, rfl⟩ := Nat.exists_eq_add_one.mpr hsize
  rw [textParts, if_neg (by decide), if_pos rfl, h]
  rfl

theorem textParts_false (h : StringBody t) (hsize : t.length < size) (rest : Bytes) :
    ∃ m, textParts false size (t ++ 0x22 :: rest) = .ok (m, rest) := by
  induction h generalizing size with
  | nil => exact ⟨[], textParts_quote false hsize rest⟩
  | @plain b t hb _ ih =>
    simp only [List.length_cons] at hsize
    obtain ⟨m, hm⟩ := ih (show t.length < size - 1 by omega)
    refine ⟨b :: m, ?_⟩
    rw [List.cons_append, textParts_plain hb false (by omega), hm]
    rfl
  | @letter b c t hc _ ih =>
    simp only [List.length_cons] at hsize
    obtain ⟨m, hm⟩ := ih (show t.length < size - 1 by omega)
    refine ⟨[c] ++ m, ?_⟩
    rw [List.cons_append, List.cons_append, textParts_escape (escape_letter false hc _) (by omega),
      hm]
    rfl
  | @code code q t hq _ ih =>
    simp only [List.length_cons, List.length_append] at hsize
    obtain ⟨m, hm⟩ := ih (show t.length < size - 1 by omega)
    refine ⟨m, ?_⟩
    rw [List.cons_append, List.cons_append, List.append_assoc,
      textParts_escape (escape_code hq false _) (by omega), hm]
    rfl

theorem textParts_true {m : Bytes} (h : Spells t m) (hsize : t.length < size) (rest : Bytes) :
    textParts true size (t ++ 0x22 :: rest) = .ok (m, rest) := by
  induction h generalizing size with
  | nil => exact textParts_quote true hsize rest
  | @plain b t m hb _ ih =>
    simp only [List.length_cons] at hsize
    rw [List.cons_append, textParts_plain hb true (by omega), ih (by omega)]
    rfl
  | @letter b c t m hc _ ih =>
    simp only [List.length_cons] at hsize
    rw [List.cons_append, List.cons_append, textParts_escape (escape_letter true hc _) (by omega),
      ih (by omega)]
    rfl
  | @code code q t m hq hcode _ ih =>
    simp only [List.length_cons, List.length_append] at hsize
    have hescape : escape true (0x75 :: (q ++ (t ++ 0x22 :: rest))) =
        .ok (String.utf8EncodeChar (Char.ofNat code), t ++ 0x22 :: rest) := by
      rw [escape_code hq, if_neg (by decide), if_neg (by simp; omega), if_pos (by simp; omega)]
    rw [List.cons_append, List.cons_append, List.append_assoc, textParts_escape hescape (by omega),
      ih (by omega)]
    rfl
  | @pair lead trail q q' t m hq hlead hq' htrail _ ih =>
    simp only [List.length_cons, List.length_append] at hsize
    have hescape : escape true (0x75 :: (q ++ 0x5c :: 0x75 :: (q' ++ (t ++ 0x22 :: rest)))) =
        .ok (String.utf8EncodeChar
          (Char.ofNat (0x10000 + (lead - 0xd800) * 0x400 + (trail - 0xdc00))),
            t ++ 0x22 :: rest) := by
      rw [escape_code hq, if_neg (by decide), if_neg (by simp; omega), if_neg (by simp; omega),
        trailingHalf_code hq', if_neg (by simp; omega)]
    simp only [List.cons_append, List.append_assoc]
    rw [textParts_escape hescape (by omega), ih (by omega)]
    rfl

theorem exceptMap_eq_ok_iff {α β : Type} {x : Except Misread α} {f : α → β} {b : β} :
    x.map f = .ok b ↔ ∃ a, x = .ok a ∧ f a = b := by
  cases x with
  | error misread => simp [Except.map]
  | ok a => simp [Except.map]

/-- What is left of a string after half of a character, if the other half is read from it. -/
theorem stringBody_of_trailingHalf {lead : Nat} {part r : Bytes} (h : StringBody t)
    (hread : trailingHalf lead (t ++ 0x22 :: rest) = .ok (part, r)) :
    ∃ trail q t', Quad trail q ∧ (0xdc00 ≤ trail ∧ trail ≤ 0xdfff) ∧ StringBody t' ∧
      t = 0x5c :: 0x75 :: (q ++ t') ∧ r = t' ++ 0x22 :: rest ∧
      part = String.utf8EncodeChar
        (Char.ofNat (0x10000 + (lead - 0xd800) * 0x400 + (trail - 0xdc00))) := by
  cases h with
  | nil => simp [trailingHalf] at hread
  | plain hb => simp [trailingHalf, hb.2.2] at hread
  | letter hc => simp [trailingHalf, (plainEscape?_of_letters _ hc).2] at hread
  | @code trail q t' hq ht =>
    simp only [List.cons_append, List.append_assoc] at hread
    rw [trailingHalf_code hq] at hread
    split at hread
    · cases hread
    · next htrail =>
      rw [Except.ok.injEq, Prod.mk.injEq] at hread
      exact ⟨trail, q, t', hq, by simp at htrail; omega, ht, rfl, hread.2.symm, hread.1.symm⟩

theorem spells_of_textParts {m r : Bytes} (h : StringBody t)
    (hread : textParts true size (t ++ 0x22 :: rest) = .ok (m, r)) : Spells t m ∧ r = rest := by
  -- induction on the rounds, as the second half of a character is taken off together with the first
  induction size generalizing t m with
  | zero =>
    rw [textParts] at hread
    cases hread
  | succ size ih =>
    cases h with
    | nil =>
      rw [List.nil_append, textParts_quote true (by omega)] at hread
      cases hread
      exact ⟨.nil, rfl⟩
    | plain hb ht =>
      rw [List.cons_append, textParts_plain hb true (by omega), exceptMap_eq_ok_iff] at hread
      obtain ⟨⟨m, r⟩, hread, hm⟩ := hread
      cases hm
      obtain ⟨hm, hr⟩ := ih ht hread
      exact ⟨.plain hb hm, hr⟩
    | letter hc ht =>
      rw [List.cons_append, List.cons_append, textParts_escape (escape_letter true hc _) (by omega),
        exceptMap_eq_ok_iff] at hread
      obtain ⟨⟨m, r⟩, hread, hm⟩ := hread
      cases hm
      obtain ⟨hm, hr⟩ := ih ht hread
      exact ⟨.letter hc hm, hr⟩
    | @code code q t hq ht =>
      simp only [List.cons_append, List.append_assoc] at hread
      cases hescape : escape true (0x75 :: (q ++ (t ++ 0x22 :: rest))) with
      | error misread =>
        rw [textParts_escape_error hescape (by omega)] at hread
        cases hread
      | ok p =>
        obtain ⟨part, middle⟩ := p
        rw [textParts_escape hescape (by omega), exceptMap_eq_ok_iff] at hread
        obtain ⟨⟨m, r⟩, hread, hm⟩ := hread
        cases hm
        rw [escape_code hq, if_neg (by decide)] at hescape
        split at hescape
        · cases hescape
        split at hescape
        · next htrail hcode =>
          cases hescape
          obtain ⟨hm, hr⟩ := ih ht hread
          exact ⟨.code hq (by simp at htrail hcode; omega) hm, hr⟩
        · next htrail hcode =>
          obtain ⟨trail, q', t', hq', hrange, ht', rfl, rfl, hpart⟩ :=
            stringBody_of_trailingHalf ht hescape
          obtain ⟨hm, hr⟩ := ih ht' hread
          rw [hpart]
          exact ⟨.pair hq (by simp at hcode; omega) hq' hrange hm, hr⟩

/-- A string that is skipped. -/
theorem text_false (h : StringBody t) (rest : Bytes) :
    ∃ m, text false (t ++ 0x22 :: rest) = .ok (m, rest) :=
  textParts_false h (by simp) rest

/-- A string that is read. -/
theorem text_true_eq_ok_iff {m r : Bytes} (h : StringBody t) :
    text true (t ++ 0x22 :: rest) = .ok (m, r) ↔ Spells t m ∧ r = rest := by
  constructor
  · exact fun hread => spells_of_textParts h hread
  · rintro ⟨hm, rfl⟩
    exact textParts_true hm (by simp) r

end

end Reader

theorem Spells.unique {t m m' : Bytes} (h : Spells t m) (h' : Spells t m') : m = m' := by
  have hm : Reader.text true (t ++ [0x22]) = .ok (m, []) :=
    (Reader.text_true_eq_ok_iff h.stringBody).mpr ⟨h, rfl⟩
  have hm' : Reader.text true (t ++ [0x22]) = .ok (m', []) :=
    (Reader.text_true_eq_ok_iff h.stringBody).mpr ⟨h', rfl⟩
  rw [hm] at hm'
  cases hm'
  rfl

end Watchtower.Json
