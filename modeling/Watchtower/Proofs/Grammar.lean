import Watchtower.Json.Reader

/-!
# The grammar of JSON texts

What a text has to look like, said of its octets and without a reader.

* `Blank`, `Digits`, `NumberText` : blanks, and numbers with their parts;
* `StringBody` : what may stand between the quotes of a string;
* `Spells t m` : the octets that a string stands for, where it is Unicode: no half of a character
  beyond 16 bits stands alone in it;
* `Content P as u` : the items `as` parted by commas, with blanks around each, where `P a t` says
  that `t` is a text of the item `a`;
* `Nested`, `Value` : a value of bounded depth, and of any depth;
* `ObjectText`, `Document` : an object and its members, and a text that is one object;
* `toList_eq_data`, `toList_toUTF8_append` : the octets of a text, in a form that is computed, and
  piece by piece.
-/

namespace Watchtower.Json

open Reader (Numeral)

/-! ## Blanks and numbers -/

def blanks : Bytes := [0x20, 0x09, 0x0a, 0x0d]

def Blank (t : Bytes) : Prop := ∀ b ∈ t, b ∈ blanks

theorem blank_nil : Blank [] := nofun

def Digits (t : Bytes) : Prop := t ≠ [] ∧ ∀ b ∈ t, 0x30 ≤ b ∧ b ≤ 0x39

/-- Digits without a zero before others. -/
def WholeDigits (t : Bytes) : Prop := Digits t ∧ (t.head? = some 0x30 → t.length = 1)

/-- The digits after the point, if there is one. -/
inductive FractionText : Option Bytes → Bytes → Prop
  | none : FractionText none []
  | some {t : Bytes} : Digits t → FractionText (some t) (0x2e :: t)

/-- The sign and the digits of the exponent, if there is one. -/
inductive ExponentText : Option (Bool × Bytes) → Bytes → Prop
  | none : ExponentText none []
  | some {mark : UInt8} {sign t : Bytes} {negative : Bool} : mark ∈ ([0x65, 0x45] : Bytes) →
      (sign, negative) ∈ ([([], false), ([0x2b], false), ([0x2d], true)] : List (Bytes × Bool)) →
      Digits t → ExponentText (some (negative, t)) (mark :: (sign ++ t))

def NumberText (n : Numeral) (t : Bytes) : Prop :=
  ∃ fraction exponent, WholeDigits n.whole ∧ FractionText n.fraction fraction ∧
    ExponentText n.exponent exponent ∧
    t = (if n.negative then [0x2d] else []) ++ (n.whole ++ (fraction ++ exponent))

/-! ## Strings -/

/-- Four hexadecimal digits and their number. -/
def Quad (code : Nat) (t : Bytes) : Prop :=
  t.length = 4 ∧ hexNumber? (t.map fun b => Char.ofNat b.toNat) = some code

/-- An octet that stands for itself. -/
def Plain (b : UInt8) : Prop := 0x20 ≤ b ∧ b ≠ 0x22 ∧ b ≠ 0x5c

instance : DecidablePred Plain := fun _ => inferInstanceAs (Decidable (_ ∧ _ ∧ _))

/-- The letters that stand after a backslash, each with what it stands for there. -/
def letters : List (UInt8 × UInt8) :=
  [(0x22, 0x22), (0x5c, 0x5c), (0x2f, 0x2f), (0x62, 0x08), (0x66, 0x0c), (0x6e, 0x0a), (0x72, 0x0d),
   (0x74, 0x09)]

inductive StringBody : Bytes → Prop
  | nil : StringBody []
  | plain {b : UInt8} {t : Bytes} : Plain b → StringBody t → StringBody (b :: t)
  | letter {b c : UInt8} {t : Bytes} : (b, c) ∈ letters → StringBody t →
      StringBody (0x5c :: b :: t)
  | code {code : Nat} {q t : Bytes} : Quad code q → StringBody t →
      StringBody (0x5c :: 0x75 :: (q ++ t))

inductive Spells : Bytes → Bytes → Prop
  | nil : Spells [] []
  | plain {b : UInt8} {t m : Bytes} : Plain b → Spells t m → Spells (b :: t) (b :: m)
  | letter {b c : UInt8} {t m : Bytes} : (b, c) ∈ letters → Spells t m →
      Spells (0x5c :: b :: t) (c :: m)
  | code {code : Nat} {q t m : Bytes} : Quad code q → ¬(0xd800 ≤ code ∧ code ≤ 0xdfff) →
      Spells t m →
      Spells (0x5c :: 0x75 :: (q ++ t)) (String.utf8EncodeChar (Char.ofNat code) ++ m)
  | pair {lead trail : Nat} {q q' t m : Bytes} : Quad lead q → 0xd800 ≤ lead ∧ lead ≤ 0xdbff →
      Quad trail q' → 0xdc00 ≤ trail ∧ trail ≤ 0xdfff → Spells t m →
      Spells (0x5c :: 0x75 :: (q ++ 0x5c :: 0x75 :: (q' ++ t)))
        (String.utf8EncodeChar
          (Char.ofNat (0x10000 + (lead - 0xd800) * 0x400 + (trail - 0xdc00))) ++ m)

/-! ## Values -/

section
variable {α : Type}

/-- One item or more, parted by commas. -/
inductive Joined (P : α → Bytes → Prop) : List α → Bytes → Prop
  | last {a : α} {l t r : Bytes} : Blank l → P a t → Blank r → Joined P [a] (l ++ (t ++ r))
  | cons {a : α} {as : List α} {l t r u : Bytes} : Blank l → P a t → Blank r → Joined P as u →
      Joined P (a :: as) (l ++ (t ++ (r ++ 0x2c :: u)))

inductive Content (P : α → Bytes → Prop) : List α → Bytes → Prop
  | empty {u : Bytes} : Blank u → Content P [] u
  | joined {as : List α} {u : Bytes} : Joined P as u → Content P as u

end

/-- The text of an element is the element. -/
def ElementText (P : Bytes → Prop) (v t : Bytes) : Prop := t = v ∧ P v

/-- A name in quotes, a colon and a value; `Name n m` says that the name `m` may be written `n`. -/
def MemberText (Name : Bytes → Bytes → Prop) (P : Bytes → Prop) (m : Bytes × Bytes) (t : Bytes) :
    Prop :=
  ∃ n a b, t = 0x22 :: (n ++ 0x22 :: (a ++ 0x3a :: (b ++ m.2))) ∧ Name n m.1 ∧ Blank a ∧ Blank b ∧
    P m.2

/-- A name as it is written. -/
def Verbatim (n m : Bytes) : Prop := m = n ∧ StringBody n

/-- A value whose parts, if it has any, are as `P` says. -/
inductive Shape (P : Bytes → Prop) : Bytes → Prop
  | null : Shape P [0x6e, 0x75, 0x6c, 0x6c]
  | true : Shape P [0x74, 0x72, 0x75, 0x65]
  | false : Shape P [0x66, 0x61, 0x6c, 0x73, 0x65]
  | number {n : Numeral} {t : Bytes} : NumberText n t → Shape P t
  | string {t : Bytes} : StringBody t → Shape P (0x22 :: (t ++ [0x22]))
  | array {vs : List Bytes} {u : Bytes} : Content (ElementText P) vs u →
      Shape P (0x5b :: (u ++ [0x5d]))
  | object {ms : List (Bytes × Bytes)} {u : Bytes} : Content (MemberText Verbatim P) ms u →
      Shape P (0x7b :: (u ++ [0x7d]))

/-- A value that is nested less than `depth` deep. -/
def Nested : (depth : Nat) → Bytes → Prop
  | 0 => fun _ => False
  | depth + 1 => Shape (Nested depth)

def Value (t : Bytes) : Prop := ∃ depth, Nested depth t

/-- An object with its members, each a name and the text of a value. -/
def ObjectText (ms : List (Bytes × Bytes)) (t : Bytes) : Prop :=
  ∃ u, t = 0x7b :: (u ++ [0x7d]) ∧ Content (MemberText Spells Value) ms u

/-- A text that is one object. -/
def Document (ms : List (Bytes × Bytes)) (text : String) : Prop :=
  ∃ l t r, text.toUTF8.toList = l ++ (t ++ r) ∧ Blank l ∧ ObjectText ms t ∧ Blank r

/-! ## Parts of values -/

section
variable {α : Type} {P Q : α → Bytes → Prop} {as : List α} {u : Bytes}

/-- An item is no longer than what it is part of. -/
theorem Joined.imp (h : Joined P as u)
    (hitem : ∀ a t, P a t → t.length ≤ u.length → Q a t) : Joined Q as u := by
  induction h with
  | last hl ha hr => exact .last hl (hitem _ _ ha (by simp; omega)) hr
  | cons hl ha hr _ ih =>
    refine .cons hl (hitem _ _ ha (by simp; omega)) hr (ih fun a t hat hle => ?_)
    exact hitem a t hat (by simp; omega)

theorem Content.imp (h : Content P as u)
    (hitem : ∀ a t, P a t → t.length ≤ u.length → Q a t) : Content Q as u := by
  cases h with
  | empty hu => exact .empty hu
  | joined h => exact .joined (h.imp hitem)

end

/-- The parts of a value are shorter than it is. -/
theorem Shape.imp {P Q : Bytes → Prop} {v : Bytes} (h : Shape P v)
    (hpart : ∀ t, P t → t.length < v.length → Q t) : Shape Q v := by
  cases h with
  | null => exact .null
  | true => exact .true
  | false => exact .false
  | number hn => exact .number hn
  | string ht => exact .string ht
  | array hu =>
    refine .array (hu.imp ?_)
    rintro v t ⟨rfl, hv⟩ hle
    exact ⟨rfl, hpart _ hv (by simp; omega)⟩
  | object hu =>
    refine .object (hu.imp ?_)
    rintro m t ⟨n, a, b, rfl, hn, ha, hb, hv⟩ hle
    refine ⟨n, a, b, rfl, hn, ha, hb, hpart _ hv ?_⟩
    simp at hle ⊢
    omega

theorem Value.shape {v : Bytes} (h : Value v) : Shape Value v := by
  obtain ⟨depth, hv⟩ := h
  cases depth with
  | zero => exact hv.elim
  | succ depth => exact Shape.imp hv fun t ht _ => ⟨depth, ht⟩

theorem Joined.of_mem {α : Type} {P : α → Bytes → Prop} {as : List α} {u : Bytes}
    (h : Joined P as u) : ∀ a ∈ as, ∃ t, P a t := by
  induction h with
  | last _ ha _ => exact List.forall_mem_singleton.mpr ⟨_, ha⟩
  | cons _ ha _ _ ih => exact List.forall_mem_cons.mpr ⟨⟨_, ha⟩, ih⟩

/-- What stands after a name is a value. -/
theorem ObjectText.values {ms : List (Bytes × Bytes)} {t : Bytes} (h : ObjectText ms t) :
    ∀ m ∈ ms, Value m.2 := by
  obtain ⟨u, rfl, hu⟩ := h
  cases hu with
  | empty => nofun
  | joined hu =>
    intro m hm
    obtain ⟨t, n, a, b, -, -, -, -, hv⟩ := hu.of_mem m hm
    exact hv

theorem Spells.stringBody {t m : Bytes} (h : Spells t m) : StringBody t := by
  induction h with
  | nil => exact .nil
  | plain hb _ ih => exact .plain hb ih
  | letter hc _ ih => exact .letter hc ih
  | code hq _ _ ih => exact .code hq ih
  | pair hq _ hq' _ _ ih => exact .code hq (.code hq' ih)

theorem Spells.value {t m : Bytes} (h : Spells t m) : Value (0x22 :: (t ++ [0x22])) :=
  ⟨1, .string h.stringBody⟩

/-! ## The octets of a text -/

theorem toList_eq_data (bytes : ByteArray) : bytes.toList = bytes.data.toList := by
  have hloop (i : Nat) (read : List UInt8) :
      ByteArray.toList.loop bytes i read = read.reverse ++ bytes.data.toList.drop i := by
    fun_induction ByteArray.toList.loop bytes i read with
    | case1 i read hi ih =>
      have hsize : i < bytes.data.toList.length := by simpa using hi
      have hget : bytes.get! i = bytes.data.toList[i] := by simp [ByteArray.get!, hi]
      rw [ih, List.drop_eq_getElem_cons hsize, hget]
      simp
    | case2 i read hi =>
      have hsize : bytes.data.toList.length ≤ i := by simpa using hi
      rw [List.drop_eq_nil_of_le hsize, List.append_nil]
  exact hloop 0 []

@[simp]
theorem toList_toByteArray_inj {text text' : String} :
    text.toByteArray.toList = text'.toByteArray.toList ↔ text = text' := by
  simp only [toList_eq_data, Array.toList_inj]
  constructor
  · intro h
    exact String.toByteArray_inj.mp (ByteArray.ext h)
  · rintro rfl
    rfl

theorem toList_toUTF8_append (text text' : String) :
    (text ++ text').toUTF8.toList = text.toUTF8.toList ++ text'.toUTF8.toList := by
  simp only [toList_eq_data]
  simp

theorem toList_toUTF8_ofList (cs : List Char) :
    (String.ofList cs).toUTF8.toList = cs.flatMap String.utf8EncodeChar := by
  rw [toList_eq_data]
  simp [List.utf8Encode]

/-! ## Texts of given parts -/

theorem spells_of_plain {t : Bytes} (h : t.all (Plain ·)) : Spells t t := by
  induction t with
  | nil => exact .nil
  | cons b t ih =>
    rw [List.all_cons, Bool.and_eq_true, decide_eq_true_eq] at h
    exact .plain h.1 (ih h.2)

section
variable {α : Type} {P : α → Bytes → Prop} {a : α} {as : List α} {t u : Bytes}

theorem joined_singleton (ht : P a t) : Joined P [a] t := by
  simpa using Joined.last blank_nil ht blank_nil

theorem joined_cons (ht : P a t) (h : Joined P as u) : Joined P (a :: as) (t ++ 0x2c :: u) := by
  simpa using Joined.cons blank_nil ht blank_nil h

end

theorem memberText_of_name {Name : Bytes → Bytes → Prop} {P : Bytes → Prop} {n m v : Bytes}
    (hname : Name n m) (hv : P v) :
    MemberText Name P (m, v) (0x22 :: (n ++ 0x22 :: 0x3a :: 0x20 :: v)) :=
  ⟨n, [], [0x20], rfl, hname, blank_nil, by simp [Blank, blanks], hv⟩

theorem memberText_of_plain (name : String) {v : Bytes}
    (hname : name.toUTF8.data.toList.all (Plain ·)) (hv : Value v) :
    MemberText Spells Value (name.toUTF8.toList, v)
      (0x22 :: (name.toUTF8.toList ++ 0x22 :: 0x3a :: 0x20 :: v)) := by
  rw [← toList_eq_data] at hname
  exact memberText_of_name (spells_of_plain hname) hv

theorem Nested.mono {depth depth' : Nat} {t : Bytes} (h : Nested depth t) (hle : depth ≤ depth') :
    Nested depth' t := by
  induction depth generalizing depth' t with
  | zero => exact h.elim
  | succ depth ih =>
    obtain ⟨depth', rfl⟩ := Nat.exists_eq_add_of_le hle
    rw [Nat.add_right_comm]
    exact Shape.imp h fun t ht _ => ih ht (by omega)

/-- The members of an object are nested to some depth together. -/
theorem Joined.nested {ms : List (Bytes × Bytes)} {u : Bytes}
    (h : Joined (MemberText Spells Value) ms u) :
    ∃ raw depth, Joined (MemberText Verbatim (Nested depth)) raw u := by
  induction h with
  | @last m l t r hl ht hr =>
    obtain ⟨n, a, b, rfl, hn, ha, hb, depth, hv⟩ := ht
    exact ⟨[(n, m.2)], depth, .last hl ⟨n, a, b, rfl, ⟨rfl, hn.stringBody⟩, ha, hb, hv⟩ hr⟩
  | @cons m ms l t r u hl ht hr _ ih =>
    obtain ⟨n, a, b, rfl, hn, ha, hb, depth, hv⟩ := ht
    obtain ⟨raw, depth', hraw⟩ := ih
    refine ⟨(n, m.2) :: raw, max depth depth', .cons hl
      ⟨n, a, b, rfl, ⟨rfl, hn.stringBody⟩, ha, hb, hv.mono (by omega)⟩ hr (hraw.imp ?_)⟩
    rintro m t ⟨n, a, b, rfl, hn, ha, hb, hv⟩ -
    exact ⟨n, a, b, rfl, hn, ha, hb, hv.mono (by omega)⟩

theorem ObjectText.value {ms : List (Bytes × Bytes)} {t : Bytes} (h : ObjectText ms t) :
    Value t := by
  obtain ⟨u, rfl, hu⟩ := h
  cases hu with
  | empty hu => exact ⟨1, .object (.empty hu)⟩
  | joined hu =>
    obtain ⟨raw, depth, hraw⟩ := hu.nested
    exact ⟨depth + 1, .object (.joined hraw)⟩

end Watchtower.Json
