import Watchtower.Proofs.Numerals

/-!
# Reading items and skipping values

* `Takes P read F` : of the texts that `P` allows, `read` takes off one with the blanks before it,
  whatever follows, and answers what `F` says of that text;
* `items_eq_ok_iff` : items parted by commas are read if each of them can be read where the items
  before have led;
* `takes_skipValue` : any value is skipped, however deep it is nested;
* `unexpected_ne_ok` : a value of another kind than expected is never read.
-/

namespace Watchtower.Json

def Takes {α : Type} (P : Bytes → Prop) (read : Reader α) (F : Bytes → α → Prop) : Prop :=
  ∀ v, P v → ∀ l rest, Blank l → Ends rest → ∀ x r,
    read (l ++ (v ++ rest)) = .ok (x, r) ↔ F v x ∧ r = rest

theorem ends_of_blank {r rest : Bytes} {b : UInt8} (hr : Blank r) (hb : b ∈ followers) :
    Ends (r ++ b :: rest) := by
  have hsubset : ∀ b ∈ blanks, b ∈ followers := by simp [blanks, followers]
  cases r with
  | nil =>
    intro c hc
    cases hc
    exact hb
  | cons c r =>
    intro d hd
    cases hd
    exact hsubset _ (hr _ (by simp))

/-! ## How values begin -/

/-- The octets that end an array or an object. -/
def closers : Bytes := [0x5d, 0x7d]

/-- The octets that a value may begin with. -/
def starters : Bytes :=
  [0x6e, 0x74, 0x66, 0x22, 0x5b, 0x7b, 0x2d, 0x30, 0x31, 0x32, 0x33, 0x34, 0x35, 0x36, 0x37, 0x38,
   0x39]

theorem starters_apart :
    ∀ b ∈ starters, Reader.isBlank b = false ∧ b ∉ 0x2c :: closers := by
  simp [starters, closers, Reader.isBlank]

theorem NumberText.head {n : Reader.Numeral} {t : Bytes} (h : NumberText n t) :
    ∃ b u, t = b :: u ∧ (Reader.isDigit b || b = 0x2d) = true := by
  obtain ⟨fraction, exponent, hwhole, -, -, rfl⟩ := h
  cases hnegative : n.negative with
  | true => exact ⟨0x2d, _, rfl, rfl⟩
  | false =>
    cases hdigits : n.whole with
    | nil => exact absurd hdigits hwhole.1.1
    | cons b u =>
      refine ⟨b, _, rfl, ?_⟩
      rw [Reader.isDigit_iff.mpr (hwhole.1.2 b (by rw [hdigits]; simp))]
      rfl

theorem mem_starters {b : UInt8} (h : (Reader.isDigit b || b = 0x2d) = true) : b ∈ starters := by
  rw [Bool.or_eq_true, decide_eq_true_eq, Reader.isDigit_iff] at h
  obtain hb | rfl := h
  · obtain ⟨d, hd, rfl⟩ := exists_digitOctet hb
    have hall : ∀ d < 10, digitOctet d ∈ starters := by decide
    exact hall d hd
  · decide

theorem MemberText.head {Name : Bytes → Bytes → Prop} {P : Bytes → Prop} {m : Bytes × Bytes}
    {t : Bytes} (h : MemberText Name P m t) : ∃ b u, t = b :: u ∧ b ∈ starters := by
  obtain ⟨n, a, b, rfl, -⟩ := h
  exact ⟨_, _, rfl, by decide⟩

theorem Shape.head {P : Bytes → Prop} {v : Bytes} (h : Shape P v) :
    ∃ b u, v = b :: u ∧ b ∈ starters := by
  cases h with
  | number hn =>
    obtain ⟨b, u, rfl, hb⟩ := hn.head
    exact ⟨b, u, rfl, mem_starters hb⟩
  | null => exact ⟨_, _, rfl, by decide⟩
  | true => exact ⟨_, _, rfl, by decide⟩
  | false => exact ⟨_, _, rfl, by decide⟩
  | string => exact ⟨_, _, rfl, by decide⟩
  | array => exact ⟨_, _, rfl, by decide⟩
  | object => exact ⟨_, _, rfl, by decide⟩

/-! ## Items -/

section
variable {α σ : Type} {step : σ → α → σ → Prop} {P : α → Bytes → Prop} {as : List α}
  {u rest : Bytes}

/-- The items are taken one after the other, and lead from a state to another. -/
inductive Run (step : σ → α → σ → Prop) : σ → List α → σ → Prop
  | nil (s : σ) : Run step s [] s
  | cons {s s' s'' : σ} {a : α} {as : List α} : step s a s' → Run step s' as s'' →
      Run step s (a :: as) s''

theorem run_cons_iff {s s'' : σ} {a : α} :
    Run step s (a :: as) s'' ↔ ∃ s', step s a s' ∧ Run step s' as s'' := by
  constructor
  · rintro (_ | ⟨hstep, hrun⟩)
    exact ⟨_, hstep, hrun⟩
  · rintro ⟨s', hstep, hrun⟩
    exact .cons hstep hrun

theorem run_nil_iff {s s' : σ} : Run step s [] s' ↔ s' = s := by
  constructor
  · rintro ⟨⟩
    rfl
  · rintro rfl
    exact .nil s'

theorem Joined.length_le (hstart : ∀ a t, P a t → ∃ b t', t = b :: t' ∧ b ∈ starters)
    (h : Joined P as u) : as.length ≤ u.length := by
  induction h with
  | last _ ht _ =>
    obtain ⟨b, t, rfl, -⟩ := hstart _ _ ht
    simp
    omega
  | cons _ _ _ _ ih =>
    simp
    omega

/-- The first item stands after blanks. -/
theorem Joined.start (hstart : ∀ a t, P a t → ∃ b t', t = b :: t' ∧ b ∈ starters)
    (h : Joined P as u) :
    ∃ l b u', u = l ++ b :: u' ∧ Blank l ∧ b ∈ starters ∧ Joined P as (b :: u') := by
  cases h with
  | @last a l t r hl ht hr =>
    obtain ⟨b, t, rfl, hb⟩ := hstart _ _ ht
    exact ⟨l, b, t ++ r, rfl, hl, hb, .last blank_nil ht hr⟩
  | @cons a as l t r u hl ht hr h =>
    obtain ⟨b, t, rfl, hb⟩ := hstart _ _ ht
    exact ⟨l, b, t ++ (r ++ 0x2c :: u), rfl, hl, hb, .cons blank_nil ht hr h⟩

namespace Reader

variable {item : σ → Reader σ} {close : UInt8}

/-- An item up to the mark after it. -/
theorem item_next_eq_ok_iff {β : Type} {a : α} {s : σ} {l t space : Bytes} {b : UInt8}
    {f : σ → UInt8 → Reader β} {x : β} {r : Bytes}
    (hitem : Takes (P a) (item s) fun _ => step s a) (hl : Blank l) (ht : P a t)
    (hspace : Blank space) (hb : b ∈ 0x2c :: closers) :
    (item s >>= fun s' => next >>= f s') (l ++ (t ++ (space ++ b :: rest))) = .ok (x, r) ↔
      ∃ s', step s a s' ∧ f s' b rest = .ok (x, r) := by
  have hmarks : ∀ b ∈ (0x2c :: closers), isBlank b = false ∧ b ∈ followers := by
    simp [closers, followers, isBlank]
  obtain ⟨hblank, hfollow⟩ := hmarks b hb
  have hends : Ends (space ++ b :: rest) := ends_of_blank hspace hfollow
  rw [bind_eq_ok_iff]
  constructor
  · rintro ⟨s', middle, hread, hnext⟩
    obtain ⟨hstep, rfl⟩ := (hitem t ht l _ hl hends s' middle).mp hread
    rw [bind_of_ok (next_of_blank hspace hblank)] at hnext
    exact ⟨s', hstep, hnext⟩
  · rintro ⟨s', hstep, hnext⟩
    refine ⟨s', _, (hitem t ht l _ hl hends s' _).mpr ⟨hstep, rfl⟩, ?_⟩
    rw [bind_of_ok (next_of_blank hspace hblank)]
    exact hnext

theorem itemsFrom_eq_ok_iff (hitem : ∀ s a, Takes (P a) (item s) fun _ => step s a)
    (hclose : close ∈ closers) (h : Joined P as u) {rounds : Nat}
    (hrounds : as.length ≤ rounds) {s s' : σ} {r : Bytes} :
    itemsFrom item close rounds s (u ++ close :: rest) = .ok (s', r) ↔
      Run step s as s' ∧ r = rest := by
  have hcomma : close ≠ 0x2c := by
    rintro rfl
    revert hclose
    decide
  induction h generalizing rounds s with
  | @last a l t space hl ht hspace =>
    obtain ⟨rounds, rfl⟩ := Nat.exists_eq_add_one.mpr hrounds
    simp only [itemsFrom, List.append_assoc]
    rw [item_next_eq_ok_iff (hitem s a) hl ht hspace (List.mem_cons_of_mem _ hclose), run_cons_iff]
    simp only [if_neg hcomma, if_pos, run_nil_iff]
    constructor
    · rintro ⟨s1, hstep, hrest⟩
      cases hrest
      exact ⟨⟨s', hstep, rfl⟩, rfl⟩
    · rintro ⟨⟨s1, hstep, rfl⟩, rfl⟩
      exact ⟨s', hstep, rfl⟩
  | @cons a as l t space u hl ht hspace _ ih =>
    obtain ⟨rounds, rfl⟩ := Nat.exists_eq_add_one.mpr (Nat.zero_lt_of_lt hrounds)
    simp only [itemsFrom, List.append_assoc, List.cons_append]
    rw [item_next_eq_ok_iff (hitem s a) hl ht hspace (by decide), run_cons_iff]
    simp only [if_pos, ih (Nat.le_of_succ_le_succ hrounds)]
    constructor
    · rintro ⟨s1, hstep, hrun, hr⟩
      exact ⟨⟨s1, hstep, hrun⟩, hr⟩
    · rintro ⟨⟨s1, hstep, hrun⟩, hr⟩
      exact ⟨s1, hstep, hrun, hr⟩

/-- Items are read if each can be read where those before it lead. -/
theorem items_eq_ok_iff (hitem : ∀ s a, Takes (P a) (item s) fun _ => step s a)
    (hclose : close ∈ closers)
    (hstart : ∀ a t, P a t → ∃ b t', t = b :: t' ∧ b ∈ starters) (h : Content P as u)
    {s s' : σ} {r : Bytes} :
    items item close s (u ++ close :: rest) = .ok (s', r) ↔ Run step s as s' ∧ r = rest := by
  have hblank : ∀ b ∈ closers, isBlank b = false ∧ b ∉ starters := by
    simp [closers, starters, isBlank]
  unfold items
  cases h with
  | empty hu =>
    rw [bind_of_ok (peek_of_blank hu (hblank close hclose).1), if_pos rfl,
      bind_of_ok (mark_cons (hblank close hclose).1), run_nil_iff]
    constructor
    · rintro ⟨⟩
      exact ⟨rfl, rfl⟩
    · rintro ⟨rfl, rfl⟩
      rfl
  | joined h =>
    obtain ⟨l, b, u, rfl, hl, hb, h⟩ := h.start hstart
    have hlength := h.length_le hstart
    have hclosed : b ≠ close := by
      rintro rfl
      exact (hblank b hclose).2 hb
    rw [List.append_assoc, List.cons_append, bind_of_ok (peek_of_blank hl (starters_apart b hb).1),
      if_neg hclosed]
    have hremaining : remaining (b :: (u ++ close :: rest)) =
        .ok ((b :: (u ++ close :: rest)).length, b :: (u ++ close :: rest)) := rfl
    rw [bind_of_ok hremaining]
    refine itemsFrom_eq_ok_iff hitem hclose h ?_
    simp only [List.length_cons, List.length_append] at hlength ⊢
    omega

end Reader

end

/-! ## Values of any kind -/

namespace Reader

theorem literal_append (t rest : Bytes) : literal t (t ++ rest) = .ok ((), rest) := by
  induction t with
  | nil => rfl
  | cons b t ih => rw [List.cons_append, literal, if_pos rfl, ih]

/-- A value that does not begin like a number. -/
theorem skipNested_of_blank {l rest : Bytes} {b : UInt8} (depth : Nat) (hl : Blank l)
    (hb : isBlank b = false) (hdigit : (isDigit b || b = 0x2d) = false) :
    skipNested (depth + 1) (l ++ b :: rest) =
      (if b = 0x6e then literal [0x75, 0x6c, 0x6c]
      else if b = 0x74 then literal [0x72, 0x75, 0x65]
      else if b = 0x66 then literal [0x61, 0x6c, 0x73, 0x65]
      else if b = 0x22 then do
        let _ ← text false
      else if b = 0x5b then items (fun () => skipNested depth) 0x5d ()
      else if b = 0x7b then items (fun () => skipMember (skipNested depth)) 0x7d ()
      else throw .malformed) rest := by
  rw [skipNested, bind_of_ok (peek_of_blank hl hb), if_neg (by rw [hdigit]; decide),
    bind_of_ok (mark_cons hb)]

theorem takes_unit {P : Bytes → Prop} {read : Reader Unit}
    (h : ∀ v, P v → ∀ l rest, Blank l → Ends rest → read (l ++ (v ++ rest)) = .ok ((), rest)) :
    Takes P read fun _ _ => True := by
  intro v hv l rest hl hrest x r
  rw [h v hv l rest hl hrest]
  constructor
  · rintro ⟨⟩
    exact ⟨trivial, rfl⟩
  · rintro ⟨-, rfl⟩
    rfl

section
variable {Q : Bytes → Prop} {l rest : Bytes}

theorem items_unit {α : Type} {P : α → Bytes → Prop} {as : List α} {u : Bytes} {item : Reader Unit}
    {close : UInt8} (hitem : ∀ a, Takes (P a) item fun _ _ => True)
    (hclose : close ∈ closers)
    (hstart : ∀ a t, P a t → ∃ b t', t = b :: t' ∧ b ∈ starters) (h : Content P as u) :
    items (fun () => item) close () (u ++ close :: rest) = .ok ((), rest) := by
  have hrun : ∀ as : List α, Run (fun _ _ _ => True) () as () := by
    intro as
    induction as with
    | nil => exact .nil ()
    | cons a as ih => exact .cons trivial ih
  exact (items_eq_ok_iff (fun _ => hitem) hclose hstart h).mpr ⟨hrun as, rfl⟩

theorem takes_skipMember {read : Reader Unit} (hread : Takes Q read fun _ _ => True)
    (m : Bytes × Bytes) : Takes (MemberText Verbatim Q m) (skipMember read) fun _ _ => True := by
  refine takes_unit ?_
  rintro v ⟨n, a, b, rfl, ⟨-, hn⟩, ha, hb, hv⟩ l rest hl hrest
  obtain ⟨name, hname⟩ := text_false hn (a ++ 0x3a :: (b ++ (m.2 ++ rest)))
  simp only [List.cons_append, List.append_assoc, skipMember]
  rw [bind_of_ok (mark_of_blank hl (by decide)), bind_of_ok hname,
    bind_of_ok (mark_of_blank ha (by decide))]
  exact (hread m.2 hv b rest hb hrest () rest).mpr ⟨trivial, rfl⟩

theorem takes_skipNested (depth : Nat) :
    Takes (fun v => Value v ∧ v.length < depth) (skipNested depth) fun _ _ => True := by
  induction depth with
  | zero =>
    rintro v ⟨-, hlength⟩
    cases hlength
  | succ depth ih =>
    refine takes_unit ?_
    rintro v ⟨hv, hlength⟩ l rest hl hrest
    have hshape : Shape (fun t => Value t ∧ t.length < depth) v :=
      hv.shape.imp fun t ht hshort => ⟨ht, by omega⟩
    cases hshape with
    | null =>
      rw [List.cons_append, skipNested_of_blank depth hl (by decide) (by decide), if_pos rfl]
      exact literal_append _ rest
    | true =>
      rw [List.cons_append, skipNested_of_blank depth hl (by decide) (by decide),
        if_neg (by decide), if_pos rfl]
      exact literal_append _ rest
    | false =>
      rw [List.cons_append, skipNested_of_blank depth hl (by decide) (by decide),
        if_neg (by decide), if_neg (by decide), if_pos rfl]
      exact literal_append _ rest
    | number hn =>
      obtain ⟨b, u, rfl, hb⟩ := hn.head
      have hread := numeral_of_numberText .malformed hn hrest
      rw [List.cons_append] at hread ⊢
      rw [skipNested, bind_of_ok (peek_of_blank hl (starters_apart b (mem_starters hb)).1),
        if_pos hb, bind_of_ok hread]
      rfl
    | @string t ht =>
      obtain ⟨m, hm⟩ := text_false ht rest
      simp only [List.cons_append, List.append_assoc, List.nil_append]
      rw [skipNested_of_blank depth hl (by decide) (by decide), if_neg (by decide),
        if_neg (by decide), if_neg (by decide), if_pos rfl, bind_of_ok hm]
      rfl
    | @array vs u hu =>
      simp only [List.cons_append, List.append_assoc, List.nil_append]
      rw [skipNested_of_blank depth hl (by decide) (by decide), if_neg (by decide),
        if_neg (by decide), if_neg (by decide), if_neg (by decide), if_pos rfl]
      refine items_unit (fun v => ?_) (by decide) ?_ hu
      · rintro t ⟨rfl, ht⟩
        exact ih t ht
      · rintro v t ⟨rfl, ht, -⟩
        exact ht.shape.head
    | @object ms u hu =>
      simp only [List.cons_append, List.append_assoc, List.nil_append]
      rw [skipNested_of_blank depth hl (by decide) (by decide), if_neg (by decide),
        if_neg (by decide), if_neg (by decide), if_neg (by decide), if_neg (by decide), if_pos rfl]
      exact items_unit (takes_skipMember ih) (by decide) (fun _ _ => MemberText.head) hu

/-- Any value is skipped. -/
theorem takes_skipValue : Takes Value skipValue fun _ _ => True := by
  intro v hv l rest hl hrest x r
  have hread := takes_skipNested ((l ++ (v ++ rest)).length + 1) v
    ⟨hv, by simp only [List.length_append]; omega⟩ l rest hl hrest x r
  exact hread

end

/-- Where another kind of value is expected, nothing is read. -/
theorem unexpected_ne_ok {α : Type} {bytes : Bytes} {p : α × Bytes} :
    (unexpected : Reader α) bytes ≠ .ok p := by
  have hthrow {β : Type} (read : Reader β) (misread : Misread) (bytes : Bytes) :
      (read >>= fun _ => (throw misread : Reader α)) bytes ≠ .ok p := by
    intro h
    obtain ⟨_, _, -, h⟩ := bind_eq_ok_iff.mp h
    cases h
  intro h
  unfold unexpected at h
  obtain ⟨b, bytes, -, h⟩ := bind_eq_ok_iff.mp h
  dsimp only at h
  split at h
  · obtain ⟨n, bytes, -, h⟩ := bind_eq_ok_iff.mp h
    split at h
    · exact hthrow _ _ _ h
    · cases h
  split at h
  · cases h
  obtain ⟨_, bytes, -, h⟩ := bind_eq_ok_iff.mp h
  repeat' split at h
  all_goals exact hthrow _ _ _ h

end Reader

end Watchtower.Json
