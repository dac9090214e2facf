import Watchtower.Game.Verdict

/-!
# What a commitment to claims says, and where two lists of roots part

* `NoCollision a b` : the hash does not confuse the byte strings `a` and `b`. A commitment then
  fixes the claims, since the octets of a list of roots fix the list (`claimsHash_eq_iff`);
* `Parts a b k` : `k` is the first place where the lists `a` and `b` differ;
* `locateDivergence_eq_ok_iff`, `locateDivergence_of_ne` : that place is located exactly if the
  lists have one length, and it is whenever they do and differ.
-/

namespace Watchtower

/-- The two byte strings are no collision of the hash. -/
def NoCollision (a b : Bytes) : Prop := keccak256 a = keccak256 b → a = b

namespace Game

theorem flatMap_bytes_inj {a b : List Hash} (h : a.flatMap Hash.bytes = b.flatMap Hash.bytes) :
    a = b := by
  induction a generalizing b with
  | nil =>
    cases b with
    | nil => rfl
    | cons y b =>
      have hlen := congrArg List.length h
      simp [List.flatMap_cons, y.size] at hlen
      omega
  | cons x a ih =>
    cases b with
    | nil =>
      have hlen := congrArg List.length h
      simp [List.flatMap_cons, x.size] at hlen
    | cons y b =>
      rw [List.flatMap_cons, List.flatMap_cons] at h
      obtain ⟨hx, ha⟩ := List.append_inj h (by rw [x.size, y.size])
      rw [Hash.ext hx, ih ha]

theorem claimsHash_eq_iff {a b : List Hash}
    (h : NoCollision (a.flatMap Hash.bytes) (b.flatMap Hash.bytes)) :
    claimsHash a = claimsHash b ↔ a = b := by
  constructor
  · intro he
    exact flatMap_bytes_inj (h he)
  · rintro rfl
    rfl

/-- Commitments with different first octets are no collision. -/
theorem noCollision_of_head_ne {a b : List Hash}
    (h : (claimsHash a).bytes.head? ≠ (claimsHash b).bytes.head?) :
    NoCollision (a.flatMap Hash.bytes) (b.flatMap Hash.bytes) :=
  fun he => absurd (congrArg (fun hash : Hash => hash.bytes.head?) he) h

/-! ## The first difference -/

/-- The lists differ at `k`, and nowhere before. -/
def Parts (a b : List Hash) (k : Nat) : Prop := a[k]? ≠ b[k]? ∧ ∀ j < k, a[j]? = b[j]?

theorem parts_cons_zero {x y : Hash} (a b : List Hash) (h : x ≠ y) : Parts (x :: a) (y :: b) 0 :=
  ⟨by simpa using h, fun j hj => absurd hj (Nat.not_lt_zero j)⟩

theorem parts_cons_succ_iff (x : Hash) (a b : List Hash) (k : Nat) :
    Parts (x :: a) (x :: b) (k + 1) ↔ Parts a b k := by
  simp only [Parts, List.getElem?_cons_succ]
  refine and_congr_right fun _ => ⟨fun h j hj => ?_, fun h j hj => ?_⟩
  · simpa using h (j + 1) (by omega)
  · cases j with
    | zero => rfl
    | succ j => simpa using h j (by omega)

theorem Parts.unique {a b : List Hash} {j k : Nat} (hj : Parts a b j) (hk : Parts a b k) :
    j = k := by
  rcases Nat.lt_trichotomy j k with h | h | h
  · exact absurd (hk.2 j h) hj.1
  · exact h
  · exact absurd (hj.2 k h) hk.1

theorem parts_of_firstDivergence? {a b : List Hash} {k : Fin a.length}
    (h : firstDivergence? a b = some k) : Parts a b k := by
  induction a generalizing b with
  | nil => exact k.elim0
  | cons x a ih =>
    cases b with
    | nil => simp [firstDivergence?] at h
    | cons y b =>
      rw [firstDivergence?] at h
      split at h
      · next hxy =>
        subst hxy
        obtain ⟨j, hj, rfl⟩ := Option.map_eq_some_iff.mp h
        exact (parts_cons_succ_iff x a b j).mpr (ih hj)
      · next hxy =>
        obtain rfl := Option.some.inj h
        exact parts_cons_zero a b hxy

theorem firstDivergence?_eq_none_iff {a b : List Hash} (hlen : a.length = b.length) :
    firstDivergence? a b = none ↔ a = b := by
  induction a generalizing b with
  | nil =>
    cases b with
    | nil => simp [firstDivergence?]
    | cons y b => simp at hlen
  | cons x a ih =>
    cases b with
    | nil => simp at hlen
    | cons y b =>
      rw [firstDivergence?]
      split
      · next hxy => simp [hxy, ih (Nat.succ.inj hlen)]
      · next hxy => simp [hxy]

theorem locateDivergence_eq_ok_iff {a b : List Hash} {k : Fin a.length} :
    locateDivergence a b = .ok k ↔ a.length = b.length ∧ Parts a b k := by
  unfold locateDivergence
  by_cases hlen : a.length = b.length
  · rw [if_neg (not_not_intro hlen)]
    cases hd : firstDivergence? a b with
    | none =>
      have hab := (firstDivergence?_eq_none_iff hlen).mp hd
      exact ⟨fun h => (by cases h), fun h => absurd (congrArg (·[k.val]?) hab) h.2.1⟩
    | some j =>
      have hj := parts_of_firstDivergence? hd
      refine ⟨fun h => ?_, fun h => congrArg _ (Fin.ext (hj.unique h.2))⟩
      obtain rfl := Except.ok.inj h
      exact ⟨hlen, hj⟩
  · rw [if_pos hlen]
    exact ⟨fun h => (by cases h), fun h => absurd h.1 hlen⟩

/-- Lists of different length are not compared root by root. -/
theorem locateDivergence_of_length_ne {a b : List Hash} (h : a.length ≠ b.length) :
    locateDivergence a b = .error (Cause.claimCount a.length b.length) := by
  unfold locateDivergence
  rw [if_pos h]

theorem locateDivergence_of_ne {a b : List Hash} (hlen : a.length = b.length) (hne : a ≠ b) :
    ∃ k, locateDivergence a b = .ok k := by
  unfold locateDivergence
  rw [if_neg (not_not_intro hlen)]
  cases hd : firstDivergence? a b with
  | none => exact absurd ((firstDivergence?_eq_none_iff hlen).mp hd) hne
  | some k => exact ⟨k, rfl⟩

end Game

end Watchtower
