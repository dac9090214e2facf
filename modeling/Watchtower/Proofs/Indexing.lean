import Watchtower.Proofs.Positions

/-!
# Claims and claimed blocks are in bijection

Three formulas speak of the blocks of a range: the positions are found by stepping, counted by one
division and numbered by another. `positions_indexed` says that they agree, up to the ends of the
64-bit numbers. Only the range of all 64-bit numbers with stride one has more positions than a
64-bit number can count (`positionCount_lt_size`).
-/

namespace Watchtower.Game.Range

theorem positionCount_lt_size (r : Range)
    (h : ¬ (r.first = 0 ∧ r.last = maxUInt64 ∧ r.stride = 1)) : r.positionCount < UInt64.size := by
  have hle := r.toNat_first_le
  have hlt : r.last.toNat < UInt64.size := r.last.toNat_lt
  have hstride := r.stride_pos
  have hself : (r.last.toNat - r.first.toNat) / r.stride.toNat ≤ r.last.toNat - r.first.toNat :=
    Nat.div_le_self _ _
  rw [positionCount_eq]
  apply Nat.lt_of_le_of_ne (by omega)
  intro hfull
  -- as many positions leave room for no longer stride and no shorter range
  have hone : r.stride.toNat = 1 := by
    have hhalf : r.stride.toNat < 2 ∨ (r.last.toNat - r.first.toNat) / r.stride.toNat ≤
        (r.last.toNat - r.first.toNat) / 2 := by
      rcases Nat.lt_or_ge r.stride.toNat 2 with hsmall | hbig
      · exact .inl hsmall
      · exact .inr (Nat.div_le_div_left hbig (by decide))
    have hsize : UInt64.size = 18446744073709551616 := rfl
    omega
  rw [hone, Nat.div_one] at hfull
  apply h
  refine ⟨UInt64.toNat_inj.mp ?_, UInt64.toNat_inj.mp ?_, UInt64.toNat_inj.mp hone⟩
  · change r.first.toNat = 0
    omega
  · change r.last.toNat = UInt64.size - 1
    omega

theorem getElem?_positions (r : Range) {k : Nat} (h : k < r.positionCount) :
    r.positions[k]? = some (r.block k) := by
  rw [positions_eq_map, List.getElem?_map, List.getElem?_range h]
  rfl

theorem getLast?_positions (r : Range) :
    r.positions.getLast? = some (r.block (r.positionCount - 1)) := by
  have hpos := r.positionCount_pos
  rw [List.getLast?_eq_getElem?, length_positions, r.getElem?_positions (by omega)]

theorem exists_block_of_mem (r : Range) {b : UInt64} (h : b ∈ r.positions) :
    ∃ k < r.positionCount, b = r.block k := by
  rw [positions_eq_map] at h
  obtain ⟨k, hk, rfl⟩ := List.mem_map.mp h
  exact ⟨k, List.mem_range.mp hk, rfl⟩

theorem toNat_indexOf (r : Range) (b : UInt64) :
    (r.indexOf b).toNat = (b.toNat - r.first.toNat) / r.stride.toNat := by
  rw [indexOf, UInt64.toNat_div, toNat_satSub]

theorem indexOf_lt_positionCount (r : Range) {b : UInt64} (h : b ≤ r.last) :
    (r.indexOf b).toNat < r.positionCount := by
  have hb : b.toNat ≤ r.last.toNat := UInt64.le_iff_toNat_le.mp h
  have hdiv : (b.toNat - r.first.toNat) / r.stride.toNat ≤
      (r.last.toNat - r.first.toNat) / r.stride.toNat := Nat.div_le_div_right (by omega)
  rw [toNat_indexOf, positionCount_eq]
  omega

/-- The claim that covers a block is about the block itself or one less than a stride before it. -/
theorem block_indexOf_le (r : Range) {b : UInt64} (hfirst : r.first ≤ b) (hlast : b ≤ r.last) :
    (r.block (r.indexOf b).toNat).toNat ≤ b.toNat ∧
      b.toNat < (r.block (r.indexOf b).toNat).toNat + r.stride.toNat := by
  have hb : r.first.toNat ≤ b.toNat := UInt64.le_iff_toNat_le.mp hfirst
  have hmod := Nat.mod_lt (b.toNat - r.first.toNat) r.stride_pos
  have hsplit := Nat.div_add_mod' (b.toNat - r.first.toNat) r.stride.toNat
  rw [r.toNat_block (r.indexOf_lt_positionCount hlast), toNat_indexOf]
  omega

/-- No position lies between a block and that of the claim that covers it. -/
theorem le_block_indexOf (r : Range) {b q : UInt64} (hfirst : r.first ≤ b) (hlast : b ≤ r.last)
    (hq : q ∈ r.positions) (hle : q ≤ b) : q ≤ r.block (r.indexOf b).toNat := by
  obtain ⟨k, hk, rfl⟩ := r.exists_block_of_mem hq
  have hcover := (r.block_indexOf_le hfirst hlast).2
  have hb : (r.block k).toNat ≤ b.toNat := UInt64.le_iff_toNat_le.mp hle
  rcases Nat.lt_or_ge (r.indexOf b).toNat k with hlt | hge
  · -- the next position is already past the block
    have hmul := Nat.mul_le_mul_right r.stride.toNat hlt
    rw [Nat.succ_mul] at hmul
    rw [r.toNat_block hk] at hb
    rw [r.toNat_block (r.indexOf_lt_positionCount hlast)] at hcover
    omega
  · rcases Nat.eq_or_lt_of_le hge with heq | hlt
    · rw [heq]
      exact UInt64.le_refl _
    · exact UInt64.le_of_lt (r.block_lt_block hlt (r.indexOf_lt_positionCount hlast))

theorem last_lt_block_add (r : Range) : r.last.toNat - (r.block (r.positionCount - 1)).toNat <
    r.stride.toNat ∧ r.block (r.positionCount - 1) ≤ r.last := by
  have hend := r.toNat_endIndex
  have hindex : (r.indexOf r.last).toNat = r.positionCount - 1 := by
    change r.endIndex.toNat = _
    omega
  have hcover := r.block_indexOf_le r.first_le_last (UInt64.le_refl _)
  rw [hindex] at hcover
  exact ⟨by omega, UInt64.le_iff_toNat_le.mpr hcover.1⟩

/-- Stepping comes to an end after all positions and not before. -/
theorem firstPositions_eq_iff (r : Range) (limit : Nat) :
    r.firstPositions limit = r.positions ↔ r.positionCount ≤ limit := by
  rw [firstPositions_eq_take, ← r.length_positions]
  constructor
  · intro h
    have hlength := congrArg List.length h
    rw [List.length_take] at hlength
    omega
  · exact List.take_of_length_le

/-- Of every range but that of all 64-bit numbers with stride one, the positions can be counted in
64 bits; stepping ends after so many of them. They ascend, position `i` is `first + i * stride`
without going around, and the last is less than a stride before the end. The index of position `i`
is `i`, that of any block in the range belongs to the greatest position not past it, and that of the
last block is the greatest index. -/
theorem positions_indexed {first last stride : UInt64} {r : Range}
    (hr : of first last stride = .ok r)
    (hfull : ¬ (first = 0 ∧ last = maxUInt64 ∧ stride = 1)) :
    r.positionCount < UInt64.size ∧ r.positions.length = r.positionCount ∧
      (∀ limit, r.firstPositions limit = r.positions ↔ r.positionCount ≤ limit) ∧
      r.positions.Pairwise (· < ·) ∧
      (∀ i < r.positionCount, ∃ p, r.positions[i]? = some p ∧
        p.toNat = first.toNat + i * stride.toNat ∧ (r.indexOf p).toNat = i) ∧
      (∃ p, r.positions.getLast? = some p ∧ p ≤ last ∧ last.toNat - p.toNat < stride.toNat) ∧
      (∀ b, first ≤ b → b ≤ last → ∃ p, r.positions[(r.indexOf b).toNat]? = some p ∧ p ≤ b ∧
        ∀ q ∈ r.positions, q ≤ b → q ≤ p) ∧
      r.endIndex.toNat + 1 = r.positionCount := by
  obtain ⟨rfl, rfl, rfl⟩ := of_eq_ok_iff.mp hr
  refine ⟨r.positionCount_lt_size hfull, r.length_positions, r.firstPositions_eq_iff,
    r.pairwise_positions, ?_, ?_, ?_, r.toNat_endIndex⟩
  · intro i hi
    exact ⟨r.block i, r.getElem?_positions hi, r.toNat_block hi, r.toNat_indexOf_block hi⟩
  · obtain ⟨hnear, hle⟩ := r.last_lt_block_add
    exact ⟨_, r.getLast?_positions, hle, hnear⟩
  · intro b hfirst hlast
    have hindex := r.indexOf_lt_positionCount hlast
    have hle := UInt64.le_iff_toNat_le.mpr (r.block_indexOf_le hfirst hlast).1
    exact ⟨_, r.getElem?_positions hindex, hle, fun q hq => r.le_block_indexOf hfirst hlast hq⟩

/-- A range that ends at the last 64-bit number, and whose third step would lead beyond it. -/
theorem positions_indexed_sample : ∃ r, of 10 maxUInt64 0x8000000000000000 = .ok r ∧
    r.positions.length = r.positionCount ∧
    ∃ p, r.positions[1]? = some p ∧ p = 0x800000000000000a ∧ (r.indexOf p).toNat = 1 := by
  obtain ⟨r, hr⟩ : ∃ r, of 10 maxUInt64 0x8000000000000000 = .ok r :=
    exists_of (by decide) (by decide)
  have hindexed := positions_indexed hr (by decide)
  obtain ⟨hfirst, hlast, hstride⟩ := of_eq_ok_iff.mp hr
  have hcount : r.positionCount = 2 := by
    rw [positionCount_eq, hfirst, hlast, hstride]
    decide
  obtain ⟨p, hp, hvalue, hback⟩ := hindexed.2.2.2.2.1 1 (by omega)
  exact ⟨r, hr, hindexed.2.1, p, hp, UInt64.toNat_inj.mp hvalue, hback⟩

end Watchtower.Game.Range
