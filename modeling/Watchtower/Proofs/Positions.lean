import Watchtower.Game.Range

/-!
# The claimed blocks in closed form

Claim `k` of a range is about `r.block k`, block `first + k * stride`; the positions found by
stepping are those blocks for `k` below the position count (`positions_eq_map`), none of them beyond
64 bits (`toNat_block`) and each above the one before (`pairwise_positions`). `indexOf` finds `k`
again (`toNat_indexOf_block`). Three numbers are those of the range made of them
(`of_eq_ok_iff`). The last block is itself a position exactly if the stride divides the
length of the range, `r.Aligned` (`last_mem_positions_iff`).
-/

namespace Watchtower.Game.Range

/-- The block that claim `k` is about. -/
def block (r : Range) (k : Nat) : UInt64 := UInt64.ofNat (r.first.toNat + k * r.stride.toNat)

/-- The last block is a position. -/
def Aligned (r : Range) : Prop := r.stride.toNat ∣ r.last.toNat - r.first.toNat

instance (r : Range) : Decidable r.Aligned :=
  inferInstanceAs (Decidable (r.stride.toNat ∣ r.last.toNat - r.first.toNat))

/-- The same blocks, with the stride of another range. -/
def steppedAs (r other : Range) : Range :=
  { r with stride := other.stride, stride_ne_zero := other.stride_ne_zero }

theorem of_eq_ok_iff {first last stride : UInt64} {r : Range} :
    of first last stride = .ok r ↔ r.first = first ∧ r.last = last ∧ r.stride = stride := by
  unfold of
  constructor
  · intro h
    split at h
    · cases h
    · split at h
      · cases h
      · obtain rfl := Except.ok.inj h
        exact ⟨rfl, rfl, rfl⟩
  · rintro ⟨rfl, rfl, rfl⟩
    rw [dif_neg r.stride_ne_zero, dif_neg (UInt64.not_lt.mpr r.first_le_last)]

theorem exists_of {first last stride : UInt64} (hle : first ≤ last) (hstride : stride ≠ 0) :
    ∃ r, of first last stride = .ok r :=
  ⟨⟨first, last, stride, hle, hstride⟩, of_eq_ok_iff.mpr ⟨rfl, rfl, rfl⟩⟩

theorem steppedAs_of_stride_eq {r other : Range} (h : other.stride = r.stride) :
    r.steppedAs other = r := by
  simp only [steppedAs, h]

theorem toNat_first_le (r : Range) : r.first.toNat ≤ r.last.toNat :=
  UInt64.le_iff_toNat_le.mp r.first_le_last

theorem positionCount_eq (r : Range) :
    r.positionCount = (r.last.toNat - r.first.toNat) / r.stride.toNat + 1 := by
  unfold positionCount
  rw [UInt64.toNat_div, UInt64.toNat_sub_of_le _ _ r.first_le_last]

theorem positionCount_pos (r : Range) : 0 < r.positionCount := Nat.succ_pos _

theorem lt_positionCount_iff (r : Range) (k : Nat) :
    k < r.positionCount ↔ r.first.toNat + k * r.stride.toNat ≤ r.last.toNat := by
  have hle := r.toNat_first_le
  rw [positionCount_eq, Nat.lt_succ_iff, Nat.le_div_iff_mul_le r.stride_pos]
  omega

theorem toNat_block (r : Range) {k : Nat} (h : k < r.positionCount) :
    (r.block k).toNat = r.first.toNat + k * r.stride.toNat := by
  have hle := (r.lt_positionCount_iff k).mp h
  have hlt := r.last.toNat_lt
  rw [block, UInt64.toNat_ofNat', Nat.mod_eq_of_lt (by omega)]

theorem block_zero (r : Range) : r.block 0 = r.first := by simp [block]

theorem block_add_stride (r : Range) (k : Nat) : r.block k + r.stride = r.block (k + 1) := by
  apply UInt64.toNat_inj.mp
  simp only [block, UInt64.toNat_add, UInt64.toNat_ofNat', Nat.mod_add_mod]
  rw [Nat.add_mul, Nat.one_mul, Nat.add_assoc]

/-- From claim `k` on, `n + 1` claims before the end: the induction is on how many are left. -/
theorem positionsFrom_block (r : Range) (n k : Nat) (h : k + n + 1 = r.positionCount) :
    r.positionsFrom (r.block k) = (List.range' k (n + 1)).map r.block := by
  have hk := r.toNat_block (k := k) (by omega)
  have hnext := r.lt_positionCount_iff (k + 1)
  rw [Nat.add_mul, Nat.one_mul] at hnext
  induction n generalizing k with
  | zero =>
    rw [positionsFrom, if_neg (by omega)]
    rfl
  | succ n ih =>
    rw [positionsFrom, if_pos (by omega), block_add_stride, List.range'_succ, List.map_cons]
    refine congrArg _ (ih (k + 1) (by omega) (r.toNat_block (by omega)) ?_)
    rw [lt_positionCount_iff, Nat.succ_mul (k + 1)]

theorem positions_eq_map (r : Range) : r.positions = (List.range r.positionCount).map r.block := by
  have hpos := r.positionCount_pos
  have h := r.positionsFrom_block (r.positionCount - 1) 0 (by omega)
  rw [block_zero, Nat.sub_add_cancel hpos, ← List.range_eq_range'] at h
  exact h

@[simp] theorem length_positions (r : Range) : r.positions.length = r.positionCount := by
  rw [positions_eq_map, List.length_map, List.length_range]

theorem block_lt_block (r : Range) {j k : Nat} (h : j < k) (hk : k < r.positionCount) :
    r.block j < r.block k := by
  rw [UInt64.lt_iff_toNat_lt, r.toNat_block (by omega), r.toNat_block hk]
  have hm := Nat.mul_lt_mul_of_pos_right h r.stride_pos
  omega

theorem pairwise_positions (r : Range) : r.positions.Pairwise (· < ·) := by
  rw [positions_eq_map, List.pairwise_map, List.pairwise_iff_getElem]
  intro i j hi hj hij
  rw [List.length_range] at hj
  simpa using r.block_lt_block hij hj

theorem nodup_positions (r : Range) : r.positions.Nodup :=
  r.pairwise_positions.imp fun h => UInt64.ne_of_lt h

theorem toNat_indexOf_block (r : Range) {k : Nat} (h : k < r.positionCount) :
    (r.indexOf (r.block k)).toNat = k := by
  rw [indexOf, UInt64.toNat_div, toNat_satSub, r.toNat_block h, Nat.add_sub_cancel_left,
    Nat.mul_div_cancel _ r.stride_pos]

theorem toNat_endIndex (r : Range) : r.endIndex.toNat + 1 = r.positionCount := by
  rw [endIndex, indexOf, UInt64.toNat_div, toNat_satSub, positionCount_eq]

theorem block_endIndex (r : Range) (h : r.Aligned) : r.block r.endIndex.toNat = r.last := by
  have hle := r.toNat_first_le
  have hend := r.toNat_endIndex
  apply UInt64.toNat_inj.mp
  rw [positionCount_eq] at hend
  rw [r.toNat_block (by rw [positionCount_eq]; omega), Nat.add_right_cancel hend,
    Nat.div_mul_cancel h]
  omega

theorem last_mem_positions_iff (r : Range) : r.last ∈ r.positions ↔ r.Aligned := by
  have hend := r.toNat_endIndex
  constructor
  · intro h
    rw [positions_eq_map, List.mem_map] at h
    obtain ⟨k, hk, hb⟩ := h
    rw [List.mem_range] at hk
    have hn := r.toNat_block hk
    rw [hb] at hn
    exact ⟨k, by rw [hn, Nat.add_sub_cancel_left, Nat.mul_comm]⟩
  · intro h
    rw [positions_eq_map, List.mem_map]
    exact ⟨r.endIndex.toNat, List.mem_range.mpr (by omega), r.block_endIndex h⟩

end Watchtower.Game.Range
