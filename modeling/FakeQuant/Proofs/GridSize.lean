import FakeQuant.Proofs.Clamping
import FakeQuant.Proofs.Construction
import Mathlib.Data.Int.Interval
import Mathlib.Data.Nat.Log
import Mathlib.SetTheory.Cardinal.Finite

/-!
# How many codes a grid has

The number of codes is computed in words of 64 bits. The bounds have 32 bits, so neither their
distance nor the number behind it overflows, and the number is positive when its sign is dropped
(`Grid.toNat_levels`): it is the number of integers between the bounds (`Grid.card_mem`). There
are two codes at least and `2 ^ 32` at most, so the whole bits that they fill are the logarithm of a
positive number (`Grid.bitwidth_eq`). A grid of all numbers of some width has that width.
-/

namespace FakeQuant

namespace Grid

variable (g : Grid)

/-! ### In words of 64 bits -/

/-- The distance of the bounds has 33 bits. -/
theorem not_ssubOverflow_bounds :
    ¬ g.high.toInt64.toBitVec.ssubOverflow g.low.toInt64.toBitVec = true := by
  have hlow := Int32.le_toInt g.low
  have hlow' := Int32.toInt_lt g.low
  have hhigh := Int32.le_toInt g.high
  have hhigh' := Int32.toInt_lt g.high
  simp only [BitVec.ssubOverflow, Int64.toInt_toBitVec, Int32.toInt_toInt64, Bool.or_eq_true,
    decide_eq_true_eq]
  omega

theorem toInt_distance :
    (g.high.toInt64 - g.low.toInt64).toInt = g.high.toInt - g.low.toInt := by
  have hsub := BitVec.toInt_sub_of_not_ssubOverflow g.not_ssubOverflow_bounds
  rwa [← Int64.toBitVec_sub, Int64.toInt_toBitVec, Int64.toInt_toBitVec, Int64.toInt_toBitVec,
    Int32.toInt_toInt64, Int32.toInt_toInt64] at hsub

/-- There is room for one more than the distance. -/
theorem not_saddOverflow_distance :
    ¬ (g.high.toInt64 - g.low.toInt64).toBitVec.saddOverflow (1 : Int64).toBitVec = true := by
  have hlow := Int32.le_toInt g.low
  have hlow' := Int32.toInt_lt g.low
  have hhigh := Int32.le_toInt g.high
  have hhigh' := Int32.toInt_lt g.high
  simp only [BitVec.saddOverflow, Int64.toInt_toBitVec, toInt_distance, Int64.toInt_one,
    Bool.or_eq_true, decide_eq_true_eq]
  omega

theorem toInt_number :
    (g.high.toInt64 - g.low.toInt64 + 1).toInt = g.high.toInt - g.low.toInt + 1 := by
  have hadd := BitVec.toInt_add_of_not_saddOverflow g.not_saddOverflow_distance
  rwa [← Int64.toBitVec_add, Int64.toInt_toBitVec, Int64.toInt_toBitVec, Int64.toInt_toBitVec,
    Int64.toInt_one, toInt_distance] at hadd

/-- The number of codes is positive, so it is the same number without a sign. -/
theorem toNat_levels : (g.levels.toNat : Int) = g.high.toInt - g.low.toInt + 1 := by
  have hlt := Int32.lt_iff_toInt_lt.1 g.low_lt_high
  have hnonneg : 0 ≤ g.high.toInt64 - g.low.toInt64 + 1 := by
    rw [Int64.le_iff_toInt_le, toInt_number, Int64.toInt_zero]
    omega
  have hcast : g.levels.toNat = (g.high.toInt64 - g.low.toInt64 + 1).toInt.toNat :=
    Int64.toNat_toUInt64_of_le hnonneg
  rw [hcast, toInt_number]
  omega

theorem two_le_levels : 2 ≤ g.levels.toNat := by
  have hlt := Int32.lt_iff_toInt_lt.1 g.low_lt_high
  have hlevels := g.toNat_levels
  omega

theorem levels_le : g.levels.toNat ≤ 2 ^ 32 := by
  have hlow := Int32.le_toInt g.low
  have hhigh := Int32.toInt_lt g.high
  have hlevels := g.toNat_levels
  omega

/-- The number of codes is that of the integers in the grid. -/
theorem card_mem : Nat.card {k : Int // k ∈ g} = g.levels.toNat := by
  have hmem (k : Int) : k ∈ Finset.Icc g.low.toInt g.high.toInt ↔ k ∈ g := Finset.mem_Icc
  have hlevels := g.toNat_levels
  rw [Nat.subtype_card _ hmem, Int.card_Icc]
  omega

/-! ### Whole bits -/

theorem two_pow_bitwidth_le : 2 ^ g.bitwidth ≤ g.levels.toNat := by
  have hpos := g.two_le_levels
  exact Nat.log2_self_le (by omega)

theorem levels_lt_two_pow : g.levels.toNat < 2 ^ (g.bitwidth + 1) :=
  Nat.lt_log2_self

variable {g} {outer : Grid}

/-- A grid inside another one has no more codes. -/
theorem levels_mono (hlow : outer.low ≤ g.low) (hhigh : g.high ≤ outer.high) :
    g.levels.toNat ≤ outer.levels.toNat := by
  have hlow' := Int32.le_iff_toInt_le.1 hlow
  have hhigh' := Int32.le_iff_toInt_le.1 hhigh
  have hlevels := g.toNat_levels
  have houter := outer.toNat_levels
  omega

theorem bitwidth_mono (hlow : outer.low ≤ g.low) (hhigh : g.high ≤ outer.high) :
    g.bitwidth ≤ outer.bitwidth := by
  rw [bitwidth, bitwidth, Nat.log2_eq_log_two, Nat.log2_eq_log_two]
  exact Nat.log_mono_right (levels_mono hlow hhigh)

/-- A grid with `2 ^ bits` codes fills so many bits. -/
theorem bitwidth_of_levels {bits : Nat} (h : g.levels.toNat = 2 ^ bits) : g.bitwidth = bits := by
  rw [bitwidth, h, Nat.log2_two_pow]

/-! ### Grids of all numbers of a width -/

theorem levels_unsigned {bits : Nat} (h : unsigned bits = .ok g) : g.levels.toNat = 2 ^ bits := by
  unfold unsigned at h
  split at h
  · cases h
  · next hbits =>
    obtain ⟨hlow, hhigh⟩ := ofBounds_eq_ok.1 h
    have hone : 1 ≤ 2 ^ bits := Nat.one_le_two_pow
    have hle : 2 ^ bits ≤ 2 ^ 31 := Nat.pow_le_pow_right (by decide) (by omega)
    have hlevels := g.toNat_levels
    rw [hlow, hhigh, Int32.toInt_zero, Nat.pow_eq, Int32.toInt_ofNat_of_lt (by omega)] at hlevels
    omega

theorem levels_signed {bits : Nat} (h : signed bits = .ok g) : g.levels.toNat = 2 ^ bits := by
  unfold signed at h
  split at h
  · cases h
  · next hbits =>
    obtain ⟨hlow, hhigh⟩ := ofBounds_eq_ok.1 h
    have hone : 1 ≤ 2 ^ (bits - 1) := Nat.one_le_two_pow
    have hle : 2 ^ (bits - 1) ≤ 2 ^ 31 := Nat.pow_le_pow_right (by decide) (by omega)
    have hdouble : 2 ^ bits = 2 * 2 ^ (bits - 1) := by
      rw [← Nat.pow_succ', Nat.succ_eq_add_one, Nat.sub_add_cancel (by omega)]
    have hlevels := g.toNat_levels
    rw [hlow, hhigh, Nat.pow_eq, Int32.toInt_ofInt_of_le (by omega) (by omega),
      Int32.toInt_ofInt_of_le (by omega) (by omega)] at hlevels
    omega

/-- **The size of a grid is exact**, however wide the grid is. The difference and the sum behind it
do not overflow 64 bits, and the number keeps its value when its sign is dropped: it is
`high - low + 1`, between two and `2 ^ 32`, and the number of integers in the grid. The bits are the
logarithm of a number that is not zero. A grid inside another one has no more codes and bits, and
the grid of all numbers of some width has exactly that many bits. -/
theorem grid_size_exact (g : Grid) :
    g.high.toInt64.toBitVec.ssubOverflow g.low.toInt64.toBitVec = false ∧
    (g.high.toInt64 - g.low.toInt64).toBitVec.saddOverflow (1 : Int64).toBitVec = false ∧
    (g.levels.toNat : Int) = (g.high.toInt64 - g.low.toInt64 + 1).toInt ∧
    (g.levels.toNat : Int) = g.high.toInt - g.low.toInt + 1 ∧
    2 ≤ g.levels.toNat ∧ g.levels.toNat ≤ 2 ^ 32 ∧
    g.levels.toNat = Nat.card {k : Int // k ∈ g} ∧
    g.levels ≠ 0 ∧ 2 ^ g.bitwidth ≤ g.levels.toNat ∧ g.levels.toNat < 2 ^ (g.bitwidth + 1) ∧
    (∀ outer : Grid, outer.low ≤ g.low → g.high ≤ outer.high →
      g.levels ≤ outer.levels ∧ g.bitwidth ≤ outer.bitwidth) ∧
    ∀ bits, unsigned bits = .ok g ∨ signed bits = .ok g →
      g.levels.toNat = 2 ^ bits ∧ g.bitwidth = bits := by
  refine ⟨Bool.eq_false_iff.2 g.not_ssubOverflow_bounds,
    Bool.eq_false_iff.2 g.not_saddOverflow_distance, ?_, g.toNat_levels, g.two_le_levels,
    g.levels_le, g.card_mem.symm, ?_, g.two_pow_bitwidth_le, g.levels_lt_two_pow, ?_, ?_⟩
  · rw [g.toNat_levels, g.toInt_number]
  · intro hzero
    have htwo := g.two_le_levels
    rw [hzero] at htwo
    exact absurd htwo (by decide)
  · intro outer hlow hhigh
    exact ⟨UInt64.le_iff_toNat_le.2 (levels_mono hlow hhigh), bitwidth_mono hlow hhigh⟩
  · intro bits h
    have hlevels : g.levels.toNat = 2 ^ bits := h.elim levels_unsigned levels_signed
    exact ⟨hlevels, bitwidth_of_levels hlevels⟩

/-- The signed bytes among all 32-bit codes. -/
theorem grid_size_exact_of_signed_bytes :
    let bytes : Grid := ⟨-128, 127, by decide⟩
    let widest : Grid := ⟨Int32.minValue, Int32.maxValue, by decide⟩
    (widest.low ≤ bytes.low ∧ bytes.high ≤ widest.high ∧ signed 8 = .ok bytes) ∧
      (bytes.levels ≤ widest.levels ∧ bytes.bitwidth ≤ widest.bitwidth) ∧
        bytes.levels.toNat = 2 ^ 8 ∧ bytes.bitwidth = 8 := by
  intro bytes widest
  have hbytes : signed 8 = .ok bytes := by rfl
  obtain ⟨-, -, -, -, -, -, -, -, -, -, hnested, hwidth⟩ := grid_size_exact bytes
  exact ⟨⟨by decide, by decide, hbytes⟩, hnested widest (by decide) (by decide),
    hwidth 8 (.inr hbytes)⟩

/-- All 32-bit codes: their number does not fit into 32 bits. -/
example : (⟨Int32.minValue, Int32.maxValue, by decide⟩ : Grid).levels = 4294967296 := by
  decide

end Grid

end FakeQuant
