import FakeQuant.Affine
import FakeQuant.Proofs.FiniteArithmetic

/-!
# Codes and grids

The bounds of a grid are finite numbers in order (`Grid.least_le_greatest`). So a code that is a
number lies below the least code, inside the grid, or above the greatest code, and exactly one of
the three (`Grid.cases_code`); `Grid.clamp` and `Grid.contains` say which. A bound of up to 24 bits
is the integer itself; a wider one is rounded, so two bounds of a grid can be the same number.
-/

namespace FakeQuant

open Binary

/-- Every 32-bit integer is a finite number, and no larger than the power of two behind it. -/
theorem ofInt_int32 (z : Int32) :
    (Binary.ofInt z.toInt : Single).isFinite = true ∧
      (Binary.ofInt z.toInt : Single).value = rounded .single z.toInt ∧
      |(Binary.ofInt z.toInt : Single).value| ≤ 2 ^ 31 := by
  have hle := Int32.le_toInt z
  have hlt := Int32.toInt_lt z
  have hbound : |((z.toInt : Int) : Rat)| ≤ (2 : Rat) ^ (31 : Int) := by
    rw [abs_le]
    constructor
    · exact_mod_cast hle
    · exact_mod_cast hlt.le
  have hmin : Format.single.minExponent ≤ 31 := by decide
  obtain ⟨hfinite, hvalue⟩ := ofRat_of_abs_le (f := .single) false hmin (by decide) hbound
  refine ⟨hfinite, hvalue, ?_⟩
  rw [Binary.ofInt, hvalue]
  exact_mod_cast abs_rounded_le hmin hbound

/-- One half is a number of the format. -/
theorem half_single : (ofRat false (1 / 2) : Single).isFinite = true ∧
    (ofRat false (1 / 2) : Single).value = 1 / 2 := by
  decide +kernel

/-- A result that exceeds the largest numbers by no more than a number of 32 bits is finite: 32 bits
are less than half a unit of the largest numbers. -/
theorem isFinite_ofRat_of_abs_le (negative : Bool) {q : Rat}
    (h : |q| ≤ (Format.single.limit - 1) * (2 : Rat) ^ Format.single.maxExponent + 2 ^ 31) :
    (ofRat negative q : Single).isFinite = true := by
  refine (isFinite_ofRat_iff _).2 (h.trans_lt ?_)
  rw [limit_single, maxExponent_single]
  norm_num

/-- The difference of a number of 32 bits and any finite number is finite. -/
theorem isFinite_sub_of_abs_le {a b : Single} (ha : a.isFinite = true) (hb : b.isFinite = true)
    (ha' : |a.value| ≤ 2 ^ 31) : (a - b).isFinite = true := by
  rw [sub_of_finite ha hb]
  apply isFinite_ofRat_of_abs_le
  calc |a.value - b.value| ≤ |a.value| + |b.value| := abs_sub _ _
    _ ≤ 2 ^ 31 + _ := add_le_add ha' (abs_value_le b)
    _ = _ := add_comm _ _

namespace Grid

variable (g : Grid) {code : Single}

theorem isFinite_least : g.least.isFinite = true :=
  (ofInt_int32 g.low).1

theorem isFinite_greatest : g.greatest.isFinite = true :=
  (ofInt_int32 g.high).1

/-- The bounds are in order. Wide bounds are rounded, so they can be the same number. -/
theorem least_le_greatest : g.least ≤ g.greatest := by
  rw [le_iff_value g.isFinite_least g.isFinite_greatest, least, greatest, (ofInt_int32 g.low).2.1,
    (ofInt_int32 g.high).2.1]
  apply rounded_mono
  exact_mod_cast (Int32.lt_iff_toInt_lt.1 g.low_lt_high).le

theorem contains_iff : g.contains code = true ↔ g.least ≤ code ∧ code ≤ g.greatest := by
  rw [contains, Bool.and_eq_true, decide_eq_true_iff, decide_eq_true_iff]

/-- A code that is a number lies below the grid, inside it or above it. -/
theorem cases_code (hcode : code.isNaN = false) :
    code < g.least ∨ g.contains code = true ∨ g.greatest < code := by
  rcases Binary.lt_or_le hcode (isNaN_of_isFinite g.isFinite_least) with hlt | hle
  · exact .inl hlt
  · rcases Binary.lt_or_le (isNaN_of_isFinite g.isFinite_greatest) hcode with hlt | hle'
    · exact .inr (.inr hlt)
    · exact .inr (.inl (g.contains_iff.2 ⟨hle, hle'⟩))

/-- A code below the grid is not inside it. -/
theorem contains_of_lt (h : code < g.least) : g.contains code = false := by
  rw [Bool.eq_false_iff]
  intro hin
  exact Binary.not_lt_of_le (g.contains_iff.1 hin).1 h

theorem contains_of_gt (h : g.greatest < code) : g.contains code = false := by
  rw [Bool.eq_false_iff]
  intro hin
  exact Binary.not_lt_of_le (g.contains_iff.1 hin).2 h

theorem clamp_of_lt (h : code < g.least) : g.clamp code = g.least :=
  if_pos h

theorem clamp_of_contains (h : g.contains code = true) : g.clamp code = code := by
  obtain ⟨hle, hle'⟩ := g.contains_iff.1 h
  rw [clamp, if_neg (Binary.not_lt_of_le hle), if_neg (Binary.not_lt_of_le hle')]

theorem clamp_of_gt (h : g.greatest < code) : g.clamp code = g.greatest := by
  have hlt : g.least < code := Binary.lt_of_le_of_lt g.least_le_greatest h
  rw [clamp, if_neg (Binary.not_lt_of_lt hlt), if_pos h]

theorem isFinite_of_contains (h : g.contains code = true) : code.isFinite = true := by
  obtain ⟨hle, hle'⟩ := g.contains_iff.1 h
  exact isFinite_of_le_of_le g.isFinite_least g.isFinite_greatest hle hle'

/-- A number that is moved into the grid is a finite number between the bounds. -/
theorem clamp_between (hcode : code.isNaN = false) :
    (g.clamp code).isFinite = true ∧ g.least.value ≤ (g.clamp code).value ∧
      (g.clamp code).value ≤ g.greatest.value := by
  have hle := (le_iff_value g.isFinite_least g.isFinite_greatest).1 g.least_le_greatest
  rcases g.cases_code hcode with hlt | hin | hgt
  · rw [g.clamp_of_lt hlt]
    exact ⟨g.isFinite_least, le_rfl, hle⟩
  · have hfinite := g.isFinite_of_contains hin
    obtain ⟨hlow, hhigh⟩ := g.contains_iff.1 hin
    rw [g.clamp_of_contains hin]
    exact ⟨hfinite, (le_iff_value g.isFinite_least hfinite).1 hlow,
      (le_iff_value hfinite g.isFinite_greatest).1 hhigh⟩
  · rw [g.clamp_of_gt hgt]
    exact ⟨g.isFinite_greatest, hle, le_rfl⟩

theorem least_le_clamp (hcode : code.isNaN = false) : g.least ≤ g.clamp code := by
  obtain ⟨hfinite, hlow, -⟩ := g.clamp_between hcode
  exact (le_iff_value g.isFinite_least hfinite).2 hlow

theorem clamp_le_greatest (hcode : code.isNaN = false) : g.clamp code ≤ g.greatest := by
  obtain ⟨hfinite, -, hhigh⟩ := g.clamp_between hcode
  exact (le_iff_value hfinite g.isFinite_greatest).2 hhigh

theorem abs_least_le : |g.least.value| ≤ 2 ^ 31 :=
  (ofInt_int32 g.low).2.2

theorem abs_greatest_le : |g.greatest.value| ≤ 2 ^ 31 :=
  (ofInt_int32 g.high).2.2

/-- A number that has been moved into the grid has 32 bits, as the bounds have. -/
theorem abs_clamp_le (hcode : code.isNaN = false) : |(g.clamp code).value| ≤ 2 ^ 31 := by
  obtain ⟨-, hlow, hhigh⟩ := g.clamp_between hcode
  rw [abs_le]
  exact ⟨(abs_le.1 g.abs_least_le).1.trans hlow, hhigh.trans (abs_le.1 g.abs_greatest_le).2⟩

theorem isNaN_roundedZeroPoint {zeroPoint : Single} (h : zeroPoint.isNaN = false) :
    (zeroPoint + Binary.ofRat false (1 / 2)).floor.isNaN = false := by
  rw [isNaN_floor, isNaN_add _ half_single.1, h]

/-- The zero point that is applied for a number is finite. -/
theorem isFinite_effectiveZeroPoint {zeroPoint : Single} (h : zeroPoint.isNaN = false) :
    (g.effectiveZeroPoint zeroPoint).isFinite = true :=
  (g.clamp_between (isNaN_roundedZeroPoint h)).1

theorem abs_effectiveZeroPoint_le {zeroPoint : Single} (h : zeroPoint.isNaN = false) :
    |(g.effectiveZeroPoint zeroPoint).value| ≤ 2 ^ 31 :=
  g.abs_clamp_le (isNaN_roundedZeroPoint h)

theorem isFinite_least_sub {zeroPoint : Single} (h : zeroPoint.isFinite = true) :
    (g.least - zeroPoint).isFinite = true :=
  isFinite_sub_of_abs_le g.isFinite_least h g.abs_least_le

theorem isFinite_greatest_sub {zeroPoint : Single} (h : zeroPoint.isFinite = true) :
    (g.greatest - zeroPoint).isFinite = true :=
  isFinite_sub_of_abs_le g.isFinite_greatest h g.abs_greatest_le

end Grid

/-- The code of a finite number is a number. -/
theorem isNaN_quantizeValue {x inverse zeroPoint : Single} (hx : x.isFinite = true)
    (hinverse : inverse.isFinite = true) (hzero : zeroPoint.isFinite = true) :
    (quantizeValue x inverse zeroPoint).isNaN = false := by
  rw [quantizeValue, isNaN_roundEven, isNaN_add _ hzero, mul_of_finite hx hinverse]
  exact isNaN_ofRat _ _

end FakeQuant
