import FakeQuant.Proofs.GridCodes
import FakeQuant.Proofs.Integers

/-!
# Clamping onto the grid

The bounds of a grid are 32-bit integers, but a code is compared with them as numbers in single
precision, and a bound with more than 24 bits is rounded. Rounding keeps the order and turns
integers into integers, so a code that is an integer is moved to an integer between the rounded
bounds, and a code between the bounds themselves stays where it is.

That the result is a code of the grid is another matter: the upper bound can be rounded upward and
the lower one downward, and then the numbers past the bounds are not moved and count as contained.
Clamping, the test and the applied zero point respect the grid exactly if both bounds are rounded
inward (`clamp_onto_grid_iff`); bounds of up to 24 bits are. The grid of all 32-bit codes is the
example to the contrary: its greatest code becomes `2 ^ 31` (`clamp_leaves_widest_grid`).
-/

namespace FakeQuant

open Binary

namespace Grid

/-! ### The codes of a grid -/

/-- The codes of a grid are the integers between its bounds. -/
instance : Membership Int Grid :=
  ⟨fun g k => g.low.toInt ≤ k ∧ k ≤ g.high.toInt⟩

instance (g : Grid) (k : Int) : Decidable (k ∈ g) :=
  inferInstanceAs (Decidable (_ ∧ _))

/-- The bounds as numbers are not outside of the bounds as integers. -/
structure RoundsInward (g : Grid) : Prop where
  low_le : g.low.toInt ≤ g.least.value
  le_high : g.greatest.value ≤ g.high.toInt

variable (g : Grid) {code : Single}

theorem value_least : g.least.value = rounded .single g.low.toInt :=
  (ofInt_int32 g.low).2.1

theorem value_greatest : g.greatest.value = rounded .single g.high.toInt :=
  (ofInt_int32 g.high).2.1

theorem exists_represents_least : ∃ k : Int, g.least.Represents k := by
  obtain ⟨k, hk⟩ := exists_rounded_intCast (f := .single) (by decide) g.low.toInt
  exact ⟨k, g.isFinite_least, g.value_least.trans hk⟩

theorem exists_represents_greatest : ∃ k : Int, g.greatest.Represents k := by
  obtain ⟨k, hk⟩ := exists_rounded_intCast (f := .single) (by decide) g.high.toInt
  exact ⟨k, g.isFinite_greatest, g.value_greatest.trans hk⟩

theorem contains_least : g.contains g.least = true :=
  g.contains_iff.2 ⟨Binary.le_refl (isNaN_of_isFinite g.isFinite_least), g.least_le_greatest⟩

theorem contains_greatest : g.contains g.greatest = true :=
  g.contains_iff.2 ⟨g.least_le_greatest, Binary.le_refl (isNaN_of_isFinite g.isFinite_greatest)⟩

/-- The infinities are applied as the bounds. -/
theorem effectiveZeroPoint_infinity_true : g.effectiveZeroPoint (infinity true) = g.least := by
  have hround : ((infinity true : Single) + ofRat false (1 / 2)).floor = infinity true := by
    decide +kernel
  rw [effectiveZeroPoint, hround, g.clamp_of_lt (infinity_true_lt g.isFinite_least)]

theorem effectiveZeroPoint_infinity_false : g.effectiveZeroPoint (infinity false) = g.greatest := by
  have hround : ((infinity false : Single) + ofRat false (1 / 2)).floor = infinity false := by
    decide +kernel
  rw [effectiveZeroPoint, hround, g.clamp_of_gt (lt_infinity_false g.isFinite_greatest)]

/-! ### Integral codes -/

/-- A code of the grid lies between the rounded bounds: it is a number, so rounding keeps it. -/
theorem contains_of_mem {z : Int} (hz : z ∈ g) (hcode : code.Represents z) :
    g.contains code = true := by
  obtain ⟨hfinite, hvalue⟩ := hcode
  have hself : rounded .single code.value = code.value := rounded_value code
  rw [g.contains_iff, le_iff_value g.isFinite_least hfinite,
    le_iff_value hfinite g.isFinite_greatest, value_least, value_greatest, ← hself, hvalue]
  exact ⟨rounded_mono .single (Int.cast_le.2 hz.1), rounded_mono .single (Int.cast_le.2 hz.2)⟩

/-- An integral code is moved to an integer between the rounded bounds. -/
theorem exists_represents_clamp (hcode : code.IsIntegral) :
    ∃ k : Int, (g.clamp code).Represents k ∧ g.least.value ≤ k ∧ k ≤ g.greatest.value := by
  obtain ⟨hfinite, hlow, hhigh⟩ := g.clamp_between hcode.isNaN
  obtain ⟨k, hk⟩ : ∃ k : Int, (g.clamp code).Represents k := by
    rcases g.cases_code hcode.isNaN with hlt | hin | hgt
    · rw [g.clamp_of_lt hlt]
      exact g.exists_represents_least
    · rw [g.clamp_of_contains hin] at hfinite ⊢
      obtain hz | ⟨negative, rfl⟩ := hcode
      · exact hz
      · cases hfinite
    · rw [g.clamp_of_gt hgt]
      exact g.exists_represents_greatest
  rw [hk.2] at hlow hhigh
  exact ⟨k, hk, hlow, hhigh⟩

/-- The zero point is rounded to an integer or an infinity before it is moved. -/
theorem isIntegral_of_zeroPoint {zeroPoint : Single} (h : zeroPoint.isNaN = false) :
    (zeroPoint + ofRat false (1 / 2)).floor.IsIntegral :=
  isIntegral_floor ((isNaN_add _ half_single.1).trans h)

namespace RoundsInward

variable {g : Grid}

theorem mem (h : g.RoundsInward) {k : Int} (hlow : g.least.value ≤ k)
    (hhigh : k ≤ g.greatest.value) : k ∈ g :=
  ⟨Int.cast_le.1 (h.low_le.trans hlow), Int.cast_le.1 (hhigh.trans h.le_high)⟩

/-- Both bounds are rounded inward if they are codes of the grid as numbers. -/
theorem of_mem {k k' : Int} (hk : k ∈ g) (hleast : g.least.Represents k) (hk' : k' ∈ g)
    (hgreatest : g.greatest.Represents k') : g.RoundsInward := by
  constructor
  · rw [hleast.2]
    exact Int.cast_le.2 hk.1
  · rw [hgreatest.2]
    exact Int.cast_le.2 hk'.2

/-- Bounds of up to 24 bits are not rounded at all. -/
theorem of_natAbs_le (hlow : g.low.toInt.natAbs ≤ 2 ^ 24) (hhigh : g.high.toInt.natAbs ≤ 2 ^ 24) :
    g.RoundsInward := by
  constructor
  · rw [value_least, rounded_intCast (by decide) hlow]
  · rw [value_greatest, rounded_intCast (by decide) hhigh]

end RoundsInward

end Grid

/-- **Clamping onto the grid.** On every grid a code that is an integer or an infinity is moved to
an integer between the rounded bounds, and a code of the grid is contained and stays what it is. The
moved codes are codes of the grid exactly if both bounds are rounded inward; then, and only then,
the contained integers are the codes of the grid, and the zero point that is applied for a number is
a code of the grid. -/
theorem clamp_onto_grid_iff (g : Grid) :
    (∀ code : Single, code.IsIntegral →
      ∃ k : Int, (g.clamp code).Represents k ∧ g.least.value ≤ k ∧ k ≤ g.greatest.value ∧
        ∀ z ∈ g, code.Represents z → k = z ∧ g.contains code = true) ∧
    (g.RoundsInward ↔
      ∀ code : Single, code.IsIntegral → ∃ k ∈ g, (g.clamp code).Represents k) ∧
    (g.RoundsInward ↔
      ∀ code : Single, code.IsIntegral →
        (g.contains code = true ↔ ∃ z ∈ g, code.Represents z)) ∧
    (g.RoundsInward ↔
      ∀ zeroPoint : Single, zeroPoint.isNaN = false →
        ∃ k ∈ g, (g.effectiveZeroPoint zeroPoint).Represents k) := by
  have hclamp (h : g.RoundsInward) (code : Single) (hcode : code.IsIntegral) :
      ∃ k ∈ g, (g.clamp code).Represents k := by
    obtain ⟨k, hk, hlow, hhigh⟩ := g.exists_represents_clamp hcode
    exact ⟨k, h.mem hlow hhigh, hk⟩
  -- the bounds as numbers are integral codes that are contained and not moved
  have hleast : g.least.IsIntegral := .inl g.exists_represents_least
  have hgreatest : g.greatest.IsIntegral := .inl g.exists_represents_greatest
  refine ⟨fun code hcode => ?every, ⟨hclamp, fun h => ?clamp⟩,
    ⟨fun h code hcode => ⟨fun hin => ?contained, fun hcode => ?code⟩, fun h => ?contains⟩,
    ⟨fun h zeroPoint hzero => hclamp h _ (Grid.isIntegral_of_zeroPoint hzero), fun h => ?zeroPoint⟩⟩
  case every =>
    obtain ⟨k, hk, hlow, hhigh⟩ := g.exists_represents_clamp hcode
    refine ⟨k, hk, hlow, hhigh, fun z hz hcode => ?_⟩
    have hin := g.contains_of_mem hz hcode
    rw [g.clamp_of_contains hin] at hk
    exact ⟨hk.unique hcode, hin⟩
  case clamp =>
    obtain ⟨k, hk, hrepresents⟩ := h g.least hleast
    obtain ⟨k', hk', hrepresents'⟩ := h g.greatest hgreatest
    rw [g.clamp_of_contains g.contains_least] at hrepresents
    rw [g.clamp_of_contains g.contains_greatest] at hrepresents'
    exact .of_mem hk hrepresents hk' hrepresents'
  case contained =>
    obtain ⟨k, hk, hrepresents⟩ := hclamp h code hcode
    rw [g.clamp_of_contains hin] at hrepresents
    exact ⟨k, hk, hrepresents⟩
  case code =>
    obtain ⟨z, hz, hrepresents⟩ := hcode
    exact g.contains_of_mem hz hrepresents
  case contains =>
    obtain ⟨k, hk, hrepresents⟩ := (h g.least hleast).1 g.contains_least
    obtain ⟨k', hk', hrepresents'⟩ := (h g.greatest hgreatest).1 g.contains_greatest
    exact .of_mem hk hrepresents hk' hrepresents'
  case zeroPoint =>
    obtain ⟨k, hk, hrepresents⟩ := h (infinity true) rfl
    obtain ⟨k', hk', hrepresents'⟩ := h (infinity false) rfl
    rw [g.effectiveZeroPoint_infinity_true] at hrepresents
    rw [g.effectiveZeroPoint_infinity_false] at hrepresents'
    exact .of_mem hk hrepresents hk' hrepresents'

/-- Codes inside the grid of signed bytes, above it and below all numbers, and a zero point that is
rounded up to the greatest code. -/
theorem clamp_onto_signed_bytes :
    let g : Grid := ⟨-128, 127, by decide⟩
    (∃ k ∈ g, (g.clamp 300).Represents k) ∧
      (∃ k ∈ g, (g.clamp (infinity true)).Represents k) ∧
      (∃ k, (g.clamp (-5)).Represents k ∧ k = -5) ∧
      (g.contains 300 = true ↔ ∃ z ∈ g, (300 : Single).Represents z) ∧
      ∃ k ∈ g, (g.effectiveZeroPoint (ofRat false (253 / 2))).Represents k := by
  intro g
  have hround : g.RoundsInward := .of_natAbs_le (by decide) (by decide)
  obtain ⟨hevery, hclamp, hcontains, hzero⟩ := clamp_onto_grid_iff g
  have hcode : (300 : Single).IsIntegral := .inl ⟨300, by decide +kernel⟩
  have hcode' : (-5 : Single).Represents (-5) := by decide +kernel
  obtain ⟨k, hk, -, -, hsame⟩ := hevery (-5) (.inl ⟨_, hcode'⟩)
  exact ⟨hclamp.1 hround 300 hcode, hclamp.1 hround (infinity true) (.inr ⟨true, rfl⟩),
    ⟨k, hk, (hsame (-5) (by decide) hcode').1⟩, hcontains.1 hround 300 hcode,
    hzero.1 hround _ (by decide +kernel)⟩

/-- The grid of all 32-bit codes passes the check of its type. One past its greatest code is a
number that is contained, not moved, and applied as a zero point. -/
theorem clamp_leaves_widest_grid :
    let g : Grid := ⟨-2147483648, 2147483647, by decide⟩
    let code : Single := ofInt (2 ^ 31)
    (Grid.ofBounds (-2147483648) 2147483647 = .ok g ∧ Dtype.check .qint32 g = .ok ()) ∧
      code.Represents (2 ^ 31) ∧ 2 ^ 31 ∉ g ∧
      (g.clamp code).Represents (2 ^ 31) ∧ g.contains code = true ∧
      (g.effectiveZeroPoint code).Represents (2 ^ 31) := by
  intro g code
  refine ⟨⟨rfl, rfl⟩, ?_⟩
  decide +kernel

end FakeQuant
