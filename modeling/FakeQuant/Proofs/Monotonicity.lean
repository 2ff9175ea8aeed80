import FakeQuant.Proofs.Saturation

/-!
# Fake quantization keeps the order

Every step of fake quantization keeps the order of numbers, the infinities included: the product
with a positive inverse, the sum with the zero point, the rounding to an integer, the move into the
grid, the difference from the zero point and the product with the scale. For each of them it is
enough to look at the exact results, because rounding keeps the order also past the largest number
(`Binary.ofRat_mono`). No step can meet an infinity times zero or a difference of infinities: the
inverse of a finite scale does not vanish (`PositiveParameters.inverse_value_pos`), and a number
that has been moved into the grid is finite.

So fake quantization keeps the order and stays between what the bounds of the grid stand for
(`fakeQuantize_monotone`).
-/

namespace FakeQuant

open Binary

/-! ### Steps that keep the order -/

namespace Binary

variable {f : Format} {x y z : Binary f} {q q' : Rat}

/-- Rounding an exact value keeps the order, also past the largest number. -/
theorem ofRat_mono (a b : Bool) (h : q ≤ q') : (ofRat a q : Binary f) ≤ ofRat b q' := by
  have hround := rounded_mono f h
  rcases lt_or_ge |rounded f q| f.overflow with hlt | hle
  · rcases lt_or_ge |rounded f q'| f.overflow with hlt' | hle'
    · obtain ⟨hfinite, hvalue⟩ := ofRat_of_lt_overflow a hlt
      obtain ⟨hfinite', hvalue'⟩ := ofRat_of_lt_overflow b hlt'
      rwa [le_iff_value hfinite hfinite', hvalue, hvalue']
    -- the larger number cannot be past the overflow on the negative side
    · have hnonneg : ¬ q' < 0 := by
        intro hneg
        rw [abs_of_nonpos (rounded_nonpos hneg.le)] at hle'
        linarith [(abs_lt.1 hlt).1]
      rw [ofRat_of_overflow_le b hle', decide_eq_false hnonneg]
      exact le_infinity_false (isNaN_ofRat a q)
  · rcases lt_or_ge q 0 with hneg | hnonneg
    · rw [ofRat_of_overflow_le a hle, decide_eq_true hneg]
      exact infinity_true_le (isNaN_ofRat b q')
    · rw [abs_of_nonneg (rounded_nonneg hnonneg)] at hle
      have hle' : f.overflow ≤ |rounded f q'| := (hle.trans hround).trans (le_abs_self _)
      rw [ofRat_of_overflow_le b hle', decide_eq_false (not_lt.2 (hnonneg.trans h))]
      exact le_infinity_false (isNaN_ofRat a q)

theorem infinity_add (negative : Bool) (hz : z.isFinite = true) :
    infinity negative + z = infinity negative := by
  obtain ⟨_, _, _, _, rfl⟩ := exists_finite_eq hz
  rfl

theorem infinity_mul_of_pos (negative : Bool) (hz : z.isFinite = true) (hpos : 0 < z.value) :
    infinity negative * z = infinity negative := by
  have hsign : z.isNegative = false := by
    rw [Bool.eq_false_iff]
    intro hneg
    exact absurd hpos (not_lt.2 (value_nonpos hneg))
  obtain ⟨b, _, _, _, rfl⟩ := exists_finite_eq hz
  change (if _ = (0 : Rat) then nan else infinity (negative ^^ b)) = _
  rw [if_neg hpos.ne', show b = false from hsign, Bool.xor_false]

/-- The sum with a finite number keeps the order. -/
theorem add_mono (h : x ≤ y) (hz : z.isFinite = true) : x + z ≤ y + z := by
  rcases le_cases h with ⟨rfl, hy⟩ | ⟨rfl, hx⟩ | ⟨hx, hy, hvalue⟩
  · rw [infinity_add true hz]
    exact infinity_true_le ((isNaN_add y hz).trans hy)
  · rw [infinity_add false hz]
    exact le_infinity_false ((isNaN_add x hz).trans hx)
  · rw [add_of_finite hx hz, add_of_finite hy hz]
    exact ofRat_mono _ _ (add_le_add_left hvalue _)

theorem sub_mono (h : x ≤ y) (hz : z.isFinite = true) : x - z ≤ y - z :=
  add_mono h ((isFinite_neg z).trans hz)

/-- The product with a positive finite number keeps the order. -/
theorem mul_mono (h : x ≤ y) (hz : z.isFinite = true) (hpos : 0 < z.value) : x * z ≤ y * z := by
  rcases le_cases h with ⟨rfl, hy⟩ | ⟨rfl, hx⟩ | ⟨hx, hy, hvalue⟩
  · rw [infinity_mul_of_pos true hz hpos]
    exact infinity_true_le ((isNaN_mul y hz hpos.ne').trans hy)
  · rw [infinity_mul_of_pos false hz hpos]
    exact le_infinity_false ((isNaN_mul x hz hpos.ne').trans hx)
  · rw [mul_of_finite hx hz, mul_of_finite hy hz]
    exact ofRat_mono _ _ (mul_le_mul_of_nonneg_right hvalue hpos.le)

/-- Rounding to the nearest integer keeps the order. -/
theorem roundEven_mono (h : x ≤ y) : x.roundEven ≤ y.roundEven := by
  rcases le_cases h with ⟨rfl, hy⟩ | ⟨rfl, hx⟩ | ⟨hx, hy, hvalue⟩
  · exact infinity_true_le ((isNaN_roundEven y).trans hy)
  · exact le_infinity_false ((isNaN_roundEven x).trans hx)
  · rw [roundEven_of_finite hx, roundEven_of_finite hy]
    exact ofRat_mono _ _ (Int.cast_le.2 (roundHalfEven_mono hvalue))

end Binary

/-- Moving into the grid keeps the order. -/
theorem Grid.clamp_mono (g : Grid) {x y : Single} (h : x ≤ y) : g.clamp x ≤ g.clamp y := by
  obtain ⟨hx, hy⟩ := isNaN_of_le h
  rcases g.cases_code hx with hlt | hin | hgt
  · rw [g.clamp_of_lt hlt]
    exact g.least_le_clamp hy
  · rcases g.cases_code hy with hlt' | hin' | hgt'
    · exact absurd (Binary.lt_of_le_of_lt h hlt') (Binary.not_lt_of_le (g.contains_iff.1 hin).1)
    · rwa [g.clamp_of_contains hin, g.clamp_of_contains hin']
    · rw [g.clamp_of_gt hgt']
      exact g.clamp_le_greatest hx
  · have hgt' : g.greatest < y := by
      rcases Binary.lt_or_le (isNaN_of_isFinite g.isFinite_greatest) hy with hlt | hle
      · exact hlt
      · exact absurd hgt (Binary.not_lt_of_le (Binary.le_trans h hle))
    rw [g.clamp_of_gt hgt, g.clamp_of_gt hgt']
    exact Binary.le_refl (isNaN_of_isFinite g.isFinite_greatest)

/-! ### One element -/

/-- Finite parameters with a positive scale. -/
structure PositiveParameters (scale zeroPoint : Single) : Prop
    extends FiniteParameters scale zeroPoint where
  pos : 0 < scale

namespace PositiveParameters

variable {scale zeroPoint : Single}

theorem value_pos (h : PositiveParameters scale zeroPoint) : 0 < scale.value := by
  have hlt := (lt_iff_value rfl h.isFinite_scale).1 h.pos
  rwa [zero_eq, value_zero] at hlt

/-- The inverse of a finite scale does not vanish, and rounding keeps its sign. -/
theorem inverse_value_pos (h : PositiveParameters scale zeroPoint) : 0 < (1 / scale).value := by
  rcases one_div_cases h.isFinite_scale with ⟨negative, hinverse⟩ | ⟨-, hvalue, hne⟩
  · have hfinite := h.isFinite_inverse
    rw [hinverse] at hfinite
    cases hfinite
  · refine lt_of_le_of_ne ?_ hne.symm
    rw [hvalue]
    exact rounded_nonneg (one_div_nonneg.2 h.value_pos.le)

end PositiveParameters

section Element

variable {x y code code' scale zeroPoint : Single}

theorem quantizeValue_mono (hparameters : PositiveParameters scale zeroPoint) (h : x ≤ y) :
    quantizeValue x (1 / scale) zeroPoint ≤ quantizeValue y (1 / scale) zeroPoint :=
  roundEven_mono (add_mono (mul_mono h hparameters.isFinite_inverse hparameters.inverse_value_pos)
    hparameters.isFinite_zeroPoint)

theorem dequantizeValue_mono (hparameters : PositiveParameters scale zeroPoint)
    (h : code ≤ code') :
    dequantizeValue code scale zeroPoint ≤ dequantizeValue code' scale zeroPoint :=
  mul_mono (sub_mono h hparameters.isFinite_zeroPoint) hparameters.isFinite_scale
    hparameters.value_pos

theorem fakeQuantizeValue_mono (g : Grid) (hparameters : PositiveParameters scale zeroPoint)
    (h : x ≤ y) :
    fakeQuantizeValue g x scale (1 / scale) zeroPoint ≤
      fakeQuantizeValue g y scale (1 / scale) zeroPoint :=
  dequantizeValue_mono hparameters (g.clamp_mono (quantizeValue_mono hparameters h))

/-- The output lies between what the bounds of the grid stand for. -/
theorem fakeQuantizeValue_between (g : Grid) (hparameters : PositiveParameters scale zeroPoint)
    (hx : x.isNaN = false) :
    dequantizeValue g.least scale zeroPoint ≤ fakeQuantizeValue g x scale (1 / scale) zeroPoint ∧
      fakeQuantizeValue g x scale (1 / scale) zeroPoint ≤
        dequantizeValue g.greatest scale zeroPoint := by
  have hcode := (isNaN_of_le (quantizeValue_mono hparameters (Binary.le_refl hx))).1
  exact ⟨dequantizeValue_mono hparameters (g.least_le_clamp hcode),
    dequantizeValue_mono hparameters (g.clamp_le_greatest hcode)⟩

end Element

/-! ### Tensors -/

variable {s : Shape}

theorem get_fakeQuantize (g : Grid) (x : Tensor Single s) (scale zeroPoint : Single)
    (i : Index s) : (fakeQuantize g x scale zeroPoint).get i =
      fakeQuantizeValue g (x.get i) scale (1 / scale) zeroPoint :=
  Tensor.get_map _ _ i

theorem get_fakeQuantizeAlong (g : Grid) (x : Tensor Single s) (p : ChannelParameters s)
    (i : Index s) : (fakeQuantizeAlong g x p).get i =
      fakeQuantizeValue g (x.get i) (p.scaleAt (i.coordinate p.axis))
        (1 / p.scaleAt (i.coordinate p.axis)) (p.zeroPointAt (i.coordinate p.axis)) :=
  p.get_apply _ _ i

/-- **Fake quantization keeps the order** and stays between what the bounds of the grid stand for,
for all numbers, the infinities included, and finite parameters with a positive scale whose inverse
is finite. The bounds that the clamp is between are in order on every grid. So the elements of a
tensor keep their order, and along an axis those at one position, with rows that can be laid
out. -/
theorem fakeQuantize_monotone (g : Grid) :
    g.least ≤ g.greatest ∧
    (∀ x y scale zeroPoint : Single, PositiveParameters scale zeroPoint → x ≤ y →
      let u := fakeQuantizeValue g x scale (1 / scale) zeroPoint
      let v := fakeQuantizeValue g y scale (1 / scale) zeroPoint
      u ≤ v ∧ u.isNaN = false ∧ v.isNaN = false ∧
        (g.least - zeroPoint) * scale ≤ u ∧ u ≤ (g.greatest - zeroPoint) * scale ∧
        (g.least - zeroPoint) * scale ≤ v ∧ v ≤ (g.greatest - zeroPoint) * scale) ∧
    (∀ (x : Tensor Single s) (scale zeroPoint : Single), PositiveParameters scale zeroPoint →
      ∀ i j, x.get i ≤ x.get j →
        (fakeQuantize g x scale zeroPoint).get i ≤ (fakeQuantize g x scale zeroPoint).get j) ∧
    (∀ (x : Tensor Single s) (p : ChannelParameters s), p.scaleRow.isStandard = true →
      p.zeroPointRow.isStandard = true →
      ∃ y, fakeQuantizePerChannel g x p.scaleRow p.zeroPointRow p.axis = .ok y ∧
        ∀ c, PositiveParameters (p.scaleAt c) (p.zeroPointAt c) →
          ∀ i j, i.coordinate p.axis = c → j.coordinate p.axis = c → x.get i ≤ x.get j →
            y.get i ≤ y.get j) := by
  refine ⟨g.least_le_greatest, ?element, ?tensor, ?channels⟩
  case element =>
    intro x y scale zeroPoint hparameters hle u v
    obtain ⟨hx, hy⟩ := isNaN_of_le hle
    have hmono : u ≤ v := fakeQuantizeValue_mono g hparameters hle
    obtain ⟨hlow, hhigh⟩ := fakeQuantizeValue_between g hparameters hx
    obtain ⟨hlow', hhigh'⟩ := fakeQuantizeValue_between g hparameters hy
    obtain ⟨hu, hv⟩ := isNaN_of_le hmono
    exact ⟨hmono, hu, hv, hlow, hhigh, hlow', hhigh'⟩
  case tensor =>
    intro x scale zeroPoint hparameters i j hle
    rw [get_fakeQuantize, get_fakeQuantize]
    exact fakeQuantizeValue_mono g hparameters hle
  case channels =>
    intro x p hscale hzero
    refine ⟨fakeQuantizeAlong g x p, ?_, fun c hparameters i j hi hj hle => ?_⟩
    · rw [fakeQuantizePerChannel_eq, hscale, hzero, ChannelParameters.check_rows]
      rfl
    · have hat (i : Index s) (hi : i.coordinate p.axis = c) : (fakeQuantizeAlong g x p).get i =
          fakeQuantizeValue g (x.get i) (p.scaleAt c) (1 / p.scaleAt c) (p.zeroPointAt c) := by
        rw [← hi]
        exact get_fakeQuantizeAlong g x p i
      rw [hat i hi, hat j hj]
      exact fakeQuantizeValue_mono g hparameters hle

/-- A row with an element below all numbers and one above the grid, in steps of a tenth from a zero
point between two codes. -/
theorem fakeQuantize_monotone_in_tenths :
    let g : Grid := ⟨-8, 7, by decide⟩
    let tenth : Single := ofRat false (1 / 10)
    let zeroPoint : Single := ofRat false (5 / 2)
    let x : Tensor Single [1, 2] := Tensor.ofFn fun i => if i.2.1 = 0 then infinity true else 40
    let u := fakeQuantizeValue g (infinity true) tenth (1 / tenth) zeroPoint
    let v := fakeQuantizeValue g 40 tenth (1 / tenth) zeroPoint
    (u ≤ v ∧ (g.least - zeroPoint) * tenth ≤ u ∧ v ≤ (g.greatest - zeroPoint) * tenth) ∧
      (∀ i j : Index [1, 2], i.2.1 = 0 → j.2.1 ≠ 0 →
        (fakeQuantize g x tenth zeroPoint).get i ≤ (fakeQuantize g x tenth zeroPoint).get j) ∧
      ∃ y, fakeQuantizePerChannel g x (.ofList [tenth]) (.ofList [zeroPoint]) 0 = .ok y ∧
        ∀ i j : Index [1, 2], i.2.1 = 0 → j.2.1 ≠ 0 → y.get i ≤ y.get j := by
  intro g tenth zeroPoint x u v
  have hparameters : PositiveParameters tenth zeroPoint :=
    { isFinite_scale := by decide +kernel
      isFinite_inverse := by decide +kernel
      isFinite_zeroPoint := by decide +kernel
      pos := by decide +kernel }
  have hx (i j : Index [1, 2]) (hi : i.2.1 = 0) (hj : j.2.1 ≠ 0) : x.get i ≤ x.get j := by
    rw [Tensor.get_ofFn, Tensor.get_ofFn, if_pos hi, if_neg hj]
    decide +kernel
  have hone (i : Index [1, 2]) : i.coordinate 0 = (0 : Fin 1) :=
    Subsingleton.elim (α := Fin 1) _ _
  obtain ⟨-, helement, htensor, hchannels⟩ := fakeQuantize_monotone (s := [1, 2]) g
  obtain ⟨hmono, -, -, hlow, -, -, hhigh⟩ :=
    helement (infinity true) 40 tenth zeroPoint hparameters (by decide +kernel)
  obtain ⟨y, hy, horder⟩ := hchannels x ⟨0, #v[tenth], #v[zeroPoint], 1, 1⟩ rfl rfl
  refine ⟨⟨hmono, hlow, hhigh⟩, fun i j hi hj => ?_, y, hy, fun i j hi hj => ?_⟩
  · exact htensor x tenth zeroPoint hparameters i j (hx i j hi hj)
  · exact horder (0 : Fin 1) hparameters i j (hone i) (hone j) (hx i j hi hj)

end FakeQuant
