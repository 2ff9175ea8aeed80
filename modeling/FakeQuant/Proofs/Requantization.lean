import FakeQuant.Proofs.Channels
import FakeQuant.Proofs.Clamping

/-!
# Quantizing a dequantized code

A code `k` with the zero point `z` stands for `(k - z) · scale`. To get it back, quantization
multiplies by the inverse of the scale and adds the zero point. The difference of two small integers
is exact. The product, the inverse and the second product are rounded, each with a relative error of
`2 ^ -23` at most as long as the scale stays away from the ends of the exponent range
(`abs_rounded_sub_le_relative`). Up to `2 ^ 20` steps these errors add up to less than two fifths of
a step (`abs_rounded_product_sub_le`), and the rounding of the last sum leaves the total below a
half. So the nearest integer is the code (`quantizeValue_dequantizeValue`).

Fake quantization moves a rounded number into the grid first. With bounds that are small integers
the result is such a code, whatever number it came from (`Grid.Moderate.clamp_roundEven`), so a
second fake quantization finds the same code again.
-/

namespace FakeQuant

open Binary

/-! ### The accumulated error -/

/-- In the normal range rounding has a small relative error. -/
theorem abs_rounded_sub_le_relative {q : Rat} (h : q = 0 ∨ (2 : Rat) ^ (-126 : Int) ≤ |q|) :
    |rounded .single q - q| ≤ |q| * (1 / 2 ^ 23) := by
  rcases h with rfl | h
  · simp
  · have herror := abs_rounded_sub_le .single q
    have hunit : (2 : Rat) ^ (-149 : Int) / 2 = (2 : Rat) ^ (-126 : Int) / 2 ^ 24 := by norm_num
    rw [limit_single, minExponent_single, hunit] at herror
    have hle := div_le_div_of_nonneg_right h (show (0 : Rat) ≤ 2 ^ 24 by norm_num)
    push_cast at herror
    linarith

/-- Two factors with a small relative error give a product with twice that error, and a little
more. -/
theorem abs_mul_sub_mul_le {a b u v ε : Rat} (hu : |u - a| ≤ |a| * ε) (hv : |v - b| ≤ |b| * ε) :
    |u * v - a * b| ≤ |a * b| * (2 * ε + ε ^ 2) := by
  have hsplit : u * v - a * b = (u - a) * b + a * (v - b) + (u - a) * (v - b) := by ring
  have hfirst : |(u - a) * b| ≤ |a * b| * ε := by
    rw [abs_mul, abs_mul]
    calc |u - a| * |b| ≤ |a| * ε * |b| := mul_le_mul_of_nonneg_right hu (abs_nonneg b)
      _ = |a| * |b| * ε := by ring
  have hsecond : |a * (v - b)| ≤ |a * b| * ε := by
    rw [abs_mul, abs_mul]
    calc |a| * |v - b| ≤ |a| * (|b| * ε) := mul_le_mul_of_nonneg_left hv (abs_nonneg a)
      _ = |a| * |b| * ε := by ring
  have hthird : |(u - a) * (v - b)| ≤ |a * b| * ε ^ 2 := by
    rw [abs_mul, abs_mul]
    calc |u - a| * |v - b| ≤ |a| * ε * (|b| * ε) :=
          mul_le_mul hu hv (abs_nonneg _) ((abs_nonneg _).trans hu)
      _ = |a| * |b| * ε ^ 2 := by ring
  rw [hsplit]
  calc |(u - a) * b + a * (v - b) + (u - a) * (v - b)|
      ≤ |(u - a) * b| + |a * (v - b)| + |(u - a) * (v - b)| := abs_add_three _ _ _
    _ ≤ |a * b| * (2 * ε + ε ^ 2) := by linarith

/-- A code is the zero point or at least one step away from it. -/
theorem eq_zero_or_one_le_abs (d : Int) : d = 0 ∨ 1 ≤ |(d : Rat)| := by
  rcases eq_or_ne d 0 with h | h
  · exact .inl h
  · exact .inr (by exact_mod_cast Int.one_le_abs h)

section Scale

variable {S : Rat}

theorem two_pow_le_one_div (hpos : 0 < S) (hS : S ≤ (2 : Rat) ^ (100 : Int)) :
    (2 : Rat) ^ (-100 : Int) ≤ 1 / S := by
  rw [zpow_neg, ← one_div]
  exact one_div_le_one_div_of_le hpos hS

/-- The steps of a scale are in the normal range. -/
theorem zero_or_two_pow_le_abs_mul (d : Int) (hS : (2 : Rat) ^ (-100 : Int) ≤ S) :
    (d : Rat) * S = 0 ∨ (2 : Rat) ^ (-126 : Int) ≤ |d * S| := by
  have hpos : 0 < S := lt_of_lt_of_le (by positivity) hS
  rcases eq_zero_or_one_le_abs d with rfl | hone
  · left
    simp
  · right
    rw [abs_mul, abs_of_pos hpos]
    calc (2 : Rat) ^ (-126 : Int) ≤ (2 : Rat) ^ (-100 : Int) := by norm_num
      _ ≤ S := hS
      _ ≤ |(d : Rat)| * S := le_mul_of_one_le_left hpos.le hone

/-- Three roundings, of the product with the scale, of the inverse and of the product with the
inverse, move a code by less than two fifths. -/
theorem abs_rounded_product_sub_le {d : Int} (hd : |(d : Rat)| ≤ 2 ^ 20)
    (hS : (2 : Rat) ^ (-100 : Int) ≤ S) (hS' : S ≤ (2 : Rat) ^ (100 : Int)) :
    |rounded .single (rounded .single (d * S) * rounded .single (1 / S)) - d| ≤ 2 / 5 := by
  have hpos : 0 < S := lt_of_lt_of_le (by positivity) hS
  have hinverse : (2 : Rat) ^ (-126 : Int) ≤ |1 / S| := by
    rw [abs_of_pos (one_div_pos.2 hpos)]
    exact le_trans (by norm_num) (two_pow_le_one_div hpos hS')
  have hu := abs_rounded_sub_le_relative (zero_or_two_pow_le_abs_mul d hS)
  have hv := abs_rounded_sub_le_relative (.inr hinverse)
  have herror := abs_mul_sub_mul_le hu hv
  have hcancel : d * S * (1 / S) = d := by rw [mul_assoc, mul_one_div_cancel hpos.ne', mul_one]
  rw [hcancel] at herror
  generalize hw : rounded .single (d * S) * rounded .single (1 / S) = w at herror ⊢
  have herror' : |w - d| ≤ |(d : Rat)| * (1 / 2 ^ 21) := by
    refine herror.trans (mul_le_mul_of_nonneg_left ?_ (abs_nonneg _))
    norm_num
  have hclose := abs_le.1 ((abs_abs_sub_abs_le w d).trans herror')
  -- the second product is rounded relatively too, because it is zero or near a whole step
  have hnormal : w = 0 ∨ (2 : Rat) ^ (-126 : Int) ≤ |w| := by
    rcases eq_zero_or_one_le_abs d with rfl | hone
    · left
      rw [← hw]
      simp
    · right
      have hhalf : 1 / 2 ≤ |w| := by linarith [hclose.1]
      exact le_trans (by norm_num) hhalf
  have hround := abs_rounded_sub_le_relative hnormal
  calc |rounded .single w - d| ≤ |rounded .single w - w| + |w - d| := abs_sub_le _ _ _
    _ ≤ 2 / 5 := by linarith

end Scale

/-! ### One element -/

/-- An integer of the size of the codes for which quantization is undone: at most `2 ^ 19`. -/
def IsCode (x : Single) : Prop :=
  ∃ z : Int, z.natAbs ≤ 2 ^ 19 ∧ x.Represents z

/-- A scale for which quantization is undone. -/
structure ModerateScale (scale : Single) : Prop where
  isFinite : scale.isFinite = true
  two_pow_le : (2 : Rat) ^ (-100 : Int) ≤ scale.value
  le_two_pow : scale.value ≤ (2 : Rat) ^ (100 : Int)

section Element

variable {code scale zeroPoint : Single} {k z : Int}

theorem ModerateScale.pos (h : ModerateScale scale) : 0 < scale.value :=
  lt_of_lt_of_le (by positivity) h.two_pow_le

/-- The inverse of a moderate scale is a finite number that is not zero. -/
theorem ModerateScale.inverse (h : ModerateScale scale) :
    (1 / scale).isFinite = true ∧ (1 / scale).value = rounded .single (1 / scale.value) ∧
      (1 / scale).value ≠ 0 := by
  have hone : (1 : Single).isFinite = true ∧ (1 : Single).value = 1 := by decide +kernel
  have hpos := h.pos
  have hlow := two_pow_le_one_div hpos h.le_two_pow
  have hhigh : |1 / scale.value| ≤ (2 : Rat) ^ (100 : Int) := by
    rw [abs_of_pos (one_div_pos.2 hpos), div_le_iff₀ hpos]
    calc (1 : Rat) = (2 : Rat) ^ (100 : Int) * (2 : Rat) ^ (-100 : Int) := by norm_num
      _ ≤ (2 : Rat) ^ (100 : Int) * scale.value :=
        mul_le_mul_of_nonneg_left h.two_pow_le (by positivity)
  have hround := le_abs_rounded (f := .single) (by decide) (hlow.trans (le_abs_self _))
  rw [div_of_finite hone.1 h.isFinite hpos.ne', hone.2]
  obtain ⟨hfinite, hvalue⟩ := ofRat_of_abs_le (f := .single)
    ((1 : Single).isNegative ^^ scale.isNegative) (by decide) (by decide) hhigh
  refine ⟨hfinite, hvalue, ?_⟩
  rw [hvalue]
  exact abs_pos.1 (lt_of_lt_of_le (by positivity) hround)

/-- The number that a code stands for is the rounded product of its distance from the zero point and
the scale. -/
theorem dequantizeValue_eq (hcode : code.Represents k) (hzero : zeroPoint.Represents z)
    (hd : (k - z).natAbs ≤ 2 ^ 20) (hscale : ModerateScale scale) :
    (dequantizeValue code scale zeroPoint).isFinite = true ∧
      (dequantizeValue code scale zeroPoint).value =
        rounded .single ((k - z : Int) * scale.value) := by
  obtain ⟨hfinite, hvalue⟩ := hcode.sub hzero (hd.trans (by norm_num))
  have hbound : |((k - z : Int) : Rat) * scale.value| ≤ (2 : Rat) ^ (120 : Int) := by
    rw [abs_mul, abs_of_pos hscale.pos]
    calc |((k - z : Int) : Rat)| * scale.value
        ≤ ((2 ^ 20 : Nat) : Rat) * (2 : Rat) ^ (100 : Int) :=
          mul_le_mul (abs_cast_le hd) hscale.le_two_pow hscale.pos.le (by positivity)
      _ = (2 : Rat) ^ (120 : Int) := by norm_num
  rw [dequantizeValue, mul_of_finite hfinite hscale.isFinite, hvalue]
  exact ofRat_of_abs_le _ (by decide) (by decide) hbound

/-- A number close to a distance between codes stays far below the overflow. -/
theorem lt_overflow_of_close {q d : Rat} (hclose : |q - d| ≤ 2 / 5) (hd : |d| ≤ 2 ^ 20) :
    |q| < Format.single.overflow := by
  calc |q| ≤ |q - d| + |d| := by simpa using abs_add_le (q - d) d
    _ ≤ 2 / 5 + 2 ^ 20 := add_le_add hclose hd
    _ < Format.single.overflow := by
      rw [Format.overflow, maxExponent_single]
      norm_num [Format.single]

/-- A number close to the distance of a code from the zero point gives the code when the zero point
is added and the sum is rounded. -/
theorem represents_roundEven_add {x : Single} (hx : x.isFinite = true)
    (hzero : zeroPoint.Represents z) (hk : k.natAbs ≤ 2 ^ 19)
    (hclose : |x.value - (k - z : Int)| ≤ 2 / 5) : (x + zeroPoint).roundEven.Represents k := by
  have hkbound : |(k : Rat)| ≤ 2 ^ 19 := by exact_mod_cast abs_cast_le hk
  have hsum : |x.value + z - k| ≤ 2 / 5 := by
    push_cast at hclose
    rwa [sub_sub_eq_add_sub] at hclose
  have hsize : |x.value + z| ≤ 2 ^ 20 := by
    calc |x.value + z| ≤ |x.value + z - k| + |(k : Rat)| := by
          simpa using abs_add_le (x.value + z - k) k
      _ ≤ 2 ^ 20 := by linarith
  have herror := abs_rounded_sub_le .single (x.value + z)
  rw [limit_single, minExponent_single] at herror
  have hnear : |rounded .single (x.value + z) - k| < 1 / 2 := by
    calc |rounded .single (x.value + z) - k|
        ≤ |rounded .single (x.value + z) - (x.value + z)| + |x.value + z - k| := abs_sub_le _ _ _
      _ ≤ 2 ^ 20 / 2 ^ 24 + 2 ^ (-149 : Int) / 2 + 2 / 5 := by
        push_cast at herror
        linarith
      _ < 1 / 2 := by norm_num
  rw [add_of_finite hx hzero.1, hzero.2]
  obtain ⟨hfinite, hvalue⟩ := ofRat_of_abs_le (f := .single) (x.isNegative && zeroPoint.isNegative)
    (k := 20) (by decide) (by decide) (by exact_mod_cast hsize)
  refine represents_roundEven hfinite ?_ (hk.trans (by norm_num))
  rw [hvalue]
  exact roundHalfEven_eq hnear.le fun _ => hnear

/-- Quantizing what a code stands for gives the code back. -/
theorem quantizeValue_dequantizeValue (hcode : code.Represents k) (hzero : zeroPoint.Represents z)
    (hk : k.natAbs ≤ 2 ^ 19) (hz : z.natAbs ≤ 2 ^ 19) (hscale : ModerateScale scale) :
    (quantizeValue (dequantizeValue code scale zeroPoint) (1 / scale) zeroPoint).Represents k := by
  have hd : (k - z).natAbs ≤ 2 ^ 20 := by omega
  have hbound : |((k - z : Int) : Rat)| ≤ 2 ^ 20 := by exact_mod_cast abs_cast_le hd
  obtain ⟨hfinite, hvalue⟩ := dequantizeValue_eq hcode hzero hd hscale
  obtain ⟨hinverse, hinverse', -⟩ := hscale.inverse
  have herror := abs_rounded_product_sub_le hbound hscale.two_pow_le hscale.le_two_pow
  rw [← hvalue, ← hinverse'] at herror
  obtain ⟨hproduct, hproduct'⟩ := ofRat_of_lt_overflow (f := .single)
    ((dequantizeValue code scale zeroPoint).isNegative ^^ (1 / scale).isNegative)
    (lt_overflow_of_close herror hbound)
  rw [← mul_of_finite hfinite hinverse] at hproduct hproduct'
  rw [← hproduct'] at herror
  exact represents_roundEven_add hproduct hzero hk herror

end Element

/-! ### Fake quantization -/

/-- A grid whose bounds are codes. -/
structure Grid.Moderate (g : Grid) : Prop where
  le_low : -2 ^ 19 ≤ g.low.toInt
  high_le : g.high.toInt ≤ 2 ^ 19

namespace Grid.Moderate

variable {g : Grid}

/-- The bounds of such a grid are not rounded. -/
theorem roundsInward (hg : g.Moderate) : g.RoundsInward := by
  have hlow := hg.le_low
  have hhigh := hg.high_le
  have hlt := Int32.lt_iff_toInt_lt.1 g.low_lt_high
  exact .of_natAbs_le (by omega) (by omega)

/-- A rounded number that is moved into such a grid is one of its codes. -/
theorem clamp_roundEven (hg : g.Moderate) {x : Single} (hx : x.isNaN = false) :
    ∃ k ∈ g, (g.clamp x.roundEven).Represents k := by
  obtain ⟨k, hk, hlow, hhigh⟩ := g.exists_represents_clamp (isIntegral_roundEven hx)
  exact ⟨k, hg.roundsInward.mem hlow hhigh, hk⟩

end Grid.Moderate

/-- The code of a number is a number, whatever is quantized. -/
theorem isNaN_quantized {x scale zeroPoint : Single} (hx : x.isNaN = false)
    (hscale : ModerateScale scale) (hzero : zeroPoint.isFinite = true) :
    (x * (1 / scale) + zeroPoint).isNaN = false := by
  obtain ⟨hinverse, -, hne⟩ := hscale.inverse
  rw [isNaN_add _ hzero, isNaN_mul _ hinverse hne, hx]

/-- Fake quantization changes nothing the second time. -/
theorem fakeQuantizeValue_idempotent {g : Grid} (hg : g.Moderate) {x scale zeroPoint : Single}
    (hscale : ModerateScale scale) (hzero : IsCode zeroPoint) (hx : x.isNaN = false) :
    let y := fakeQuantizeValue g x scale (1 / scale) zeroPoint
    (fakeQuantizeValue g y scale (1 / scale) zeroPoint).numEq y = true := by
  intro y
  obtain ⟨z, hz, hzero⟩ := hzero
  obtain ⟨k, hmem, hcode⟩ := hg.clamp_roundEven (isNaN_quantized hx hscale hzero.1)
  obtain ⟨hlow, hhigh⟩ := hmem
  have hle := hg.le_low
  have hle' := hg.high_le
  have hcode' : (quantizeValue y (1 / scale) zeroPoint).Represents k :=
    quantizeValue_dequantizeValue hcode hzero (by omega) hz hscale
  have hclamp := g.clamp_of_contains (g.contains_of_mem ⟨hlow, hhigh⟩ hcode')
  have hd : (k - z).natAbs ≤ 2 ^ 20 := by omega
  obtain ⟨hfinite, hvalue⟩ := dequantizeValue_eq hcode hzero hd hscale
  obtain ⟨hfinite', hvalue'⟩ := dequantizeValue_eq hcode' hzero hd hscale
  have hagain : fakeQuantizeValue g y scale (1 / scale) zeroPoint =
      dequantizeValue (quantizeValue y (1 / scale) zeroPoint) scale zeroPoint := by
    rw [fakeQuantizeValue, hclamp]
  rw [hagain]
  exact (numEq_iff_value hfinite' hfinite).2 (hvalue'.trans hvalue.symm)

/-! ### Whole tensors -/

variable {s : Shape}

/-- At every element of one channel of parameters. -/
theorem numEq_requantized {code scale zeroPoint : Single} (hcode : IsCode code)
    (hscale : ModerateScale scale) (hzero : IsCode zeroPoint) :
    (quantizeValue (dequantizeValue code scale zeroPoint) (1 / scale) zeroPoint).numEq code
      = true := by
  obtain ⟨k, hk, hcode⟩ := hcode
  obtain ⟨z, hz, hzero⟩ := hzero
  exact (quantizeValue_dequantizeValue hcode hzero hk hz hscale).numEq hcode

/-- **Quantization undoes dequantization** of integers up to `2 ^ 19`, with such a zero point and a
scale between `2 ^ -100` and `2 ^ 100`: for one number, for a tensor, and for a tensor with the
parameters of each position of an axis, in rows that can be laid out. So fake quantization to a grid
with such bounds changes nothing the second time, whatever number it starts from. -/
theorem quantize_undoes_dequantize (g : Grid) :
    (∀ (k z : Int) (code scale zeroPoint : Single), k.natAbs ≤ 2 ^ 19 → z.natAbs ≤ 2 ^ 19 →
      code.Represents k → zeroPoint.Represents z → ModerateScale scale →
      (quantizeValue (dequantizeValue code scale zeroPoint) (1 / scale) zeroPoint).Represents k) ∧
    (∀ (q : Tensor Single s) (scale zeroPoint : Single), (∀ i, IsCode (q.get i)) →
      ModerateScale scale → IsCode zeroPoint →
      ∀ i, ((quantize g false (dequantize q scale zeroPoint) scale zeroPoint).get i).numEq
        (q.get i) = true) ∧
    (∀ (q : Tensor Single s) (p : ChannelParameters s), (∀ i, IsCode (q.get i)) →
      (∀ c, ModerateScale (p.scaleAt c)) → (∀ c, IsCode (p.zeroPointAt c)) →
      p.scaleRow.isStandard = true → p.zeroPointRow.isStandard = true →
      ∃ x q', dequantizePerChannel q p.scaleRow p.zeroPointRow p.axis = .ok x ∧
        quantizePerChannel g false x p.scaleRow p.zeroPointRow p.axis = .ok q' ∧
        ∀ i, (q'.get i).numEq (q.get i) = true) ∧
    (∀ x scale zeroPoint : Single, g.Moderate → ModerateScale scale → IsCode zeroPoint →
      x.isNaN = false →
      let y := fakeQuantizeValue g x scale (1 / scale) zeroPoint
      (fakeQuantizeValue g y scale (1 / scale) zeroPoint).numEq y = true) := by
  refine ⟨?one, ?tensor, ?channels, ?again⟩
  case one =>
    intro k z code scale zeroPoint hk hz hcode hzero hscale
    exact quantizeValue_dequantizeValue hcode hzero hk hz hscale
  case tensor =>
    intro q scale zeroPoint hq hscale hzero i
    have helement : (quantize g false (dequantize q scale zeroPoint) scale zeroPoint).get i =
        quantizeValue (dequantizeValue (q.get i) scale zeroPoint) (1 / scale) zeroPoint := by
      rw [quantize, dequantize, Tensor.get_map, Tensor.get_map]
      rfl
    rw [helement]
    exact numEq_requantized (hq i) hscale hzero
  case channels =>
    intro q p hq hscale hzero hstandard hstandard'
    refine ⟨dequantizeAlong q p, quantizeAlong g false (dequantizeAlong q p) p, ?_, ?_, fun i => ?_⟩
    · rw [dequantizePerChannel_eq, hstandard, hstandard', ChannelParameters.check_rows]
      rfl
    · rw [quantizePerChannel_eq, Row.isBackward_of_isStandard hstandard, hstandard',
        Bool.not_false, ChannelParameters.check_rows]
      rfl
    · rw [quantizeAlong, ChannelParameters.get_apply, dequantizeAlong, ChannelParameters.get_apply]
      exact numEq_requantized (hq i) (hscale _) (hzero _)
  case again =>
    intro x scale zeroPoint hg hscale hzero hx
    exact fakeQuantizeValue_idempotent hg hscale hzero hx

/-- The largest code with the smallest zero point, in steps of a tenth. The number that is quantized
twice is an infinity. -/
theorem quantize_undoes_dequantize_in_tenths :
    let g : Grid := ⟨-8, 7, by decide⟩
    let tenth : Single := ofRat false (1 / 10)
    let code : Single := Binary.ofInt (2 ^ 19)
    let zeroPoint : Single := Binary.ofInt (-2 ^ 19)
    let q : Tensor Single [2] := Tensor.ofFn fun _ => code
    (quantizeValue (dequantizeValue code tenth zeroPoint) (1 / tenth) zeroPoint).Represents
        (2 ^ 19) ∧
      (∀ i, ((quantize g false (dequantize q tenth zeroPoint) tenth zeroPoint).get i).numEq
        (q.get i) = true) ∧
      (∃ x q', dequantizePerChannel q (.ofList [tenth, tenth]) (.ofList [zeroPoint, zeroPoint]) 0 =
          .ok x ∧
        quantizePerChannel g false x (.ofList [tenth, tenth]) (.ofList [zeroPoint, zeroPoint]) 0 =
          .ok q' ∧
        ∀ i, (q'.get i).numEq (q.get i) = true) ∧
      let y := fakeQuantizeValue g (infinity true) tenth (1 / tenth) zeroPoint
      (fakeQuantizeValue g y tenth (1 / tenth) zeroPoint).numEq y = true := by
  intro g tenth code zeroPoint q
  have hcode : code.Represents (2 ^ 19) := represents_ofRat (by decide) false
  have hzero : zeroPoint.Represents (-2 ^ 19) := represents_ofRat (by decide) false
  have hisCode : IsCode code := ⟨_, by decide, hcode⟩
  have hisCode' : IsCode zeroPoint := ⟨_, by decide, hzero⟩
  have hscale : ModerateScale tenth :=
    ⟨by decide +kernel, by decide +kernel, by decide +kernel⟩
  have hgrid : g.Moderate := ⟨by decide, by decide⟩
  have hq (i : Index [2]) : IsCode (q.get i) := by
    rw [Tensor.get_ofFn]
    exact hisCode
  have hvector {P : Single → Prop} {a : Single} (h : P a) (c : Fin 2) : P (#v[a, a].get c) := by
    match c with
    | 0 => exact h
    | 1 => exact h
  obtain ⟨hone, htensor, hchannels, hagain⟩ := quantize_undoes_dequantize (s := [2]) g
  refine ⟨?_, htensor q tenth zeroPoint hq hscale hisCode', ?_, ?_⟩
  · exact hone (2 ^ 19) (-2 ^ 19) code tenth zeroPoint (by decide) (by decide) hcode hzero hscale
  · exact hchannels q ⟨0, #v[tenth, tenth], #v[zeroPoint, zeroPoint], 1, 1⟩ hq (hvector hscale)
      (hvector hisCode') rfl rfl
  · exact hagain (infinity true) tenth zeroPoint hgrid hscale hisCode' rfl

end FakeQuant
