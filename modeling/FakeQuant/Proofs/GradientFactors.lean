import FakeQuant.Mode
import FakeQuant.Proofs.SquareRoots

/-!
# Gradient factors by the number of elements

The factor for a number of elements is computed in rounded steps: both integers in double precision,
their product, its root, the inverse, and the change to single precision. Each of them keeps the
order or turns it around. So `GradientScaling.inverseRoot` turns around the order of the products
that a count of 64 bits and a bound of 32 bits can have, and it is enough to evaluate it at both
ends of them: at the least product, one, it is one, and at the greatest it is still positive.
Without a positive product the factor is one as well, which no other factor exceeds, so the order
holds across that case too (`GradientScaling.factor_antitone`).
-/

namespace FakeQuant

open Binary

/-! ### Steps -/

namespace Binary

variable {f g : Format} {x x' y y' z : Binary f}

/-- Rounding an integer keeps the order. -/
theorem ofInt_mono {z z' : Int} (h : z ≤ z') : (ofInt z : Binary f) ≤ ofInt z' :=
  ofRat_mono _ _ (by exact_mod_cast h)

/-- Integers of 64 bits are finite in double precision. -/
theorem isFinite_ofInt {z : Int} (hlow : -2 ^ 64 ≤ z) (hhigh : z ≤ 2 ^ 64) :
    (ofInt z : Double).isFinite = true :=
  isFinite_of_le_of_le (by decide +kernel) (by decide +kernel) (ofInt_mono hlow) (ofInt_mono hhigh)

/-- The product of finite numbers that are not negative keeps the order in both factors. -/
theorem mul_le_mul_of_finite (hx' : x'.isFinite = true) (hy' : y'.isFinite = true)
    (hx : 0 ≤ x) (hy : 0 ≤ y) (hxx' : x ≤ x') (hyy' : y ≤ y') : x * y ≤ x' * y' := by
  have hfinite : (0 : Binary f).isFinite = true := rfl
  have hxf := isFinite_of_le_of_le hfinite hx' hx hxx'
  have hyf := isFinite_of_le_of_le hfinite hy' hy hyy'
  rw [le_iff_value hfinite hyf, zero_eq, value_zero] at hy
  rw [le_iff_value hfinite hxf, zero_eq, value_zero] at hx
  rw [le_iff_value hxf hx'] at hxx'
  rw [le_iff_value hyf hy'] at hyy'
  rw [mul_of_finite hxf hyf, mul_of_finite hx' hy']
  exact ofRat_mono _ _ (mul_le_mul hxx' hyy' hy (hx.trans hxx'))

/-- Over a larger number the quotient is not larger. -/
theorem div_antitone (hz : z.isFinite = true) (hnonneg : 0 ≤ z) (hy : y.isFinite = true)
    (hpos : 0 < x) (h : x ≤ y) : z / y ≤ z / x := by
  have hx : x.isFinite = true := by
    rcases le_cases h with ⟨rfl, -⟩ | ⟨rfl, -⟩ | ⟨hx, -, -⟩
    · cases hpos
    · cases hy
    · exact hx
  have hx' : 0 < x.value := (zero_lt_iff_value hx).1 hpos
  have hvalue : x.value ≤ y.value := (le_iff_value hx hy).1 h
  rw [le_iff_value rfl hz, zero_eq, value_zero] at hnonneg
  rw [div_of_finite hz hx hx'.ne', div_of_finite hz hy (hx'.trans_le hvalue).ne']
  exact ofRat_mono _ _ (div_le_div_of_nonneg_left hnonneg hx' hvalue)

theorem isNaN_convert (x : Binary f) : (x.convert : Binary g).isNaN = x.isNaN := by
  cases x with
  | nan => rfl
  | infinity negative => rfl
  | finite => exact isNaN_ofRat _ _

/-- Rounding into another format keeps the order. -/
theorem convert_mono (h : x ≤ y) : (x.convert : Binary g) ≤ y.convert := by
  rcases le_cases h with ⟨rfl, hy⟩ | ⟨rfl, hx⟩ | ⟨hx, hy, hvalue⟩
  · exact infinity_true_le ((isNaN_convert y).trans hy)
  · exact le_infinity_false ((isNaN_convert x).trans hx)
  · obtain ⟨_, _, _, _, rfl⟩ := exists_finite_eq hx
    obtain ⟨_, _, _, _, rfl⟩ := exists_finite_eq hy
    exact ofRat_mono _ _ hvalue

end Binary

namespace GradientScaling

/-! ### The product -/

/-- The number of elements times the upper bound of the grid. -/
def product (elements : Nat) (high : Int32) : Double :=
  Binary.ofInt elements * Binary.ofInt high.toInt

/-- The largest product. -/
def top : Double :=
  product (2 ^ 64 - 1) Int32.maxValue

variable {n n' : Nat} {high high' : Int32}

theorem isFinite_ofInt_int32 (high : Int32) : (Binary.ofInt high.toInt : Double).isFinite = true :=
  have hlow := Int32.le_toInt high
  have hhigh := Int32.toInt_lt high
  isFinite_ofInt (by omega) (by omega)

/-- More elements and a larger bound that is not negative have no smaller product. -/
theorem product_mono (hn : n ≤ n') (hn' : n' < 2 ^ 64) (hpos : 0 ≤ high) (hhigh : high ≤ high') :
    product n high ≤ product n' high' := by
  have hpos' : 0 ≤ high.toInt := Int32.le_iff_toInt_le.1 hpos
  exact mul_le_mul_of_finite (isFinite_ofInt (by omega) (by omega)) (isFinite_ofInt_int32 high')
    (ofInt_mono (Int.natCast_nonneg n)) (ofInt_mono hpos') (ofInt_mono (by exact_mod_cast hn))
    (ofInt_mono (Int32.le_iff_toInt_le.1 hhigh))

theorem one_le_product (hn : 0 < n) (hn' : n < 2 ^ 64) (hhigh : 0 < high) : 1 ≤ product n high := by
  have hone : product 1 1 = 1 := by decide +kernel
  have hhigh' : 1 ≤ high := by
    rw [Int32.lt_iff_toInt_lt, Int32.toInt_zero] at hhigh
    rw [Int32.le_iff_toInt_le, Int32.toInt_one]
    exact hhigh
  rw [← hone]
  exact product_mono hn hn' (by decide) hhigh'

theorem product_le_top (hn' : n < 2 ^ 64) (hhigh : 0 ≤ high) : product n high ≤ top :=
  product_mono (by omega) (by decide) hhigh (Int32.le_maxValue high)

/-- Without elements, or with a bound that is not positive, there is no positive product. -/
theorem not_zero_lt_product (hn' : n < 2 ^ 64) (h : n = 0 ∨ high ≤ 0) : ¬ 0 < product n high := by
  have hfinite : (Binary.ofInt n : Double).isFinite = true := isFinite_ofInt (by omega) (by omega)
  have hhigh' := isFinite_ofInt_int32 high
  have hzero : (Binary.ofInt 0 : Double).value = 0 := value_zero false
  have hn : 0 ≤ (Binary.ofInt n : Double).value := by
    rw [← hzero]
    exact (le_iff_value rfl hfinite).1 (ofInt_mono (Int.natCast_nonneg n))
  have hexact : (Binary.ofInt n : Double).value * (Binary.ofInt high.toInt : Double).value ≤ 0 := by
    rcases h with rfl | hhigh
    · rw [Int.natCast_zero, hzero, zero_mul]
    · apply mul_nonpos_of_nonneg_of_nonpos hn
      rw [← hzero]
      exact (le_iff_value hhigh' rfl).1 (ofInt_mono (Int32.le_iff_toInt_le.1 hhigh))
  apply Binary.not_lt_of_le
  rw [product, mul_of_finite hfinite hhigh', zero_eq, ← ofRat_zero]
  exact ofRat_mono _ _ hexact

/-! ### The inverse root -/

/-- The factor that belongs to a positive product. -/
def inverseRoot (p : Double) : Single :=
  (1 / p.sqrt).convert

theorem factor_elementCount (elements : Nat) (high : Int32) :
    factor elements high elementCount =
      if 0 < product elements high then inverseRoot (product elements high) else 1 :=
  rfl

/-- The root of a product is finite and not below one. -/
theorem sqrt_of_product {p : Double} (hone : 1 ≤ p) (htop : p ≤ top) :
    p.sqrt.isFinite = true ∧ 1 ≤ p.sqrt := by
  have hlower : (1 : Double).sqrt ≤ p.sqrt := sqrt_mono (by decide +kernel) hone
  have hupper : p.sqrt ≤ top.sqrt :=
    sqrt_mono (Binary.lt_of_lt_of_le (by decide +kernel) hone) htop
  have hsqrt : (1 : Double).sqrt = 1 := by decide +kernel
  rw [hsqrt] at hlower
  exact ⟨isFinite_of_le_of_le (by decide +kernel) (by decide +kernel) hlower hupper, hlower⟩

/-- A larger product has no larger inverse root. -/
theorem inverseRoot_antitone {p p' : Double} (hone : 1 ≤ p) (h : p ≤ p') (htop : p' ≤ top) :
    inverseRoot p' ≤ inverseRoot p := by
  obtain ⟨hfinite, hroot⟩ := sqrt_of_product (Binary.le_trans hone h) htop
  obtain ⟨-, hroot'⟩ := sqrt_of_product hone (Binary.le_trans h htop)
  have hzero : (0 : Double) < 1 := by decide +kernel
  have hsqrt : p.sqrt ≤ p'.sqrt := sqrt_mono (Binary.lt_of_lt_of_le hzero hone) h
  exact convert_mono (div_antitone (by decide +kernel) (by decide +kernel) hfinite
    (Binary.lt_of_lt_of_le hzero hroot') hsqrt)

/-- The ends of the range of products. -/
theorem inverseRoot_one : inverseRoot 1 = 1 := by
  decide +kernel

theorem inverseRoot_top : (inverseRoot top).isFinite = true ∧ 0 < inverseRoot top := by
  decide +kernel

/-! ### The factor -/

theorem factor_of_pos (hn : 0 < n) (hn' : n < 2 ^ 64) (hhigh : 0 < high) :
    factor n high elementCount = inverseRoot (product n high) := by
  rw [factor_elementCount, if_pos]
  exact Binary.lt_of_lt_of_le (by decide +kernel) (one_le_product hn hn' hhigh)

theorem factor_of_not_pos (hn' : n < 2 ^ 64) (h : n = 0 ∨ high ≤ 0) :
    factor n high elementCount = 1 := by
  rw [factor_elementCount, if_neg (not_zero_lt_product hn' h)]

/-- Both the number of elements and the bound are positive, or one of them is not. -/
theorem factor_cases (n : Nat) (high : Int32) : (0 < n ∧ 0 < high) ∨ (n = 0 ∨ high ≤ 0) := by
  rw [Int32.lt_iff_toInt_lt, Int32.le_iff_toInt_le]
  omega

/-- The factor is between that of the largest product and one. -/
theorem factor_bounds (hn' : n < 2 ^ 64) (high : Int32) :
    (elementCount.factor n high).isFinite = true ∧ 0 < elementCount.factor n high ∧
      elementCount.factor n high ≤ 1 := by
  rcases factor_cases n high with ⟨hn, hhigh⟩ | hneither
  · obtain ⟨hfinite, hpos⟩ := inverseRoot_top
    have hone := one_le_product hn hn' hhigh
    have htop : product n high ≤ top :=
      product_le_top hn' (Int32.le_of_lt hhigh)
    have hlower : inverseRoot top ≤ inverseRoot (product n high) :=
      inverseRoot_antitone hone htop (Binary.le_refl (isNaN_of_le htop).2)
    have hupper : inverseRoot (product n high) ≤ inverseRoot 1 :=
      inverseRoot_antitone (Binary.le_refl (isNaN_of_le hone).1) hone htop
    rw [inverseRoot_one] at hupper
    rw [factor_of_pos hn hn' hhigh]
    have hfinite' : (1 : Single).isFinite = true := by decide +kernel
    exact ⟨isFinite_of_le_of_le hfinite hfinite' hlower hupper,
      Binary.lt_of_lt_of_le hpos hlower, hupper⟩
  · rw [factor_of_not_pos hn' hneither]
    decide +kernel

/-- More elements and a larger bound have no larger factor. -/
theorem factor_antitone (hn : n ≤ n') (hn' : n' < 2 ^ 64) (hhigh : high ≤ high') :
    elementCount.factor n' high' ≤ elementCount.factor n high := by
  rcases factor_cases n high with ⟨hpos, hhighpos⟩ | hneither
  · have hhighpos' : 0 < high' := Int32.lt_of_lt_of_le hhighpos hhigh
    rw [factor_of_pos hpos (hn.trans_lt hn') hhighpos,
      factor_of_pos (hpos.trans_le hn) hn' hhighpos']
    exact inverseRoot_antitone (one_le_product hpos (hn.trans_lt hn') hhighpos)
      (product_mono hn hn' (Int32.le_of_lt hhighpos) hhigh)
      (product_le_top hn' (Int32.le_of_lt hhighpos'))
  -- a factor of one is the largest there is
  · rw [factor_of_not_pos (hn.trans_lt hn') hneither]
    exact (factor_bounds hn' high').2.2

/-- **The factor by the number of elements can always be used, and it shrinks**: for every number of
elements with 64 bits and every bound with 32 bits it is finite, positive and not above one; with
more elements, or with a larger bound, it is not larger. This includes the inputs without elements
and the bounds that are not positive, whose factor is one. -/
theorem element_count_factor_shrinks (n : UInt64) (high : Int32) :
    (elementCount.factor n.toNat high).isFinite = true ∧
    0 < elementCount.factor n.toNat high ∧
    elementCount.factor n.toNat high ≤ 1 ∧
    (∀ n' : UInt64, n ≤ n' → elementCount.factor n'.toNat high ≤ elementCount.factor n.toNat high) ∧
    ∀ high' : Int32, high ≤ high' →
      elementCount.factor n.toNat high' ≤ elementCount.factor n.toNat high := by
  obtain ⟨hfinite, hpos, hone⟩ := factor_bounds n.toNat_lt high
  refine ⟨hfinite, hpos, hone, ?_, ?_⟩
  · intro n' hn
    exact factor_antitone (UInt64.le_iff_toNat_le.1 hn) n'.toNat_lt (Int32.le_refl high)
  · intro high' hhigh
    exact factor_antitone (Nat.le_refl _) n.toNat_lt hhigh

/-- Sixteen elements against none, and the bound of unsigned bytes against a negative one. -/
theorem element_count_factor_shrinks_from_fallback :
    ((0 : UInt64) ≤ 16 ∧ (-128 : Int32) ≤ 255) ∧
      elementCount.factor (16 : UInt64).toNat 255 ≤ elementCount.factor (0 : UInt64).toNat 255 ∧
      elementCount.factor (16 : UInt64).toNat 255 ≤
        elementCount.factor (16 : UInt64).toNat (-128) := by
  obtain ⟨-, -, -, hcount, -⟩ := element_count_factor_shrinks 0 255
  obtain ⟨-, -, -, -, hbound⟩ := element_count_factor_shrinks 16 (-128)
  exact ⟨by decide, hcount 16 (by decide), hbound 255 (by decide)⟩

end GradientScaling

end FakeQuant
