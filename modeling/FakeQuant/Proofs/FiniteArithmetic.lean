import FakeQuant.Proofs.Ordering
import FakeQuant.Proofs.RoundedValues

/-!
# Arithmetic on finite numbers

An operation on finite numbers rounds the exact result (`add_of_finite`, `sub_of_finite`,
`mul_of_finite`, `div_of_finite`), and the value of a finite number is one that rounding keeps
(`ofRat_value`). Three consequences carry what the kernels do with masked elements:

* a finite number times a zero is a zero, and any other number times a zero has no value;
* a zero that is added changes no number but the negative zero, and a sum that does not start from
  the negative zero never becomes it, because a sum of numbers does not vanish by rounding
  (`add_ne_negativeZero`). So zeros can be left out of a sum from left to right
  (`foldl_add_filter`);
* the not-a-number value stays in a sum once it is there (`foldl_add_nan`).
-/

namespace FakeQuant

namespace Binary

variable {f : Format} {x y : Binary f}

/-! ### The exact result, rounded -/

theorem add_of_finite (hx : x.isFinite = true) (hy : y.isFinite = true) :
    x + y = ofRat (x.isNegative && y.isNegative) (x.value + y.value) := by
  obtain ⟨_, _, _, _, rfl⟩ := exists_finite_eq hx
  obtain ⟨_, _, _, _, rfl⟩ := exists_finite_eq hy
  rfl

theorem mul_of_finite (hx : x.isFinite = true) (hy : y.isFinite = true) :
    x * y = ofRat (x.isNegative ^^ y.isNegative) (x.value * y.value) := by
  obtain ⟨_, _, _, _, rfl⟩ := exists_finite_eq hx
  obtain ⟨_, _, _, _, rfl⟩ := exists_finite_eq hy
  rfl

theorem div_of_finite (hx : x.isFinite = true) (hy : y.isFinite = true) (hzero : y.value ≠ 0) :
    x / y = ofRat (x.isNegative ^^ y.isNegative) (x.value / y.value) := by
  obtain ⟨_, _, _, _, rfl⟩ := exists_finite_eq hx
  obtain ⟨_, _, _, _, rfl⟩ := exists_finite_eq hy
  exact if_neg hzero

/-- Over a zero, only another zero has no quotient. -/
theorem div_of_value_zero (hx : x.isFinite = true) (hy : y.isFinite = true) (hzero : y.value = 0) :
    x / y = if x.value = 0 then nan else infinity (x.isNegative ^^ y.isNegative) := by
  obtain ⟨_, _, _, _, rfl⟩ := exists_finite_eq hx
  obtain ⟨_, _, _, _, rfl⟩ := exists_finite_eq hy
  exact if_pos hzero

theorem isFinite_neg (x : Binary f) : (-x).isFinite = x.isFinite := by
  cases x <;> rfl

theorem value_neg (x : Binary f) : (-x).value = -x.value := by
  cases x with
  | nan => exact neg_zero.symm
  | infinity negative => exact neg_zero.symm
  | finite negative significand exponent h =>
    change value (finite (!negative) significand exponent h) = _
    rw [value_finite, value_finite]
    cases negative with
    | true => exact (neg_neg _).symm
    | false => rfl

theorem sub_of_finite (hx : x.isFinite = true) (hy : y.isFinite = true) :
    x - y = ofRat (x.isNegative && (-y).isNegative) (x.value - y.value) := by
  have hsub : x - y = x + -y := rfl
  rw [hsub, add_of_finite hx ((isFinite_neg y).trans hy), value_neg, ← sub_eq_add_neg]

/-! ### The values of finite numbers -/

/-- The value of a number is one that rounding keeps. -/
theorem rounded_value (x : Binary f) : rounded f x.value = x.value := by
  cases x with
  | nan => exact rounded_zero f
  | infinity negative => exact rounded_zero f
  | finite negative significand exponent canonical =>
    have hlimit := canonical.1
    have hmin := canonical.2.1
    rw [value_finite]
    cases negative with
    | true =>
      rw [if_pos rfl, rounded_neg]
      exact congrArg Neg.neg (rounded_eq_self (z := significand) hlimit hmin)
    | false => exact rounded_eq_self (z := significand) hlimit hmin

/-- No number is above the largest significand at the largest exponent. -/
theorem abs_value_le (x : Binary f) : |x.value| ≤ (f.limit - 1) * (2 : Rat) ^ f.maxExponent := by
  have hlimit : (1 : Rat) ≤ f.limit := by exact_mod_cast Nat.pow_pos (by decide)
  have hnonneg : 0 ≤ (f.limit - 1) * (2 : Rat) ^ f.maxExponent :=
    mul_nonneg (sub_nonneg.2 hlimit) (by positivity)
  cases x with
  | nan => simpa [value] using hnonneg
  | infinity negative => simpa [value] using hnonneg
  | finite negative significand exponent canonical =>
    have hsignificand : (significand : Rat) ≤ f.limit - 1 := by
      rw [le_sub_iff_add_le]
      exact_mod_cast canonical.1
    have hstep : (2 : Rat) ^ exponent ≤ (2 : Rat) ^ f.maxExponent :=
      zpow_le_zpow_right₀ (by norm_num) canonical.2.2.1
    have habs : |(finite negative significand exponent canonical).value|
        = significand * (2 : Rat) ^ exponent := by
      rw [value_finite, apply_ite abs, abs_neg, ite_self, abs_of_nonneg (by positivity)]
    rw [habs]
    exact mul_le_mul hsignificand hstep (by positivity) (sub_nonneg.2 hlimit)

/-- A finite result of rounding is worth the rounded value. -/
theorem value_ofRat {negative : Bool} {q : Rat}
    (h : (ofRat negative q : Binary f).isFinite = true) :
    (ofRat negative q : Binary f).value = rounded f q := by
  rcases lt_or_ge |rounded f q| f.overflow with hlt | hle
  · exact (ofRat_of_lt_overflow negative hlt).2
  · rw [ofRat_of_overflow_le negative hle] at h
    cases h

/-- A finite number with the value zero is one of the zeros. -/
theorem eq_zero_of_value (hx : x.isFinite = true) (h : x.value = 0) : x = zero x.isNegative := by
  obtain ⟨negative, significand, exponent, canonical, rfl⟩ := exists_finite_eq hx
  have hunit : (2 : Rat) ^ exponent ≠ 0 := by positivity
  have hvalue : (significand : Rat) * (2 : Rat) ^ exponent = 0 := by
    rw [value_finite] at h
    cases negative with
    | true => exact neg_eq_zero.1 h
    | false => exact h
  have hzero : significand = 0 := by
    exact_mod_cast (mul_eq_zero.1 hvalue).resolve_right hunit
  subst hzero
  -- a zero is no normal number, so it has the least exponent
  have hexponent : exponent = f.minExponent :=
    canonical.2.2.2.resolve_left (Nat.not_le.2 f.normalStart_pos)
  subst hexponent
  rfl

/-- The value of a finite number that is not zero rounds to the number. -/
theorem ofRat_value (hx : x.isFinite = true) (h : x.value ≠ 0) (zeroNegative : Bool) :
    ofRat zeroNegative x.value = x := by
  obtain ⟨negative, significand, exponent, canonical, rfl⟩ := exists_finite_eq hx
  have hunit : (0 : Rat) < (2 : Rat) ^ exponent := by positivity
  have hsignificand : 0 < significand := by
    rcases Nat.eq_zero_or_pos significand with rfl | hpos
    · refine absurd ?_ h
      rw [value_finite, Nat.cast_zero, zero_mul, neg_zero, ite_self]
    · exact hpos
  have hcast : (0 : Rat) < significand := by exact_mod_cast hsignificand
  -- the number lies in the interior of its own rounding interval
  have hmagnitude (negative : Bool) :
      (ofMagnitude negative (significand * (2 : Rat) ^ exponent) : Binary f)
        = finite negative significand exponent canonical := by
    apply ofMagnitude_of_contains negative canonical hsignificand
    have hmargin := RoundingInterval.marginBelow_pos f significand exponent
    apply RoundingInterval.contains_of_lt
    · rw [RoundingInterval.around_lower]
      linarith
    · rw [RoundingInterval.around_upper]
      linarith
  have hpos : 0 < significand * (2 : Rat) ^ exponent := by positivity
  rw [value_finite]
  cases negative with
  | true =>
    rw [if_pos rfl, ofRat_of_neg _ (neg_lt_zero.2 hpos), neg_neg]
    exact hmagnitude true
  | false =>
    rw [if_neg Bool.false_ne_true, ofRat_of_pos _ hpos]
    exact hmagnitude false

theorem isFinite_ofRat_value (hx : x.isFinite = true) (negative : Bool) :
    (ofRat negative x.value : Binary f).isFinite = true := by
  by_cases h : x.value = 0
  · rw [h, ofRat_zero]
    rfl
  · rw [ofRat_value hx h]
    exact hx

theorem value_ofRat_value (hx : x.isFinite = true) (negative : Bool) :
    (ofRat negative x.value : Binary f).value = x.value :=
  (value_ofRat (isFinite_ofRat_value hx negative)).trans (rounded_value x)

/-- Equal numbers are the same number, or they are zeros. -/
theorem eq_or_zeros_of_numEq (hx : x.isFinite = true) (hy : y.isFinite = true)
    (h : x.numEq y = true) : x = y ∨ ∃ a b, x = zero a ∧ y = zero b := by
  have hvalue := (numEq_iff_value hx hy).1 h
  by_cases hzero : x.value = 0
  · exact .inr ⟨_, _, eq_zero_of_value hx hzero, eq_zero_of_value hy (hvalue.symm.trans hzero)⟩
  · left
    rw [← ofRat_value hx hzero false, hvalue, ofRat_value hy (hvalue ▸ hzero)]

theorem floor_of_finite (hx : x.isFinite = true) :
    x.floor = ofRat x.isNegative (x.value.floor : Int) := by
  obtain ⟨_, _, _, _, rfl⟩ := exists_finite_eq hx
  rfl

theorem roundEven_of_finite (hx : x.isFinite = true) :
    x.roundEven = ofRat x.isNegative (roundHalfEven x.value : Int) := by
  obtain ⟨_, _, _, _, rfl⟩ := exists_finite_eq hx
  rfl

theorem isNaN_floor (x : Binary f) : x.floor.isNaN = x.isNaN := by
  cases x with
  | nan => rfl
  | infinity negative => rfl
  | finite => exact isNaN_ofRat _ _

theorem isNaN_roundEven (x : Binary f) : x.roundEven.isNaN = x.isNaN := by
  cases x with
  | nan => rfl
  | infinity negative => rfl
  | finite => exact isNaN_ofRat _ _

/-- Adding a finite number neither loses nor restores a value. -/
theorem isNaN_add (x : Binary f) (hy : y.isFinite = true) : (x + y).isNaN = x.isNaN := by
  obtain ⟨_, _, _, _, rfl⟩ := exists_finite_eq hy
  cases x with
  | nan => rfl
  | infinity negative => rfl
  | finite => exact isNaN_ofRat _ _

/-- Neither does the product with a finite number that is not zero. -/
theorem isNaN_mul (x : Binary f) (hy : y.isFinite = true) (hzero : y.value ≠ 0) :
    (x * y).isNaN = x.isNaN := by
  obtain ⟨_, _, _, _, rfl⟩ := exists_finite_eq hy
  cases x with
  | nan => rfl
  | infinity negative =>
    change (if _ = (0 : Rat) then nan else infinity _).isNaN = false
    rw [if_neg hzero]
    rfl
  | finite => exact isNaN_ofRat _ _

/-- The value of a finite number is an integer with the bits of a significand at an exponent of the
format, and the leading bit is set unless the exponent is the least one. -/
theorem exists_significand (hx : x.isFinite = true) :
    ∃ z e : Int, x.value = z * (2 : Rat) ^ e ∧ z.natAbs < f.limit ∧ f.minExponent ≤ e ∧
      (f.normalStart ≤ z.natAbs ∨ e = f.minExponent) := by
  obtain ⟨negative, significand, exponent, canonical, rfl⟩ := exists_finite_eq hx
  have hlimit := canonical.1
  have hmin := canonical.2.1
  have hnormal := canonical.2.2.2
  rw [value_finite]
  cases negative with
  | true =>
    refine ⟨-significand, exponent, ?_, ?_, hmin, ?_⟩
    · rw [if_pos rfl, Int.cast_neg, neg_mul, Int.cast_natCast]
    · rwa [Int.natAbs_neg, Int.natAbs_natCast]
    · rwa [Int.natAbs_neg, Int.natAbs_natCast]
  | false => exact ⟨significand, exponent, rfl, hlimit, hmin, hnormal⟩

/-- Every finite number is an integer multiple of the least positive one. -/
theorem exists_value_eq (x : Binary f) :
    ∃ z : Int, x.value = z * (2 : Rat) ^ f.minExponent := by
  cases x with
  | nan => exact ⟨0, by simp [value]⟩
  | infinity negative => exact ⟨0, by simp [value]⟩
  | finite negative significand exponent canonical =>
    obtain ⟨k, hk⟩ := Int.eq_ofNat_of_zero_le (sub_nonneg.2 canonical.2.1)
    have hexponent : (2 : Rat) ^ exponent = 2 ^ k * (2 : Rat) ^ f.minExponent := by
      rw [← zpow_natCast, ← zpow_add₀ (by norm_num)]
      congr 1
      omega
    rw [value_finite, hexponent]
    cases negative with
    | true =>
      refine ⟨-(significand * 2 ^ k), ?_⟩
      rw [if_pos rfl]
      push_cast
      ring
    | false =>
      refine ⟨significand * 2 ^ k, ?_⟩
      rw [if_neg Bool.false_ne_true]
      push_cast
      ring

/-! ### Zeros and ones -/

/-- A zero that is added to anything but the negative zero changes nothing. -/
theorem add_zero_of_ne (hx : x ≠ zero true) (negative : Bool) : x + zero negative = x := by
  by_cases hfinite : x.isFinite = true
  · rw [add_of_finite hfinite rfl, value_zero, add_zero]
    by_cases hvalue : x.value = 0
    · have hzero := eq_zero_of_value hfinite hvalue
      have hsign : x.isNegative = false := by
        rw [Bool.eq_false_iff]
        intro hsign
        rw [hsign] at hzero
        exact hx hzero
      rw [hvalue, hsign, Bool.false_and, ofRat_zero, hzero, hsign]
    · exact ofRat_value hfinite hvalue _
  · cases x with
    | nan => rfl
    | infinity negative => rfl
    | finite => exact absurd rfl hfinite

/-- What is not smaller than the least positive number does not round to a zero. -/
theorem ofRat_ne_zero {q : Rat} (h : (2 : Rat) ^ f.minExponent ≤ |q|) (a b : Bool) :
    (ofRat a q : Binary f) ≠ zero b := by
  intro hzero
  rcases lt_or_ge |rounded f q| f.overflow with hlt | hle
  · have hpos : (0 : Rat) < |rounded f q| :=
      lt_of_lt_of_le (by positivity) (le_abs_rounded le_rfl h)
    have hvalue := (ofRat_of_lt_overflow a hlt).2
    rw [hzero, value_zero] at hvalue
    rw [← hvalue, abs_zero] at hpos
    exact lt_irrefl _ hpos
  · rw [ofRat_of_overflow_le a hle] at hzero
    cases hzero

/-- The exact sum of two numbers is zero or not smaller than the least positive number. -/
theorem le_abs_add (x y : Binary f) (h : x.value + y.value ≠ 0) :
    (2 : Rat) ^ f.minExponent ≤ |x.value + y.value| := by
  obtain ⟨z, hz⟩ := exists_value_eq x
  obtain ⟨z', hz'⟩ := exists_value_eq y
  have hunit : (0 : Rat) < (2 : Rat) ^ f.minExponent := by positivity
  have hmultiple : x.value + y.value = (z + z' : Int) * (2 : Rat) ^ f.minExponent := by
    rw [hz, hz']
    push_cast
    ring
  rw [hmultiple] at h ⊢
  have hne : z + z' ≠ 0 := by exact_mod_cast left_ne_zero_of_mul h
  have hone : (1 : Rat) ≤ |((z + z' : Int) : Rat)| := by exact_mod_cast Int.one_le_abs hne
  rw [abs_mul, abs_of_pos hunit]
  exact le_mul_of_one_le_left hunit.le hone

theorem value_nonpos (hx : x.isNegative = true) : x.value ≤ 0 := by
  cases x with
  | nan => exact le_rfl
  | infinity negative => exact le_rfl
  | finite negative significand exponent h =>
    have hsign : negative = true := hx
    rw [value_finite, hsign, if_pos rfl]
    exact neg_nonpos.2 (by positivity)

/-- A sum that starts from anything but the negative zero does not become the negative zero. -/
theorem add_ne_negativeZero (hx : x ≠ zero true) (y : Binary f) : x + y ≠ zero true := by
  cases x with
  | nan => exact nofun
  | infinity a =>
    cases y with
    | nan => exact nofun
    | infinity b =>
      change (if a = b then infinity a else nan) ≠ zero true
      split <;> exact nofun
    | finite => exact nofun
  | finite a significand exponent h =>
    cases y with
    | nan => exact nofun
    | infinity b => exact nofun
    | finite b significand' exponent' h' =>
      rw [add_of_finite rfl rfl]
      by_cases hsum : (finite a significand exponent h).value
          + (finite b significand' exponent' h').value = 0
      -- only two negative zeros add up to the negative zero
      · rw [hsum, ofRat_zero]
        intro hzero
        have hsigns : (a && b) = true := congrArg isNegative hzero
        obtain ⟨rfl, rfl⟩ := Bool.and_eq_true_iff.1 hsigns
        have hle : (finite true significand exponent h).value ≤ 0 := value_nonpos rfl
        have hle' : (finite true significand' exponent' h').value ≤ 0 := value_nonpos rfl
        exact hx (eq_zero_of_value rfl (by linarith))
      · exact ofRat_ne_zero (le_abs_add _ _ hsum) _ _

theorem isFinite_add_zero (hx : x.isFinite = true) (negative : Bool) :
    (x + zero negative).isFinite = true := by
  rw [add_of_finite hx rfl, value_zero, add_zero]
  exact isFinite_ofRat_value hx _

theorem isFinite_zero_add (hx : x.isFinite = true) (negative : Bool) :
    (zero negative + x).isFinite = true := by
  rw [add_of_finite rfl hx, value_zero, zero_add]
  exact isFinite_ofRat_value hx _

theorem value_add_zero (hx : x.isFinite = true) (negative : Bool) :
    (x + zero negative).value = x.value := by
  rw [add_of_finite hx rfl, value_zero, add_zero]
  exact value_ofRat_value hx _

theorem value_zero_add (hx : x.isFinite = true) (negative : Bool) :
    (zero negative + x).value = x.value := by
  rw [add_of_finite rfl hx, value_zero, zero_add]
  exact value_ofRat_value hx _

/-- A finite number times a zero is a zero. -/
theorem mul_zero_of_finite (hx : x.isFinite = true) (negative : Bool) :
    x * zero negative = zero (x.isNegative ^^ negative) := by
  rw [mul_of_finite hx rfl, value_zero, mul_zero, ofRat_zero]
  rfl

theorem zero_mul_of_finite (hx : x.isFinite = true) (negative : Bool) :
    zero negative * x = zero (negative ^^ x.isNegative) := by
  rw [mul_of_finite rfl hx, value_zero, zero_mul, ofRat_zero]
  rfl

/-- Anything but a finite number times a zero has no value. -/
theorem zero_mul_of_not_finite (hx : x.isFinite = false) (negative : Bool) :
    zero negative * x = nan := by
  cases x with
  | nan => rfl
  | infinity a => exact if_pos (value_zero negative)
  | finite => cases hx

/-- One times a finite number is the number. -/
theorem one_mul_of_finite {x : Single} (hx : x.isFinite = true) : 1 * x = x := by
  have hone : (1 : Single).isFinite = true ∧ (1 : Single).value = 1 ∧
      (1 : Single).isNegative = false := by decide +kernel
  rw [mul_of_finite hone.1 hx, hone.2.1, one_mul, hone.2.2, Bool.false_xor]
  by_cases hzero : x.value = 0
  · rw [hzero, ofRat_zero]
    exact (eq_zero_of_value hx hzero).symm
  · exact ofRat_value hx hzero _

/-- The inverse of a finite number is infinite or a finite number that does not vanish, since the
largest number is below the inverse of the least positive one. -/
theorem one_div_cases {x : Single} (hx : x.isFinite = true) :
    (∃ negative, 1 / x = infinity negative) ∨
      (1 / x).isFinite = true ∧ (1 / x).value = rounded .single (1 / x.value) ∧
        (1 / x).value ≠ 0 := by
  have hone : (1 : Single).isFinite = true ∧ (1 : Single).value = 1 := by decide +kernel
  by_cases hzero : x.value = 0
  · left
    rw [div_of_value_zero hone.1 hx hzero, hone.2, if_neg one_ne_zero]
    exact ⟨_, rfl⟩
  · rw [div_of_finite hone.1 hx hzero, hone.2]
    rcases lt_or_ge |rounded .single (1 / x.value)| Format.single.overflow with hlt | hle
    · right
      obtain ⟨hfinite, hvalue⟩ := ofRat_of_lt_overflow (f := .single) _ hlt
      have hlargest : |x.value| ≤ (2 : Rat) ^ (149 : Int) := by
        have hmax := abs_value_le x
        rw [limit_single, maxExponent_single] at hmax
        exact hmax.trans (by norm_num)
      have hleast : (2 : Rat) ^ Format.single.minExponent ≤ |1 / x.value| := by
        rw [minExponent_single, zpow_neg, ← one_div, abs_div, abs_one]
        exact one_div_le_one_div_of_le (abs_pos.2 hzero) hlargest
      have hround := le_abs_rounded (f := .single) le_rfl hleast
      refine ⟨hfinite, hvalue, ?_⟩
      rw [hvalue, ← abs_pos]
      exact lt_of_lt_of_le (by positivity) hround
    · left
      exact ⟨_, ofRat_of_overflow_le _ hle⟩

/-- The sign of a zero factor does not show in a sum that is not the negative zero. -/
theorem add_mul_eq_of_numEq {start : Binary f} (hstart : start ≠ zero true)
    (hx : x.isFinite = true) (hy : y.isFinite = true) (h : x.numEq y = true) (z : Binary f) :
    start + x * z = start + y * z := by
  rcases eq_or_zeros_of_numEq hx hy h with rfl | ⟨a, b, rfl, rfl⟩
  · rfl
  · cases hz : z.isFinite with
    | true =>
      rw [zero_mul_of_finite hz, zero_mul_of_finite hz, add_zero_of_ne hstart,
        add_zero_of_ne hstart]
    | false => rw [zero_mul_of_not_finite hz, zero_mul_of_not_finite hz]

/-! ### Sums from left to right -/

/-- Sums start from the positive zero. -/
theorem zero_ne_negativeZero : (0 : Single) ≠ zero true := by
  decide +kernel

section Sums

variable {ι : Type} (term : ι → Binary f)

/-- Zeros can be left out of a sum that does not start from the negative zero. -/
theorem foldl_add_filter (p : ι → Bool) {l : List ι}
    (h : ∀ i ∈ l, p i = false → ∃ negative, term i = zero negative) {start : Binary f}
    (hstart : start ≠ zero true) :
    (l.map term).foldl (· + ·) start = ((l.filter p).map term).foldl (· + ·) start := by
  induction l generalizing start with
  | nil => rfl
  | cons i l ih =>
    have htail : ∀ j ∈ l, p j = false → ∃ negative, term j = zero negative := fun j hj =>
      h j (List.mem_cons_of_mem i hj)
    rw [List.map_cons, List.foldl_cons]
    cases hp : p i with
    | true =>
      rw [List.filter_cons_of_pos hp, List.map_cons, List.foldl_cons]
      exact ih htail (add_ne_negativeZero hstart _)
    | false =>
      obtain ⟨negative, hzero⟩ := h i List.mem_cons_self hp
      rw [List.filter_cons_of_neg (by rw [hp]; exact Bool.false_ne_true), hzero,
        add_zero_of_ne hstart]
      exact ih htail hstart

/-- Terms that add up to the same with everything but the negative zero have the same sum. -/
theorem foldl_add_congr {term term' : ι → Binary f} {l : List ι}
    (h : ∀ i ∈ l, ∀ start, start ≠ zero true → start + term i = start + term' i)
    {start : Binary f} (hstart : start ≠ zero true) :
    (l.map term).foldl (· + ·) start = (l.map term').foldl (· + ·) start := by
  induction l generalizing start with
  | nil => rfl
  | cons i l ih =>
    rw [List.map_cons, List.foldl_cons, List.map_cons, List.foldl_cons,
      ← h i List.mem_cons_self start hstart]
    exact ih (fun j hj => h j (List.mem_cons_of_mem i hj)) (add_ne_negativeZero hstart _)

theorem foldl_nan_add (l : List (Binary f)) : l.foldl (· + ·) nan = nan := by
  induction l with
  | nil => rfl
  | cons y l ih => exact ih

theorem add_nan (x : Binary f) : x + nan = nan := by
  cases x <;> rfl

/-- A sum with a term that has no value has none. -/
theorem foldl_add_nan {l : List ι} (h : ∃ i ∈ l, term i = nan) (start : Binary f) :
    (l.map term).foldl (· + ·) start = nan := by
  induction l generalizing start with
  | nil =>
    obtain ⟨i, hi, -⟩ := h
    cases hi
  | cons j l ih =>
    rw [List.map_cons, List.foldl_cons]
    obtain ⟨i, hi, hterm⟩ := h
    rcases List.mem_cons.1 hi with rfl | hi
    · rw [hterm, add_nan]
      exact foldl_nan_add _
    · exact ih ⟨i, hi, hterm⟩ _

end Sums

end Binary

end FakeQuant
