import FakeQuant.Proofs.FiniteArithmetic

/-!
# Integers among the numbers

A number represents an integer if it is finite and worth it (`Binary.Represents`); a zero of either
sign represents zero. An integer with more bits than a significand is rounded at a place in front of
the point, so it becomes another integer (`Binary.exists_rounded_intCast`): what an integer rounds
to is an integer or an infinity (`Binary.isIntegral_ofRat`).

In single precision the integers up to `2 ^ 24` are kept (`Binary.represents_ofRat`), and a finite
number is an integer or smaller than `2 ^ 23` (`Binary.eq_intCast_or_abs_lt`). So the largest
integer not above it is a number (`Binary.represents_floor`).
-/

namespace FakeQuant

theorem abs_intCast (z : Int) : |(z : Rat)| = z.natAbs := by
  rw [Nat.cast_natAbs, Int.cast_abs]

theorem abs_cast_le {z : Int} {n : Nat} (h : z.natAbs ≤ n) : |(z : Rat)| ≤ n := by
  rw [abs_intCast]
  exact_mod_cast h

namespace Binary

/-! ### Rounding an integer -/

section Rounding

variable {f : Format}

/-- Integers up to the limit of the significands are kept. -/
theorem rounded_intCast (hmin : f.minExponent ≤ 0) {z : Int} (hz : z.natAbs ≤ f.limit) :
    rounded f z = z := by
  rcases hz.lt_or_eq with hlt | heq
  · have hself := rounded_eq_self (e := 0) hlt hmin
    rwa [zpow_zero, mul_one] at hself
  -- the limit is a power of two
  · have hlimit : rounded f f.limit = f.limit := by
      rw [cast_limit]
      exact rounded_two_pow (hmin.trans (Int.natCast_nonneg _))
    rcases Int.natAbs_eq z with h | h
    · rw [h, heq, Int.cast_natCast, hlimit]
    · rw [h, heq, Int.cast_neg, Int.cast_natCast, rounded_neg, hlimit]

/-- Integers round to integers. -/
theorem exists_rounded_intCast (hmin : f.minExponent ≤ 0) (z : Int) :
    ∃ k : Int, rounded f z = k := by
  rcases le_or_gt z.natAbs f.limit with hsmall | hlarge
  · exact ⟨z, rounded_intCast hmin hsmall⟩
  have habs : (f.limit : Rat) ≤ |(z : Rat)| := by
    rw [abs_intCast]
    exact_mod_cast hlarge.le
  have hlimit : (0 : Rat) < f.limit := by exact_mod_cast Nat.pow_pos (by decide)
  have hpos : 0 < |(z : Rat)| := hlimit.trans_le habs
  have hplace : 0 ≤ lastPlace f |(z : Rat)| := by
    by_contra hneg
    have hone : (2 : Rat) ^ lastPlace f |(z : Rat)| ≤ 1 :=
      zpow_le_one_of_nonpos₀ (by norm_num) (not_le.1 hneg).le
    have hlt := (lt_two_pow_lastPlace (f := f) hpos).trans_le
      (mul_le_mul_of_nonneg_left hone hlimit.le)
    linarith
  -- so the magnitude becomes an integer times a natural power of two
  obtain ⟨n, hn⟩ := Int.eq_ofNat_of_zero_le hplace
  obtain ⟨k, hk⟩ : ∃ k : Int, rounded f |(z : Rat)| = k := by
    refine ⟨roundHalfEven (|(z : Rat)| / (2 : Rat) ^ lastPlace f |(z : Rat)|) * 2 ^ n, ?_⟩
    rw [rounded_of_pos hpos, roundedMagnitude, hn, zpow_natCast]
    push_cast
    rfl
  rcases abs_cases (z : Rat) with ⟨h, -⟩ | ⟨h, -⟩
  · exact ⟨k, by rwa [h] at hk⟩
  · rw [h, rounded_neg, neg_eq_iff_eq_neg] at hk
    exact ⟨-k, by rw [hk, Int.cast_neg]⟩

end Rounding

/-! ### Numbers that are integers -/

/-- The number is finite and its value is the integer. A zero of either sign represents zero. -/
def Represents (x : Single) (z : Int) : Prop :=
  x.isFinite = true ∧ x.value = z

instance (x : Single) (z : Int) : Decidable (x.Represents z) :=
  inferInstanceAs (Decidable (_ ∧ _))

theorem Represents.numEq {x y : Single} {z : Int} (hx : x.Represents z) (hy : y.Represents z) :
    x.numEq y = true :=
  (numEq_iff_value hx.1 hy.1).2 (hx.2.trans hy.2.symm)

/-- A number represents one integer at most. -/
theorem Represents.unique {x : Single} {z z' : Int} (hx : x.Represents z) (hx' : x.Represents z') :
    z = z' := by
  exact_mod_cast hx.2.symm.trans hx'.2

theorem represents_ofRat {z : Int} (hz : z.natAbs ≤ 2 ^ 24) (zeroNegative : Bool) :
    (ofRat zeroNegative z : Single).Represents z := by
  have hkeep : rounded .single z = z := rounded_intCast (by decide) hz
  have hbound : |(z : Rat)| ≤ (2 : Rat) ^ (24 : Int) := by
    exact_mod_cast abs_cast_le hz
  obtain ⟨hfinite, hvalue⟩ :=
    ofRat_of_abs_le (f := .single) zeroNegative (by decide) (by decide) hbound
  exact ⟨hfinite, hvalue.trans hkeep⟩

/-- Small integers are subtracted exactly. -/
theorem Represents.sub {x y : Single} {z z' : Int} (hx : x.Represents z) (hy : y.Represents z')
    (hsmall : (z - z').natAbs ≤ 2 ^ 24) : (x - y).Represents (z - z') := by
  rw [sub_of_finite hx.1 hy.1, hx.2, hy.2, ← Int.cast_sub]
  exact represents_ofRat hsmall _

/-- The nearest integer of a finite number, if it is small. -/
theorem represents_roundEven {x : Single} (hx : x.isFinite = true) {z : Int}
    (hround : roundHalfEven x.value = z) (hsmall : z.natAbs ≤ 2 ^ 24) :
    x.roundEven.Represents z := by
  rw [roundEven_of_finite hx, hround]
  exact represents_ofRat hsmall _

/-- A finite number is an integer, or it has a place behind the point and is small. -/
theorem eq_intCast_or_abs_lt {x : Single} (hx : x.isFinite = true) :
    (∃ z : Int, x.value = z) ∨ |x.value| < 2 ^ 23 := by
  obtain ⟨z, e, hvalue, hlimit, -⟩ := exists_significand hx
  rw [limit_single] at hlimit
  rcases le_or_gt 0 e with he | he
  · obtain ⟨n, rfl⟩ := Int.eq_ofNat_of_zero_le he
    refine .inl ⟨z * 2 ^ n, ?_⟩
    rw [hvalue, zpow_natCast]
    push_cast
    rfl
  · right
    have hlimit' : |(z : Rat)| ≤ ((2 ^ 24 - 1 : Nat) : Rat) := abs_cast_le (by omega)
    have hunit : (2 : Rat) ^ e ≤ (2 : Rat) ^ (-1 : Int) :=
      zpow_le_zpow_right₀ (by norm_num) (by omega)
    have hpos : (0 : Rat) < (2 : Rat) ^ e := by positivity
    rw [hvalue, abs_mul, abs_of_pos hpos]
    calc |(z : Rat)| * (2 : Rat) ^ e ≤ ((2 ^ 24 - 1 : Nat) : Rat) * (2 : Rat) ^ (-1 : Int) :=
          mul_le_mul hlimit' hunit hpos.le (Nat.cast_nonneg _)
      _ < 2 ^ 23 := by norm_num

/-- The largest integer not above a finite number is a number: there is nothing to round. -/
theorem represents_floor {x : Single} (hx : x.isFinite = true) : x.floor.Represents ⌊x.value⌋ := by
  rw [floor_of_finite hx]
  rcases eq_intCast_or_abs_lt hx with ⟨z, hz⟩ | hsmall
  · have hfloor : x.value.floor = z := (congrArg Int.floor hz).trans (Int.floor_intCast z)
    have hfloor' : ((x.value.floor : Int) : Rat) = x.value := by rw [hfloor, hz]
    have hfinite := isFinite_ofRat_value hx x.isNegative
    have hvalue := value_ofRat_value hx x.isNegative
    rw [← hfloor'] at hfinite hvalue
    exact ⟨hfinite, hvalue.trans (hfloor'.trans hfloor'.symm)⟩
  · refine represents_ofRat ?_ _
    obtain ⟨hlow, hhigh⟩ := abs_lt.1 hsmall
    have hle : -2 ^ 23 ≤ ⌊x.value⌋ := Int.le_floor.2 (by exact_mod_cast hlow.le)
    have hlt : ⌊x.value⌋ < 2 ^ 23 := Int.floor_lt.2 (by exact_mod_cast hhigh)
    change ⌊x.value⌋.natAbs ≤ _
    omega

/-- An integer or an infinity. -/
def IsIntegral (x : Single) : Prop :=
  (∃ z : Int, x.Represents z) ∨ ∃ negative, x = infinity negative

theorem IsIntegral.isNaN {x : Single} (h : x.IsIntegral) : x.isNaN = false := by
  obtain ⟨z, hz⟩ | ⟨negative, rfl⟩ := h
  · exact isNaN_of_isFinite hz.1
  · rfl

/-- What an integer rounds to is an integer or an infinity. -/
theorem isIntegral_ofRat (negative : Bool) (z : Int) : (ofRat negative z : Single).IsIntegral := by
  rcases lt_or_ge |rounded .single z| Format.single.overflow with hlt | hle
  · obtain ⟨hfinite, hvalue⟩ := ofRat_of_lt_overflow (f := .single) negative hlt
    obtain ⟨k, hk⟩ := exists_rounded_intCast (f := .single) (by decide) z
    exact .inl ⟨k, hfinite, hvalue.trans hk⟩
  · exact .inr ⟨_, ofRat_of_overflow_le negative hle⟩

theorem isIntegral_floor {x : Single} (hx : x.isNaN = false) : x.floor.IsIntegral := by
  cases x with
  | nan => cases hx
  | infinity negative => exact .inr ⟨negative, rfl⟩
  | finite => exact isIntegral_ofRat _ _

theorem isIntegral_roundEven {x : Single} (hx : x.isNaN = false) : x.roundEven.IsIntegral := by
  cases x with
  | nan => cases hx
  | infinity negative => exact .inr ⟨negative, rfl⟩
  | finite => exact isIntegral_ofRat _ _

end Binary

end FakeQuant
