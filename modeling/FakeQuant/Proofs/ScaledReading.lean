import FakeQuant.Json.Number
import FakeQuant.Proofs.ReadingBack

/-!
# Reading decimals by scaling

A JSON number is read as a coefficient that is multiplied or divided by a rounded power of ten. Both
the power and the result are rounded, so the double is off by up to two units (`scaled_spec`). Where
the power is exact only the last rounding counts, and a number with few bits is read exactly
(`scaled_exact`).

For the shortest decimal of a single-precision number this is enough: the decimal is well inside the
rounding interval, or it is an end of it, and then its power of ten is small (`scaled_convert`).
-/

namespace FakeQuant.Json

open Binary RoundingInterval

/-! ### The two factors -/

/-- A coefficient of few bits is exact. -/
theorem ofInt_spec {n : Nat} (hn : 0 < n) (hlimit : n < 2 ^ 53) :
    ∃ significand exponent, ∃ h : Format.double.Canonical significand exponent,
      (ofInt n : Double) = finite false significand exponent h ∧
        (significand : Rat) * (2 : Rat) ^ exponent = n := by
  have hn' : (0 : Rat) < n := by exact_mod_cast hn
  have hone : (n : Rat) * (2 : Rat) ^ (0 : Int) = n := by simp
  have hmax : (n : Rat) * (2 : Rat) ^ (0 : Int) ≤ (2 : Rat) ^ (250 : Int) := by
    rw [hone]
    calc (n : Rat) ≤ (2 : Rat) ^ (53 : Int) := by exact_mod_cast hlimit.le
      _ ≤ (2 : Rat) ^ (250 : Int) := zpow_le_zpow_right₀ (by norm_num) (by decide)
  obtain ⟨significand, exponent, h, hround, hvalue⟩ :=
    ofMagnitude_double_exact false hn hlimit (by decide) hmax
  rw [hone] at hround hvalue
  exact ⟨significand, exponent, h, (ofRat_signed false false hn').trans hround, hvalue⟩

/-- A power of ten is off by half a unit, and up to the twenty-second it is exact. -/
theorem powerOfTen_spec {t : Nat} (ht : t ≤ 70) :
    ∃ significand exponent, ∃ h : Format.double.Canonical significand exponent,
      powerOfTen t = finite false significand exponent h ∧
        2 ^ 53 * |(significand : Rat) * (2 : Rat) ^ exponent - 10 ^ t| ≤ 10 ^ t ∧
        (t ≤ 22 → (significand : Rat) * (2 : Rat) ^ exponent = 10 ^ t) := by
  have hpos : (0 : Rat) < 10 ^ t := by positivity
  have hmax : (10 : Rat) ^ t ≤ (2 : Rat) ^ (250 : Int) := by
    calc (10 : Rat) ^ t ≤ 10 ^ 70 := pow_le_pow_right₀ (by norm_num) ht
      _ ≤ (2 : Rat) ^ (250 : Int) := by norm_num
  have hround : powerOfTen t = (ofMagnitude false (10 ^ t) : Double) := by
    rw [powerOfTen, zpow_natCast]
    exact ofRat_signed false false hpos
  rw [hround]
  rcases Nat.lt_or_ge 22 t with hlarge | hsmall
  · have hmin : (2 : Rat) ^ (-250 : Int) ≤ 10 ^ t :=
      le_trans (zpow_le_one_of_nonpos₀ (by norm_num) (by decide)) (one_le_pow₀ (by norm_num))
    obtain ⟨significand, exponent, h, hround, herror⟩ := ofMagnitude_double_error false hmin hmax
    exact ⟨significand, exponent, h, hround, herror, fun h => by omega⟩
  · have hfive : (10 : Rat) ^ t = (5 ^ t : Nat) * (2 : Rat) ^ (t : Int) := by
      rw [zpow_natCast]
      push_cast
      rw [← mul_pow]
      norm_num
    have hbits : 5 ^ t < 2 ^ 53 :=
      lt_of_le_of_lt (Nat.pow_le_pow_right (by decide) hsmall) (by decide)
    obtain ⟨significand, exponent, h, hround, hvalue⟩ :=
      ofMagnitude_double_exact false (Nat.pow_pos (by decide)) hbits (by omega) (hfive ▸ hmax)
    rw [← hfive] at hround hvalue
    refine ⟨significand, exponent, h, hround, ?_, fun _ => hvalue⟩
    rw [hvalue, sub_self, abs_zero]
    linarith

/-! ### The scaled number -/

section Scaled

variable {coefficient : Nat} {k : Int}

/-- Scaling rounds the product with a power of ten. -/
private theorem multipliedByTens_eq {t n m : Nat} {e a : Int} (ht : t ≤ maxTenExponent)
    (hn : Format.double.Canonical n e) (hm : Format.double.Canonical m a)
    (hpower : powerOfTen t = finite false m a hm)
    (hpos : 0 < n * (2 : Rat) ^ e * (m * (2 : Rat) ^ a)) {x : Double} (hfinite : x.isFinite = true)
    (hx : ofMagnitude false (n * (2 : Rat) ^ e * (m * (2 : Rat) ^ a)) = x) :
    multipliedByTens (finite false n e hn) t = .ok x := by
  have hproduct : (finite false n e hn : Double) * powerOfTen t = x := by
    rw [hpower, ← hx]
    exact ofRat_signed false false hpos
  rw [multipliedByTens, if_pos ht]
  dsimp only
  rw [hproduct, if_pos hfinite]

/-- Scaling rounds the quotient by a power of ten. -/
private theorem dividedByTens_eq {t n m : Nat} {e a : Int} (ht : t ≤ maxTenExponent)
    (hn : Format.double.Canonical n e) (hm : Format.double.Canonical m a)
    (hpower : powerOfTen t = finite false m a hm) (hm0 : 0 < m * (2 : Rat) ^ a)
    (hpos : 0 < n * (2 : Rat) ^ e) :
    dividedByTens (finite false n e hn) t
      = ofMagnitude false (n * (2 : Rat) ^ e / (m * (2 : Rat) ^ a)) := by
  have hsteps : (t - 1) / maxTenExponent = 0 :=
    Nat.div_eq_of_lt (by rw [maxTenExponent] at *; omega)
  have hquotient : (finite false n e hn : Double) / powerOfTen t
      = ofMagnitude false (n * (2 : Rat) ^ e / (m * (2 : Rat) ^ a)) := by
    rw [hpower]
    show (if (finite false m a hm).value = 0 then _ else _) = _
    rw [if_neg (show (finite false m a hm).value ≠ 0 from hm0.ne')]
    exact ofRat_signed false false (div_pos hpos hm0)
  rw [dividedByTens, hsteps]
  exact hquotient

/-- Scaling rounds a number that is off by the error of the power of ten. -/
private theorem exists_scaled_eq (hc : 0 < coefficient) (hlimit : coefficient < 2 ^ 53)
    (hk : k.natAbs ≤ 70) :
    ∃ z : Rat, 2 ^ 53 * |z - coefficient * (10 : Rat) ^ k| ≤ 1.5 * (coefficient * (10 : Rat) ^ k) ∧
      (k.natAbs ≤ 22 → z = coefficient * (10 : Rat) ^ k) ∧
      ∀ x : Double, x.isFinite = true → ofMagnitude false z = x → scaled coefficient k = .ok x := by
  obtain ⟨n, e, hn, hcoefficient, hvalue⟩ := ofInt_spec hc hlimit
  have hc' : (0 : Rat) < coefficient := by exact_mod_cast hc
  obtain ⟨m, a, hm, hpower, herror, hexact⟩ := powerOfTen_spec hk
  have hten : (0 : Rat) < 10 ^ k.natAbs := by positivity
  generalize hP : (m : Rat) * (2 : Rat) ^ a = P at *
  have hlower := neg_abs_le (P - 10 ^ k.natAbs)
  have hP0 : 0 < P := by linarith
  rcases le_or_gt 0 k with hsign | hsign
  · have hzpow : (10 : Rat) ^ k = 10 ^ k.natAbs := by
      rw [← zpow_natCast, Int.natAbs_of_nonneg hsign]
    refine ⟨coefficient * P, ?_, fun h => ?_, fun x hfinite hx => ?_⟩
    · rw [hzpow, ← mul_sub, abs_mul, abs_of_pos hc']
      have := mul_le_mul_of_nonneg_left herror hc'.le
      have := mul_pos hc' hten
      linarith
    · rw [hzpow, hexact h]
    · rw [scaled, if_pos hsign, hcoefficient, show k.toNat = k.natAbs by omega]
      refine multipliedByTens_eq (hk.trans (by decide)) hn hm hpower ?_ hfinite ?_ <;>
        rw [hvalue, hP]
      · exact mul_pos hc' hP0
      · exact hx
  · have hzpow : (10 : Rat) ^ k = 1 / 10 ^ k.natAbs := by
      rw [← zpow_natCast, show (k.natAbs : Int) = -k by omega, zpow_neg, one_div, inv_inv]
    refine ⟨coefficient / P, ?_, fun h => ?_, fun x _ hx => ?_⟩
    · rw [hzpow, mul_one_div]
      have hdiff : coefficient / P - coefficient / 10 ^ k.natAbs
          = coefficient / 10 ^ k.natAbs * ((10 ^ k.natAbs - P) / P) := by
        field_simp
      have hpos : 0 < (coefficient : Rat) / 10 ^ k.natAbs := by positivity
      rw [hdiff, abs_mul, abs_of_pos hpos, abs_div, abs_of_pos hP0, abs_sub_comm]
      have hratio : 2 ^ 53 * (|P - 10 ^ k.natAbs| / P) ≤ 1.5 := by
        rw [← mul_div_assoc, div_le_iff₀ hP0]
        linarith
      have := mul_le_mul_of_nonneg_left hratio hpos.le
      linarith
    · rw [hzpow, mul_one_div, hexact h]
    · rw [scaled, if_neg (not_le.2 hsign), hcoefficient, show (-k).toNat = k.natAbs by omega,
        dividedByTens_eq (hk.trans (by decide)) hn hm hpower (by rw [hP]; exact hP0)
          (by rw [hvalue]; exact hc'),
        hvalue, hP, hx]

/-- A number in the middle of the range is read with an error of two units at most. -/
theorem scaled_spec (hc : 0 < coefficient) (hlimit : coefficient < 2 ^ 53) (hk : k.natAbs ≤ 70)
    (hmin : (2 : Rat) ^ (-200 : Int) ≤ coefficient * (10 : Rat) ^ k)
    (hmax : coefficient * (10 : Rat) ^ k ≤ (2 : Rat) ^ (200 : Int)) :
    ∃ significand exponent, ∃ h : Format.double.Canonical significand exponent,
      scaled coefficient k = .ok (finite false significand exponent h) ∧
        2 ^ 53 * |significand * (2 : Rat) ^ exponent - coefficient * (10 : Rat) ^ k|
          ≤ 3 * (coefficient * (10 : Rat) ^ k) := by
  obtain ⟨z, hz, -, hscaled⟩ := exists_scaled_eq hc hlimit hk
  have hle := neg_abs_le (z - coefficient * (10 : Rat) ^ k)
  have hle' := le_abs_self (z - coefficient * (10 : Rat) ^ k)
  have hlow : (2 : Rat) ^ (-250 : Int) ≤ (2 : Rat) ^ (-200 : Int) / 2 := by norm_num
  have hhigh : 2 * (2 : Rat) ^ (200 : Int) ≤ (2 : Rat) ^ (250 : Int) := by norm_num
  have hunit : (0 : Rat) < (2 : Rat) ^ (-200 : Int) := by positivity
  have hz0 : (2 : Rat) ^ (-250 : Int) ≤ z := by
    generalize (2 : Rat) ^ (-250 : Int) = low at *
    generalize (2 : Rat) ^ (-200 : Int) = least at *
    linarith
  obtain ⟨n, e, h, hround, herror⟩ := ofMagnitude_double_error false hz0 (by linarith)
  refine ⟨n, e, h, hscaled _ rfl hround, ?_⟩
  have := abs_sub_le (n * (2 : Rat) ^ e) z (coefficient * (10 : Rat) ^ k)
  linarith

/-- A number of few bits and with a small power of ten is read exactly. -/
theorem scaled_exact (hc : 0 < coefficient) (hlimit : coefficient < 2 ^ 53) (hk : k.natAbs ≤ 22)
    {m : Nat} {e : Int} (hm : m < 2 ^ 53) (he : -1074 ≤ e)
    (hvalue : coefficient * (10 : Rat) ^ k = m * (2 : Rat) ^ e)
    (hmax : coefficient * (10 : Rat) ^ k ≤ (2 : Rat) ^ (250 : Int)) :
    ∃ significand exponent, ∃ h : Format.double.Canonical significand exponent,
      scaled coefficient k = .ok (finite false significand exponent h) ∧
        significand * (2 : Rat) ^ exponent = coefficient * (10 : Rat) ^ k := by
  have hc' : (0 : Rat) < coefficient := by exact_mod_cast hc
  have hm0 : 0 < m := pos_of_mul_zpow_pos (hvalue ▸ mul_pos hc' (by positivity))
  obtain ⟨z, -, hz, hscaled⟩ := exists_scaled_eq hc hlimit (by omega : k.natAbs ≤ 70)
  obtain ⟨n, e', h, hround, hexact⟩ :=
    ofMagnitude_double_exact false hm0 hm he (hvalue ▸ hmax)
  rw [← hvalue] at hround hexact
  exact ⟨n, e', h, hscaled _ rfl (by rw [hz hk]; exact hround), hexact⟩

end Scaled

/-! ### Shortest decimals -/

/-- A power of five that divides a number up to powers of two is no larger than it. -/
private theorem pow_five_le {x y t a : Nat} (hx : 0 < x) (h : 5 ^ t * y = x * 2 ^ a) :
    5 ^ t ≤ x := by
  have hcoprime : Nat.Coprime (5 ^ t) (2 ^ a) := Nat.Coprime.pow t a (by decide)
  exact Nat.le_of_dvd hx (hcoprime.dvd_of_dvd_mul_right ⟨y, h.symm⟩)

private theorem two_zpow_mul (e : Int) : (2 : Rat) ^ e * 2 ^ (-e).toNat = 2 ^ e.toNat := by
  rw [← zpow_natCast, ← zpow_natCast, ← zpow_add₀ (by norm_num)]
  congr 1
  omega

section SmallPower

variable {coefficient m : Nat} {k e : Int}

/-- The power of five in a positive power of ten divides the number. -/
private theorem pow_five_le_of_nonneg (hm : 0 < m) (hsign : 0 ≤ k)
    (hvalue : coefficient * (10 : Rat) ^ k = m * (2 : Rat) ^ e) : 5 ^ k.natAbs ≤ m := by
  have hten : (10 : Rat) ^ k = 5 ^ k.natAbs * 2 ^ k.natAbs := by
    rw [← mul_pow, ← zpow_natCast, Int.natAbs_of_nonneg hsign]
    norm_num
  have hrat : (5 : Rat) ^ k.natAbs * (coefficient * 2 ^ k.natAbs * 2 ^ (-e).toNat)
      = m * 2 ^ e.toNat := by
    rw [← two_zpow_mul e, ← mul_assoc (m : Rat), ← hvalue, hten]
    ring
  have hnat : 5 ^ k.natAbs * (coefficient * 2 ^ k.natAbs * 2 ^ (-e).toNat) = m * 2 ^ e.toNat := by
    exact_mod_cast hrat
  exact pow_five_le hm hnat

/-- The power of five in a negative power of ten divides the coefficient. -/
private theorem pow_five_le_of_neg (hc : 0 < coefficient) (hsign : k < 0)
    (hvalue : coefficient * (10 : Rat) ^ k = m * (2 : Rat) ^ e) : 5 ^ k.natAbs ≤ coefficient := by
  have hten : (10 : Rat) ^ k * (5 ^ k.natAbs * 2 ^ k.natAbs) = 1 := by
    rw [← mul_pow, ← zpow_natCast, show (k.natAbs : Int) = -k by omega,
      show (5 : Rat) * 2 = 10 by norm_num, ← zpow_add₀ (by norm_num), add_neg_cancel, zpow_zero]
  have hrat : (5 : Rat) ^ k.natAbs * (m * 2 ^ e.toNat * 2 ^ k.natAbs)
      = coefficient * 2 ^ (-e).toNat := by
    calc (5 : Rat) ^ k.natAbs * (m * 2 ^ e.toNat * 2 ^ k.natAbs)
        = m * (2 : Rat) ^ e * 2 ^ (-e).toNat * (5 ^ k.natAbs * 2 ^ k.natAbs) := by
          rw [← two_zpow_mul e]
          ring
      _ = coefficient * 2 ^ (-e).toNat * ((10 : Rat) ^ k * (5 ^ k.natAbs * 2 ^ k.natAbs)) := by
          rw [← hvalue]
          ring
      _ = coefficient * 2 ^ (-e).toNat := by rw [hten, mul_one]
  have hnat : 5 ^ k.natAbs * (m * 2 ^ e.toNat * 2 ^ k.natAbs) = coefficient * 2 ^ (-e).toNat := by
    exact_mod_cast hrat
  exact pow_five_le hc hnat

/-- A decimal of few digits that equals a number of few bits has a small power of ten. -/
private theorem natAbs_le_of_eq (hc : 0 < coefficient) (hlimit : coefficient < 5 ^ 22)
    (hm : m < 2 ^ 25) (hvalue : coefficient * (10 : Rat) ^ k = m * (2 : Rat) ^ e) :
    k.natAbs ≤ 22 := by
  have hc' : (0 : Rat) < coefficient := by exact_mod_cast hc
  have hm0 : 0 < m := pos_of_mul_zpow_pos (hvalue ▸ mul_pos hc' (by positivity))
  have hpow : 5 ^ k.natAbs ≤ 5 ^ 22 := by
    rcases le_or_gt 0 k with hsign | hsign
    · exact (pow_five_le_of_nonneg hm0 hsign hvalue).trans (hm.le.trans (by decide))
    · exact (pow_five_le_of_neg hc hsign hvalue).trans hlimit.le
  exact (Nat.pow_le_pow_iff_right (by decide)).1 hpow

end SmallPower

/-- A decimal of few digits in the range of the 32-bit format has a power of ten that a double
holds. -/
private theorem natAbs_le_of_range {coefficient : Nat} {k : Int} (hc : 0 < coefficient)
    (hlimit : coefficient < 5 ^ 22)
    (hmin : (2 : Rat) ^ (-150 : Int) ≤ coefficient * (10 : Rat) ^ k)
    (hmax : coefficient * (10 : Rat) ^ k ≤ (2 : Rat) ^ (129 : Int)) : k.natAbs ≤ 70 := by
  have hone : (1 : Rat) ≤ coefficient := by exact_mod_cast hc
  have hlimit' : (coefficient : Rat) < (10 : Rat) ^ (16 : Int) := by
    have : (coefficient : Rat) < (5 ^ 22 : Nat) := by exact_mod_cast hlimit
    exact this.trans (by norm_num)
  have hten : (0 : Rat) < (10 : Rat) ^ k := by positivity
  have hupper : k < 39 := by
    rw [← zpow_lt_zpow_iff_right₀ (show (1 : Rat) < 10 by norm_num)]
    calc (10 : Rat) ^ k ≤ coefficient * (10 : Rat) ^ k := le_mul_of_one_le_left hten.le hone
      _ ≤ (2 : Rat) ^ (129 : Int) := hmax
      _ < (10 : Rat) ^ (39 : Int) := by norm_num
  have hlower : -46 < 16 + k := by
    rw [← zpow_lt_zpow_iff_right₀ (show (1 : Rat) < 10 by norm_num)]
    calc (10 : Rat) ^ (-46 : Int) < (2 : Rat) ^ (-150 : Int) := by norm_num
      _ ≤ coefficient * (10 : Rat) ^ k := hmin
      _ < (10 : Rat) ^ (16 : Int) * (10 : Rat) ^ k := mul_lt_mul_of_pos_right hlimit' hten
      _ = (10 : Rat) ^ (16 + k) := (zpow_add₀ (by norm_num) 16 k).symm
  omega

/-- A decimal of few digits that is worth the shortest one of a single-precision number is read as a
double that is rounded to that number. -/
theorem scaled_convert {significand coefficient c : Nat} {exponent k' k : Int}
    (hs : Format.single.Canonical significand exponent) (hpos : 0 < significand)
    (hdelicate : ¬ IsDelicate significand exponent)
    (h : IsShortest significand exponent c k') (hc : 0 < coefficient)
    (hlimit : coefficient < 5 ^ 22)
    (hvalue : coefficient * (10 : Rat) ^ k = c * (10 : Rat) ^ k') :
    ∃ n e, ∃ hd : Format.double.Canonical n e,
      scaled coefficient k = .ok (finite false n e hd) ∧
        ∀ negative, ((finite negative n e hd : Double).convert : Single)
          = finite negative significand exponent hs := by
  obtain ⟨hmin, hmax⟩ := h.range hs hpos
  rw [← hvalue] at hmin hmax
  have hbits : coefficient < 2 ^ 53 := hlimit.trans (by decide)
  by_cases hend : c * (10 : Rat) ^ k' = (around .single significand exponent).lower ∨
      c * (10 : Rat) ^ k' = (around .single significand exponent).upper
  · obtain ⟨m, e, hm, he, -, hx⟩ := IsShortest.exists_of_end hs hpos hend
    have hx' := hvalue.trans hx
    obtain ⟨n, e', hd, hscaled, hexact⟩ := scaled_exact hc hbits (natAbs_le_of_eq hc hlimit hm hx')
      (hm.trans (by decide)) (by omega) hx'
      (hmax.trans (zpow_le_zpow_right₀ (by norm_num) (by decide)))
    rw [hvalue] at hexact
    refine ⟨n, e', hd, hscaled, h.convert_of_near hs hpos hdelicate hd ?_ fun _ => hexact⟩
    rw [hexact, sub_self, abs_zero]
    linarith [h.value_pos]
  · obtain ⟨n, e, hd, hscaled, herror⟩ := scaled_spec hc hbits
      (natAbs_le_of_range hc hlimit hmin hmax)
      (le_trans (zpow_le_zpow_right₀ (by norm_num) (by decide)) hmin)
      (hmax.trans (zpow_le_zpow_right₀ (by norm_num) (by decide)))
    rw [hvalue] at herror
    exact ⟨n, e, hd, hscaled,
      h.convert_of_near hs hpos hdelicate hd herror fun h' => absurd h' hend⟩

end FakeQuant.Json
