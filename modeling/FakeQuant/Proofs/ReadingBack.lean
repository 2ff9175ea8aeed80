import FakeQuant.Proofs.DecimalGaps
import FakeQuant.Proofs.RoundedValues
import FakeQuant.Proofs.ShortestDecimals

/-!
# Reading shortest decimals through double precision

The shortest decimal of a single-precision number is read as a double first, and the double is
rounded to single precision. This restores the number: the decimal lies in the rounding interval,
and it is an end of it or so far from both ends (`DecimalGaps`) that the error of the double does
not carry it out (`IsShortest.contains_of_near`). At an end the double must be exact, which it is
because the ends have few bits.

Two ways of reading come under `IsShortest.convert_of_near`. The nearest double is off by half a
unit (`IsShortest.convert_ofMagnitude`). Scaling a coefficient by a rounded power of ten is off by
less than two units (`ScaledReading`).

The one decimal that is too near to an end, `7.038531e-26`, is left out here (`IsDelicate`), and so
is the number twice as large, which meets the same end of the grid.
-/

namespace FakeQuant

open RoundingInterval

/-! ### The ends of an interval -/

/-- Half a unit is a power of two. -/
private theorem half_unit (exponent : Int) :
    (2 : Rat) ^ exponent / 2 = (2 : Rat) ^ (exponent - 1) :=
  (zpow_sub_one₀ (by norm_num) exponent).symm

/-- A multiple of a power of two is positive only for a positive factor. -/
theorem pos_of_mul_zpow_pos {m : Nat} {e : Int} (h : 0 < m * (2 : Rat) ^ e) : 0 < m := by
  rcases Nat.eq_zero_or_pos m with rfl | hm
  · simp at h
  · exact hm

section Ends

variable {significand : Nat} {exponent : Int}

/-- The lower end is an odd multiple of the margin below. -/
private theorem exists_lower (h : Format.single.Canonical significand exponent)
    (hpos : 0 < significand) :
    ∃ (m : Nat) (e : Int), m % 2 = 1 ∧ m < 2 ^ 25 ∧ -150 ≤ e ∧ e ≤ 103 ∧
      (around .single significand exponent).lower = m * (2 : Rat) ^ e ∧
      marginBelow .single significand exponent = (2 : Rat) ^ e ∧
      (around .single significand exponent).upper ≤ (m + 3) * (2 : Rat) ^ e := by
  obtain ⟨hlimit, hmin, hmax, -⟩ := h
  rw [limit_single] at hlimit
  rw [minExponent_single] at hmin
  rw [maxExponent_single] at hmax
  have hs : (1 : Rat) ≤ significand := by exact_mod_cast hpos
  rw [around_lower, around_upper, marginBelow, minExponent_single]
  split
  · rename_i hstart
    rw [normalStart_single] at hstart
    have hsplit : (2 : Rat) ^ exponent = 4 * (2 : Rat) ^ (exponent - 2) := by
      rw [show exponent - 2 = exponent - 1 - 1 by ring, ← half_unit, ← half_unit]
      ring
    have hpred : ((4 * significand - 1 : Nat) : Rat) = 4 * significand - 1 := by
      rw [Nat.cast_sub (by omega)]
      push_cast
      rfl
    refine ⟨4 * significand - 1, exponent - 2, by omega, by omega, by omega, by omega, ?_⟩
    rw [hsplit, hpred]
    exact ⟨by ring, by ring, by linarith⟩
  · have hsplit : (2 : Rat) ^ exponent = 2 * (2 : Rat) ^ (exponent - 1) := by
      rw [← half_unit]
      ring
    have hpred : ((2 * significand - 1 : Nat) : Rat) = 2 * significand - 1 := by
      rw [Nat.cast_sub (by omega)]
      push_cast
      rfl
    have hunit : (0 : Rat) < (2 : Rat) ^ (exponent - 1) := by positivity
    refine ⟨2 * significand - 1, exponent - 1, by omega, by omega, by omega, by omega, ?_⟩
    rw [hsplit, hpred]
    exact ⟨by ring, by ring, by linarith⟩

/-- The upper end is an odd multiple of half a unit. -/
private theorem upper_eq :
    (around .single significand exponent).upper
      = (2 * significand + 1 : Nat) * (2 : Rat) ^ (exponent - 1) := by
  rw [around_upper, ← half_unit]
  push_cast
  ring

end Ends

/-! ### The distance from the ends -/

/-- The two numbers that the exceptional decimal belongs to. -/
def IsDelicate (significand : Nat) (exponent : Int) : Prop :=
  significand = 11420669 ∧ (exponent = -107 ∨ exponent = -106)

namespace IsShortest

variable {significand coefficient : Nat} {exponent k : Int}

theorem value_pos (h : IsShortest significand exponent coefficient k) :
    0 < coefficient * (10 : Rat) ^ k := by
  have : (0 : Rat) < coefficient := by exact_mod_cast h.pos
  positivity

/-- The place is one that a single-precision number can have. -/
theorem le_38 (hs : Format.single.Canonical significand exponent) (hpos : 0 < significand)
    (h : IsShortest significand exponent coefficient k) : k ≤ 38 := by
  obtain ⟨hlimit, -, hmax, -⟩ := hs
  have hcast : (0 : Rat) < significand := by exact_mod_cast hpos
  have hq : 0 < significand * (2 : Rat) ^ exponent := by positivity
  have hlt : significand * (2 : Rat) ^ exponent < ((10 : Nat) : Rat) ^ (39 : Int) := by
    calc significand * (2 : Rat) ^ exponent ≤ (2 ^ 24 : Nat) * (2 : Rat) ^ (104 : Int) := by
          apply mul_le_mul (by exact_mod_cast hlimit.le) _ (by positivity) (by positivity)
          exact zpow_le_zpow_right₀ (by norm_num) hmax
      _ < ((10 : Nat) : Rat) ^ (39 : Int) := by norm_num
  have := (Int.lt_zpow_iff_log_lt (by decide) hq).1 hlt
  have := h.le_log
  omega

/-- A step that is not small against a half unit has a place that a single-precision number can
have. -/
private theorem le_of_step {e : Int} (he : -150 ≤ e)
    (hstep : 7 * (2 : Rat) ^ e ≤ 5 * (10 : Rat) ^ k) : -45 ≤ k := by
  by_contra hlt
  have hten : (10 : Rat) ^ k ≤ (10 : Rat) ^ (-46 : Int) :=
    zpow_le_zpow_right₀ (by norm_num) (by omega)
  have htwo : (2 : Rat) ^ (-150 : Int) ≤ (2 : Rat) ^ e := zpow_le_zpow_right₀ (by norm_num) he
  have : 5 * (10 : Rat) ^ (-46 : Int) < 7 * (2 : Rat) ^ (-150 : Int) := by norm_num
  linarith

/-- The decimal is the lower end or away from it. -/
theorem sub_lower (hs : Format.single.Canonical significand exponent) (hpos : 0 < significand)
    (h : IsShortest significand exponent coefficient k) :
    coefficient * (10 : Rat) ^ k = (around .single significand exponent).lower ∨
      (around .single significand exponent).lower ≤
        2 ^ 51 * (coefficient * (10 : Rat) ^ k - (around .single significand exponent).lower) := by
  obtain ⟨m, e, hodd, hm, he, -, hlower, hmargin, hupper⟩ := exists_lower hs hpos
  obtain ⟨hle, hle', -⟩ := contains_iff.1 h.picked.contains
  have hunit : (0 : Rat) < (2 : Rat) ^ e := by positivity
  have hmcast : (m : Rat) ≤ 2 ^ 25 := by exact_mod_cast hm.le
  rcases le_total (5 * (10 : Rat) ^ k) (7 * (2 : Rat) ^ e) with hstep | hstep
  · right
    have htenth := h.picked.tenth_le_sub_lower (by rw [hmargin]; exact hstep)
    rw [hmargin] at htenth
    have := mul_le_mul_of_nonneg_right hmcast hunit.le
    rw [hlower] at htenth ⊢
    linarith
  · rw [hlower] at hle ⊢
    rcases gap_of_decimal (le_of_step he hstep) (h.le_38 hs hpos) hm hodd hstep (hle'.trans hupper)
      with (heq | hfar) | ⟨-, -, -, hbelow⟩
    · exact .inl heq
    · rw [abs_of_nonneg (sub_nonneg.2 hle)] at hfar
      exact .inr hfar
    · exact absurd hle (not_le.2 hbelow)

/-- The decimal is the upper end or away from it, but for the delicate numbers. -/
theorem upper_sub (hs : Format.single.Canonical significand exponent) (hpos : 0 < significand)
    (hdelicate : ¬ IsDelicate significand exponent)
    (h : IsShortest significand exponent coefficient k) :
    coefficient * (10 : Rat) ^ k = (around .single significand exponent).upper ∨
      (around .single significand exponent).upper ≤
        2 ^ 51 * ((around .single significand exponent).upper - coefficient * (10 : Rat) ^ k) := by
  obtain ⟨-, hle, -⟩ := contains_iff.1 h.picked.contains
  have hupper : (around .single significand exponent).upper
      = (2 * significand + 1 : Nat) * (2 : Rat) ^ (exponent - 1) := upper_eq
  have hunit : (0 : Rat) < (2 : Rat) ^ (exponent - 1) := by positivity
  have hhalf := half_unit exponent
  have hlimit := hs.1
  rw [limit_single] at hlimit
  have hm : 2 * significand + 1 < 2 ^ 25 := by omega
  have hmcast : ((2 * significand + 1 : Nat) : Rat) ≤ 2 ^ 25 := by exact_mod_cast hm.le
  rcases le_total (5 * (10 : Rat) ^ k) (7 * (2 : Rat) ^ (exponent - 1)) with hstep | hstep
  · right
    have htenth := h.picked.tenth_le_upper_sub (by rw [hhalf]; exact hstep)
    rw [hhalf] at htenth
    have := mul_le_mul_of_nonneg_right hmcast hunit.le
    rw [hupper] at htenth ⊢
    linarith
  · rw [hupper] at hle ⊢
    have hmin := hs.2.1
    rw [minExponent_single] at hmin
    rcases gap_of_decimal (le_of_step (by omega) hstep) (h.le_38 hs hpos) hm (by omega) hstep
        (hle.trans (mul_le_mul_of_nonneg_right (by linarith) hunit.le))
      with (heq | hfar) | ⟨-, hm', he, -⟩
    · exact .inl heq
    · rw [abs_sub_comm, abs_of_nonneg (sub_nonneg.2 hle)] at hfar
      exact .inr hfar
    · exact absurd ⟨by omega, by omega⟩ hdelicate

/-- What is near to the decimal is in the interval with it. At an end only the decimal itself is.
-/
theorem contains_of_near (hs : Format.single.Canonical significand exponent)
    (hpos : 0 < significand) (hdelicate : ¬ IsDelicate significand exponent)
    (h : IsShortest significand exponent coefficient k) {y : Rat}
    (hnear : 2 ^ 53 * |y - coefficient * (10 : Rat) ^ k| ≤ 3 * (coefficient * (10 : Rat) ^ k))
    (hend : coefficient * (10 : Rat) ^ k = (around .single significand exponent).lower ∨
      coefficient * (10 : Rat) ^ k = (around .single significand exponent).upper →
        y = coefficient * (10 : Rat) ^ k) :
    (around .single significand exponent).contains y = true := by
  have hvalue := h.value_pos
  have hin := h.picked.contains
  rcases h.sub_lower hs hpos with hlower | hlower
  · rwa [hend (.inl hlower)]
  rcases h.upper_sub hs hpos hdelicate with hupper | hupper
  · rwa [hend (.inr hupper)]
  generalize coefficient * (10 : Rat) ^ k = x at *
  have hle := neg_abs_le (y - x)
  have hle' := le_abs_self (y - x)
  exact contains_of_lt (by linarith) (by linarith)

/-- An end of the interval has few bits. -/
theorem exists_of_end (hs : Format.single.Canonical significand exponent)
    (hpos : 0 < significand) {x : Rat}
    (hend : x = (around .single significand exponent).lower ∨
      x = (around .single significand exponent).upper) :
    ∃ (m : Nat) (e : Int), m < 2 ^ 25 ∧ -150 ≤ e ∧ e ≤ 103 ∧ x = m * (2 : Rat) ^ e := by
  rcases hend with rfl | rfl
  · obtain ⟨m, e, -, hm, he, he', hlower, -⟩ := exists_lower hs hpos
    exact ⟨m, e, hm, he, he', hlower⟩
  · obtain ⟨hlimit, hmin, hmax, -⟩ := hs
    rw [limit_single] at hlimit
    rw [minExponent_single] at hmin
    rw [maxExponent_single] at hmax
    exact ⟨2 * significand + 1, exponent - 1, by omega, by omega, by omega, upper_eq⟩

/-- The decimal is far inside the range of the 64-bit format. -/
theorem range (hs : Format.single.Canonical significand exponent)
    (hpos : 0 < significand) (h : IsShortest significand exponent coefficient k) :
    (2 : Rat) ^ (-150 : Int) ≤ coefficient * (10 : Rat) ^ k ∧
      coefficient * (10 : Rat) ^ k ≤ (2 : Rat) ^ (129 : Int) := by
  obtain ⟨hlower, hupper, -⟩ := contains_iff.1 h.picked.contains
  obtain ⟨hlimit, hmin, hmax, -⟩ := hs
  rw [limit_single] at hlimit
  rw [minExponent_single] at hmin
  rw [maxExponent_single] at hmax
  have hmargin := marginBelow_le .single significand exponent
  have hunit : (0 : Rat) < (2 : Rat) ^ exponent := by positivity
  have hone : (1 : Rat) ≤ significand := by exact_mod_cast hpos
  rw [around_lower] at hlower
  rw [around_upper] at hupper
  constructor
  · have hhalf := half_unit exponent
    have hstep : (2 : Rat) ^ (-150 : Int) ≤ (2 : Rat) ^ (exponent - 1) :=
      zpow_le_zpow_right₀ (by norm_num) (by omega)
    have := le_mul_of_one_le_left hunit.le hone
    linarith
  · have hbits : (significand : Rat) ≤ 2 ^ 24 := by exact_mod_cast hlimit.le
    have hstep : (2 : Rat) ^ exponent ≤ (2 : Rat) ^ (104 : Int) :=
      zpow_le_zpow_right₀ (by norm_num) hmax
    have hproduct : significand * (2 : Rat) ^ exponent ≤ 2 ^ 24 * (2 : Rat) ^ (104 : Int) :=
      mul_le_mul hbits hstep hunit.le (by positivity)
    have : (2 : Rat) ^ 24 * (2 : Rat) ^ (104 : Int) + (2 : Rat) ^ (104 : Int) / 2
        ≤ (2 : Rat) ^ (129 : Int) := by norm_num
    linarith

end IsShortest

/-! ### From double to single -/

namespace Binary

theorem limit_double : Format.double.limit = 2 ^ 53 := rfl

/-- A positive number with a sign is rounded by its magnitude. -/
theorem ofRat_signed {f : Format} (zeroNegative negative : Bool) {q : Rat} (hq : 0 < q) :
    (ofRat zeroNegative (if negative then -q else q) : Binary f) = ofMagnitude negative q := by
  rw [ofRat]
  cases negative with
  | true => simp only [if_true, if_pos (neg_lt_zero.2 hq), neg_neg]
  | false => simp only [Bool.false_eq_true, if_false, if_neg (not_lt.2 hq.le), if_pos hq]

/-- Another format takes a number by its magnitude. -/
theorem convert_finite {f g : Format} (negative : Bool) {significand : Nat} {exponent : Int}
    (h : f.Canonical significand exponent) (hpos : 0 < significand * (2 : Rat) ^ exponent) :
    (finite negative significand exponent h).convert
      = (ofMagnitude negative (significand * (2 : Rat) ^ exponent) : Binary g) :=
  ofRat_signed negative negative hpos

/-- A double below `2 ^ 250` with few bits is exact. -/
theorem ofMagnitude_double_exact (negative : Bool) {n : Nat} {e : Int} (hn : 0 < n)
    (hlimit : n < 2 ^ 53) (hmin : -1074 ≤ e) (hmax : n * (2 : Rat) ^ e ≤ (2 : Rat) ^ (250 : Int)) :
    ∃ significand exponent, ∃ h : Format.double.Canonical significand exponent,
      (ofMagnitude negative (n * (2 : Rat) ^ e) : Double)
          = finite negative significand exponent h ∧
        (significand : Rat) * (2 : Rat) ^ exponent = n * (2 : Rat) ^ e :=
  ofMagnitude_exact negative hn hlimit hmin
    (lt_of_le_of_lt hmax (zpow_lt_zpow_right₀ (by norm_num) (by decide)))

/-- A double in the middle of the range is off by half a unit. -/
theorem ofMagnitude_double_error (negative : Bool) {q : Rat}
    (hmin : (2 : Rat) ^ (-250 : Int) ≤ q) (hmax : q ≤ (2 : Rat) ^ (250 : Int)) :
    ∃ significand exponent, ∃ h : Format.double.Canonical significand exponent,
      (ofMagnitude negative q : Double) = finite negative significand exponent h ∧
        2 ^ 53 * |(significand : Rat) * (2 : Rat) ^ exponent - q| ≤ q := by
  obtain ⟨significand, exponent, h, hround, herror⟩ :=
    ofMagnitude_error (f := .double) negative (q := q)
      (le_trans (zpow_le_zpow_right₀ (by norm_num) (by decide)) hmin)
      (lt_of_le_of_lt hmax (zpow_lt_zpow_right₀ (by norm_num) (by decide)))
  refine ⟨significand, exponent, h, hround, ?_⟩
  rw [limit_double, le_div_iff₀ (by norm_num)] at herror
  push_cast at herror
  linarith

end Binary

open Binary

namespace IsShortest

variable {significand coefficient : Nat} {exponent k : Int}

/-- A double near to the decimal is rounded to the number that the decimal belongs to. -/
theorem convert_of_near (hs : Format.single.Canonical significand exponent)
    (hpos : 0 < significand) (hdelicate : ¬ IsDelicate significand exponent)
    (h : IsShortest significand exponent coefficient k) {n : Nat} {e : Int}
    (hd : Format.double.Canonical n e)
    (hnear : 2 ^ 53 * |n * (2 : Rat) ^ e - coefficient * (10 : Rat) ^ k|
      ≤ 3 * (coefficient * (10 : Rat) ^ k))
    (hend : coefficient * (10 : Rat) ^ k = (around .single significand exponent).lower ∨
      coefficient * (10 : Rat) ^ k = (around .single significand exponent).upper →
        n * (2 : Rat) ^ e = coefficient * (10 : Rat) ^ k) (negative : Bool) :
    ((finite negative n e hd : Double).convert : Single)
      = finite negative significand exponent hs := by
  have hvalue := h.value_pos
  have hin := h.contains_of_near hs hpos hdelicate hnear hend
  have hle := neg_abs_le (n * (2 : Rat) ^ e - coefficient * (10 : Rat) ^ k)
  rw [convert_finite negative hd (by linarith)]
  exact ofMagnitude_of_contains negative hs hpos hin

/-- The double nearest to the decimal is rounded to the number that the decimal belongs to. -/
theorem convert_ofMagnitude (hs : Format.single.Canonical significand exponent)
    (hpos : 0 < significand) (hdelicate : ¬ IsDelicate significand exponent)
    (h : IsShortest significand exponent coefficient k) (negative : Bool) :
    ((ofMagnitude negative (coefficient * (10 : Rat) ^ k) : Double).convert : Single)
      = finite negative significand exponent hs := by
  have hvalue := h.value_pos
  obtain ⟨hmin, hmax⟩ := h.range hs hpos
  have hmax' : coefficient * (10 : Rat) ^ k ≤ (2 : Rat) ^ (250 : Int) :=
    hmax.trans (zpow_le_zpow_right₀ (by norm_num) (by decide))
  by_cases hend : coefficient * (10 : Rat) ^ k = (around .single significand exponent).lower ∨
      coefficient * (10 : Rat) ^ k = (around .single significand exponent).upper
  · obtain ⟨m, e, hm, he, -, hx⟩ := exists_of_end hs hpos hend
    have hm0 : 0 < m := pos_of_mul_zpow_pos (hx ▸ hvalue)
    obtain ⟨n, e', hd, hround, hexact⟩ :=
      ofMagnitude_double_exact negative hm0 (by omega) (by omega) (hx ▸ hmax')
    rw [← hx] at hround hexact
    rw [hround]
    refine h.convert_of_near hs hpos hdelicate hd ?_ (fun _ => hexact) negative
    rw [hexact, sub_self, abs_zero]
    linarith
  · obtain ⟨n, e', hd, hround, herror⟩ := ofMagnitude_double_error negative
      (le_trans (zpow_le_zpow_right₀ (by norm_num) (by decide)) hmin) hmax'
    rw [hround]
    exact h.convert_of_near hs hpos hdelicate hd (by linarith) (fun h' => absurd h' hend) negative

end IsShortest

end FakeQuant
