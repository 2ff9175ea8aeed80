import FakeQuant.Decimal.Shortest
import Mathlib.Algebra.Order.Field.Power
import Mathlib.Data.Int.Log
import Mathlib.Data.Rat.Floor
import Mathlib.Tactic.Linarith
import Mathlib.Tactic.NormNum
import Mathlib.Tactic.Positivity
import Mathlib.Tactic.Ring

/-!
# What rounding does

A positive rational number `q` is rounded in two steps: the place of the last digit is read off the
logarithm of `q`, and the quotient by that place is rounded to an integer. So everything in the
interval that `RoundingInterval.around` gives for a number rounds to that number
(`Binary.ofMagnitude_of_contains`). Below a power of two the last place is half as large, and the
integer rounds up to the limit of the significands; everywhere else the place is that of the number
itself.
-/

namespace FakeQuant

/-! ### Logarithms -/

/-- The lengths of numerator and denominator in a base leave two candidates for the logarithm. -/
private theorem log_of_lengths {b : Nat} (hb : 1 < b) {q : Rat} (hq : 0 < q) {i j : Nat}
    (hi : b ^ i ≤ q.num.natAbs) (hi' : q.num.natAbs < b ^ (i + 1))
    (hj : b ^ j ≤ q.den) (hj' : q.den < b ^ (j + 1)) :
    (if (b : Rat) ^ ((i : Int) - j) ≤ q then (i : Int) - j else (i : Int) - j - 1)
      = Int.log b q := by
  have hb0 : (0 : Rat) < b := by exact_mod_cast Nat.zero_lt_of_lt hb
  have hnum : ((q.num.natAbs : Nat) : Rat) = q.num := by
    rw [← Int.cast_natCast, Int.natAbs_of_nonneg (Rat.num_pos.2 hq).le]
  have hden : (0 : Rat) < q.den := by exact_mod_cast q.den_pos
  have hquot : q = (q.num.natAbs : Nat) / (q.den : Nat) := by rw [hnum]; exact q.num_div_den.symm
  have hupper : q < (b : Rat) ^ ((i : Int) - j + 1) := by
    calc q = (q.num.natAbs : Nat) / (q.den : Nat) := hquot
      _ < (b : Rat) ^ (i + 1) / (b : Rat) ^ j := by
        apply div_lt_div₀ _ _ (by positivity) (by positivity)
        · exact_mod_cast hi'
        · exact_mod_cast hj
      _ = (b : Rat) ^ ((i : Int) - j + 1) := by
        rw [← zpow_natCast, ← zpow_natCast, ← zpow_sub₀ hb0.ne']
        congr 1
        push_cast
        ring
  have hlower : (b : Rat) ^ ((i : Int) - j - 1) ≤ q := by
    calc (b : Rat) ^ ((i : Int) - j - 1) = (b : Rat) ^ i / (b : Rat) ^ (j + 1) := by
          rw [← zpow_natCast, ← zpow_natCast, ← zpow_sub₀ hb0.ne']
          congr 1
          push_cast
          ring
      _ ≤ (q.num.natAbs : Nat) / (q.den : Nat) := by
        apply div_le_div₀ (by positivity) _ hden _
        · exact_mod_cast hi
        · exact_mod_cast hj'.le
      _ = q := hquot.symm
  rw [Int.lt_zpow_iff_log_lt hb hq] at hupper
  rw [Int.zpow_le_iff_le_log hb hq] at hlower
  split
  · rename_i h
    rw [Int.zpow_le_iff_le_log hb hq] at h
    omega
  · rename_i h
    rw [Int.zpow_le_iff_le_log hb hq] at h
    omega

/-- `floorLog2` is the logarithm to base two. -/
theorem floorLog2_eq {q : Rat} (hq : 0 < q) : floorLog2 q = Int.log 2 q := by
  have hnum : q.num.natAbs ≠ 0 := Int.natAbs_ne_zero.2 (Rat.num_pos.2 hq).ne'
  rw [← log_of_lengths (by decide) hq (Nat.log2_self_le hnum) Nat.lt_log2_self
    (Nat.log2_self_le q.den_pos.ne') Nat.lt_log2_self]
  rfl

/-- The number of decimal digits of a positive number, in powers of ten. -/
private theorem pow_length_toDigits {n : Nat} (hn : 0 < n) :
    10 ^ ((Nat.toDigits 10 n).length - 1) ≤ n ∧
      n < 10 ^ ((Nat.toDigits 10 n).length - 1 + 1) := by
  have hlen : 0 < (Nat.toDigits 10 n).length := Nat.length_toDigits_pos
  constructor
  · rcases Nat.lt_or_ge 0 ((Nat.toDigits 10 n).length - 1) with h | h
    · by_contra hlt
      have := (Nat.length_toDigits_le_iff (by decide) h).2 (Nat.not_le.1 hlt)
      omega
    · rw [Nat.le_zero.1 h]
      exact hn
  · rw [Nat.sub_add_cancel hlen]
    exact (Nat.length_toDigits_le_iff (by decide) hlen).1 Nat.le.refl

/-- `floorLog10` is the logarithm to base ten. -/
theorem floorLog10_eq {q : Rat} (hq : 0 < q) : floorLog10 q = Int.log 10 q := by
  obtain ⟨hnum, hnum'⟩ := pow_length_toDigits (Int.natAbs_pos.2 (Rat.num_pos.2 hq).ne')
  obtain ⟨hden, hden'⟩ := pow_length_toDigits q.den_pos
  have hi : 0 < (Nat.toDigits 10 q.num.natAbs).length := Nat.length_toDigits_pos
  have hj : 0 < (Nat.toDigits 10 q.den).length := Nat.length_toDigits_pos
  rw [← log_of_lengths (by decide) hq hnum hnum' hden hden']
  have hdiff : (((Nat.toDigits 10 q.num.natAbs).length - 1 : Nat) : Int)
        - ((Nat.toDigits 10 q.den).length - 1 : Nat)
      = ((Nat.toDigits 10 q.num.natAbs).length : Int) - (Nat.toDigits 10 q.den).length := by
    omega
  rw [hdiff]
  rfl

/-! ### Rounding to an integer -/

/-- An integer less than a half away is the nearest one, and an even one at most a half away. -/
theorem roundHalfEven_eq {q : Rat} {z : Int} (hle : |q - z| ≤ 1 / 2)
    (hlt : z % 2 ≠ 0 → |q - z| < 1 / 2) : roundHalfEven q = z := by
  have hfloor : (q.floor : Rat) ≤ q := Int.floor_le q
  have hfloor' : q < q.floor + 1 := Int.lt_floor_add_one q
  rw [abs_le] at hle
  -- the floor is the integer itself or the one below
  have hcases : q.floor = z ∨ q.floor = z - 1 := by
    have h1 : (q.floor : Rat) < z + 1 := by linarith
    have h2 : (z : Rat) - 2 < q.floor := by linarith
    have h1' : q.floor < z + 1 := by exact_mod_cast h1
    have h2' : z - 2 < q.floor := by exact_mod_cast h2
    omega
  rw [roundHalfEven]
  rcases hcases with h | h
  · rw [h]
    by_cases heven : z % 2 = 0
    · simp only [heven, if_true]
      split
      · rfl
      · rw [if_neg (by linarith)]
    · have := (abs_lt.1 (hlt heven)).2
      simp only [if_pos (show 2 * (q - (z : Rat)) < 1 by linarith)]
  · have hz : ((z - 1 : Int) : Rat) = z - 1 := by push_cast; ring
    have hsucc : z - 1 + 1 = z := by ring
    rw [h]
    simp only [hz, hsucc]
    by_cases heven : z % 2 = 0
    · rw [if_neg (by linarith), if_neg (show ¬ (z - 1) % 2 = 0 by omega)]
      exact ite_self _
    · have := (abs_lt.1 (hlt heven)).1
      rw [if_neg (by linarith), if_pos (by linarith)]

/-- The nearest integer is at most a half away. -/
theorem abs_roundHalfEven_sub_le (q : Rat) : |(roundHalfEven q : Rat) - q| ≤ 1 / 2 := by
  have hfloor : (q.floor : Rat) ≤ q := Int.floor_le q
  have hfloor' : q < q.floor + 1 := Int.lt_floor_add_one q
  rw [abs_le]
  unfold roundHalfEven
  dsimp only
  split
  · constructor <;> linarith
  · split
    · push_cast
      constructor <;> linarith
    · split
      · constructor <;> linarith
      · push_cast
        constructor <;> linarith

/-- An integer is its own nearest integer. -/
theorem roundHalfEven_intCast (z : Int) : roundHalfEven z = z :=
  roundHalfEven_eq (by simp) (by simp)

/-! ### Rounding to a format -/

namespace Binary

variable {f : Format}

/-- The weight of the last place that a magnitude is rounded at. -/
def lastPlace (f : Format) (q : Rat) : Int :=
  max f.minExponent (floorLog2 q - (f.precision - 1))

/-- Rounding cuts the magnitude at its last place. -/
theorem ofMagnitude_eq (negative : Bool) (q : Rat) :
    (ofMagnitude negative q : Binary f) =
      if (roundHalfEven (q / (2 : Rat) ^ lastPlace f q)).toNat = f.limit then
        ofParts negative f.normalStart (lastPlace f q + 1)
      else
        ofParts negative (roundHalfEven (q / (2 : Rat) ^ lastPlace f q)).toNat (lastPlace f q) :=
  rfl

theorem ofParts_of_canonical (negative : Bool) {significand : Nat} {exponent : Int}
    (h : f.Canonical significand exponent) :
    ofParts negative significand exponent = finite negative significand exponent h :=
  dif_pos h

theorem cast_limit : ((f.limit : Nat) : Rat) = (2 : Rat) ^ (f.precision : Int) := by
  rw [zpow_natCast]
  exact_mod_cast rfl

theorem cast_normalStart :
    ((f.normalStart : Nat) : Rat) = (2 : Rat) ^ ((f.precision : Int) - 1) := by
  have := f.two_le_precision
  rw [show (f.precision : Int) - 1 = ((f.precision - 1 : Nat) : Int) by omega, zpow_natCast]
  exact_mod_cast rfl

/-- In the binade of the exponent the last place is the exponent. -/
theorem lastPlace_of_binade {q : Rat} {exponent : Int} (hmin : f.minExponent ≤ exponent)
    (hlower : f.normalStart * (2 : Rat) ^ exponent ≤ q)
    (hupper : q < f.limit * (2 : Rat) ^ exponent) : lastPlace f q = exponent := by
  have hq : 0 < q := lt_of_lt_of_le (mul_pos (by exact_mod_cast f.normalStart_pos) (by positivity))
    hlower
  rw [cast_normalStart, ← zpow_add₀ (by norm_num)] at hlower
  rw [cast_limit, ← zpow_add₀ (by norm_num)] at hupper
  have h1 := (Int.zpow_le_iff_le_log (b := 2) (by decide) hq).1 hlower
  have h2 := (Int.lt_zpow_iff_log_lt (b := 2) (by decide) hq).1 hupper
  rw [lastPlace, floorLog2_eq hq]
  omega

/-- Below the first normal numbers the last place is the least one. -/
theorem lastPlace_of_small {q : Rat} (hq : 0 < q)
    (hupper : q < f.limit * (2 : Rat) ^ f.minExponent) : lastPlace f q = f.minExponent := by
  rw [cast_limit, ← zpow_add₀ (by norm_num)] at hupper
  have h := (Int.lt_zpow_iff_log_lt (b := 2) (by decide) hq).1 hupper
  rw [lastPlace, floorLog2_eq hq]
  omega

/-- A quotient that rounds to a significand of the format gives that significand. -/
theorem ofMagnitude_of_quotient (negative : Bool) {q : Rat} {significand : Nat} {exponent : Int}
    (h : f.Canonical significand exponent) (hplace : lastPlace f q = exponent)
    (hround : roundHalfEven (q / (2 : Rat) ^ exponent) = significand) :
    (ofMagnitude negative q : Binary f) = finite negative significand exponent h := by
  rw [ofMagnitude_eq, hplace, hround, Int.toNat_natCast, if_neg (Nat.ne_of_lt h.1),
    ofParts_of_canonical]

/-- A quotient that rounds to the limit of the significands gives the next power of two. -/
theorem ofMagnitude_of_quotient_eq_limit (negative : Bool) {q : Rat} {exponent : Int}
    (h : f.Canonical f.normalStart (exponent + 1)) (hplace : lastPlace f q = exponent)
    (hround : roundHalfEven (q / (2 : Rat) ^ exponent) = f.limit) :
    (ofMagnitude negative q : Binary f) = finite negative f.normalStart (exponent + 1) h := by
  rw [ofMagnitude_eq, hplace, hround, Int.toNat_natCast, if_pos rfl, ofParts_of_canonical]

/-- A quotient by a power of two is as far from an integer as the numbers themselves are, in units
of that power. -/
private theorem abs_quotient_sub (q : Rat) (z exponent : Int) :
    |q / (2 : Rat) ^ exponent - z| = |q - z * (2 : Rat) ^ exponent| / (2 : Rat) ^ exponent := by
  have hpos : (0 : Rat) < (2 : Rat) ^ exponent := by positivity
  rw [← abs_of_pos hpos, ← abs_div, abs_of_pos hpos, sub_div, mul_div_cancel_right₀ _ hpos.ne']

/-- Within half a unit of an integer multiple of `2 ^ exponent` the quotient rounds to that
integer. A number that is half a unit away rounds to it only if it is even. -/
theorem roundHalfEven_quotient {q : Rat} {z exponent : Int}
    (hle : |q - z * (2 : Rat) ^ exponent| ≤ (2 : Rat) ^ exponent / 2)
    (hlt : z % 2 ≠ 0 → |q - z * (2 : Rat) ^ exponent| < (2 : Rat) ^ exponent / 2) :
    roundHalfEven (q / (2 : Rat) ^ exponent) = z := by
  have hpos : (0 : Rat) < (2 : Rat) ^ exponent := by positivity
  apply roundHalfEven_eq
  · rw [abs_quotient_sub, div_le_iff₀ hpos]
    linarith
  · intro hodd
    rw [abs_quotient_sub, div_lt_iff₀ hpos]
    linarith [hlt hodd]

end Binary

namespace RoundingInterval

/-- Members of an interval are between its ends, and off them unless it is closed. -/
theorem contains_iff {i : RoundingInterval} {q : Rat} :
    i.contains q = true ↔
      i.lower ≤ q ∧ q ≤ i.upper ∧ (i.closed = false → i.lower < q ∧ q < i.upper) := by
  cases h : i.closed with
  | true => simp [contains, h]
  | false =>
    simp only [contains, h, Bool.false_eq_true, if_false, Bool.and_eq_true, decide_eq_true_eq,
      true_implies]
    exact ⟨fun ⟨h1, h2⟩ => ⟨h1.le, h2.le, h1, h2⟩, fun ⟨_, _, h1, h2⟩ => ⟨h1, h2⟩⟩

/-- What is strictly between the ends is a member. -/
theorem contains_of_lt {i : RoundingInterval} {q : Rat} (hlower : i.lower < q)
    (hupper : q < i.upper) :
    i.contains q = true :=
  contains_iff.2 ⟨hlower.le, hupper.le, fun _ => ⟨hlower, hupper⟩⟩

/-- What is above the lower end but no member is not below the upper end. -/
theorem upper_le_of_not_contains {i : RoundingInterval} {q : Rat} (hlower : i.lower < q)
    (h : i.contains q = false) : i.upper ≤ q := by
  by_contra hupper
  rw [contains_of_lt hlower (not_le.1 hupper)] at h
  cases h

/-- What is below the upper end but no member is not above the lower end. -/
theorem le_lower_of_not_contains {i : RoundingInterval} {q : Rat} (hupper : q < i.upper)
    (h : i.contains q = false) : q ≤ i.lower := by
  by_contra hlower
  rw [contains_of_lt (not_le.1 hlower) hupper] at h
  cases h

variable (f : Format) (significand : Nat) (exponent : Int)

/-- How far the interval reaches below its number. -/
def marginBelow : Rat :=
  if significand = f.normalStart ∧ f.minExponent < exponent then (2 : Rat) ^ exponent / 4
  else (2 : Rat) ^ exponent / 2

theorem around_lower : (around f significand exponent).lower =
    significand * (2 : Rat) ^ exponent - marginBelow f significand exponent := rfl

theorem around_upper : (around f significand exponent).upper =
    significand * (2 : Rat) ^ exponent + (2 : Rat) ^ exponent / 2 := rfl

theorem around_closed :
    (around f significand exponent).closed = (significand % 2 == 0) := rfl

theorem marginBelow_le : marginBelow f significand exponent ≤ (2 : Rat) ^ exponent / 2 := by
  have hpos : (0 : Rat) < (2 : Rat) ^ exponent := by positivity
  rw [marginBelow]
  split <;> linarith

theorem le_marginBelow : (2 : Rat) ^ exponent / 4 ≤ marginBelow f significand exponent := by
  have hpos : (0 : Rat) < (2 : Rat) ^ exponent := by positivity
  rw [marginBelow]
  split <;> linarith

theorem marginBelow_pos : 0 < marginBelow f significand exponent :=
  lt_of_lt_of_le (by positivity) (le_marginBelow f significand exponent)

end RoundingInterval

namespace Binary

variable {f : Format}

/-- In its own binade, or below the first normal numbers, a number is what all numbers within half
a unit round to. -/
private theorem ofMagnitude_of_regular (negative : Bool) {q : Rat} {significand : Nat}
    {exponent : Int} (h : f.Canonical significand exponent) (hpos : 0 < significand)
    (hle : |q - significand * (2 : Rat) ^ exponent| ≤ (2 : Rat) ^ exponent / 2)
    (hlt : significand % 2 ≠ 0 →
      |q - significand * (2 : Rat) ^ exponent| < (2 : Rat) ^ exponent / 2)
    (hbinade : f.minExponent < exponent → f.normalStart * (2 : Rat) ^ exponent ≤ q) :
    (ofMagnitude negative q : Binary f) = finite negative significand exponent h := by
  obtain ⟨hlimit, hmin, hmax, -⟩ := h
  have hunit : (0 : Rat) < (2 : Rat) ^ exponent := by positivity
  have hround : roundHalfEven (q / (2 : Rat) ^ exponent) = significand :=
    roundHalfEven_quotient (by exact_mod_cast hle)
      (fun hodd => by exact_mod_cast hlt (by omega))
  -- the largest significand is odd, so its interval ends before the next binade
  have hupper : q < f.limit * (2 : Rat) ^ exponent := by
    rcases Nat.lt_or_ge (significand + 1) f.limit with hsmall | hlast
    · have hcast : ((significand : Rat) + 1) * (2 : Rat) ^ exponent
          ≤ f.limit * (2 : Rat) ^ exponent := by
        apply mul_le_mul_of_nonneg_right _ hunit.le
        exact_mod_cast hsmall.le
      linarith [(abs_le.1 hle).2]
    · have hlast' : significand + 1 = f.limit := by omega
      have hodd : significand % 2 ≠ 0 := by
        have := f.limit_eq
        omega
      have hcast : ((significand : Rat) + 1) = f.limit := by exact_mod_cast hlast'
      rw [← hcast]
      linarith [(abs_lt.1 (hlt hodd)).2]
  refine ofMagnitude_of_quotient negative _ ?_ hround
  rcases lt_or_eq_of_le hmin with hlt' | heq
  · exact lastPlace_of_binade hmin (hbinade hlt') hupper
  · have hq : 0 < q := by
      have hone : (1 : Rat) * (2 : Rat) ^ exponent ≤ significand * (2 : Rat) ^ exponent := by
        apply mul_le_mul_of_nonneg_right _ hunit.le
        exact_mod_cast hpos
      linarith [(abs_le.1 hle).1]
    rw [← heq] at hupper ⊢
    exact lastPlace_of_small hq hupper

/-- Below a power of two the units are half as large, so a quarter of its unit rounds up to it. -/
private theorem ofMagnitude_below_start (negative : Bool) {q : Rat} {exponent : Int}
    (h : f.Canonical f.normalStart exponent) (hmin : f.minExponent < exponent)
    (hlower : f.normalStart * (2 : Rat) ^ exponent - (2 : Rat) ^ exponent / 4 ≤ q)
    (hupper : q < f.normalStart * (2 : Rat) ^ exponent) :
    (ofMagnitude negative q : Binary f) = finite negative f.normalStart exponent h := by
  obtain ⟨e, rfl⟩ : ∃ e, exponent = e + 1 := ⟨exponent - 1, by ring⟩
  have hunit : (0 : Rat) < (2 : Rat) ^ e := by positivity
  have hhalf : (2 : Rat) ^ (e + 1) = 2 * (2 : Rat) ^ e := by
    rw [zpow_add_one₀ (by norm_num)]
    ring
  rw [hhalf] at hlower hupper
  have hlimit : (f.limit : Rat) = 2 * f.normalStart := by exact_mod_cast f.limit_eq
  have hone : (1 : Rat) ≤ f.normalStart := by exact_mod_cast f.normalStart_pos
  have hstart : (2 : Rat) ^ e ≤ f.normalStart * (2 : Rat) ^ e :=
    le_mul_of_one_le_left hunit.le hone
  apply ofMagnitude_of_quotient_eq_limit
  · exact lastPlace_of_binade (by omega) (by linarith) (by rw [hlimit]; linarith)
  · apply roundHalfEven_quotient
    · rw [abs_le]
      push_cast
      rw [hlimit]
      constructor <;> linarith
    · intro hodd
      have := f.limit_eq
      omega

/-- Everything in the interval around a positive number rounds to that number. -/
theorem ofMagnitude_of_contains (negative : Bool) {q : Rat} {significand : Nat} {exponent : Int}
    (h : f.Canonical significand exponent) (hpos : 0 < significand)
    (hq : (RoundingInterval.around f significand exponent).contains q = true) :
    (ofMagnitude negative q : Binary f) = finite negative significand exponent h := by
  obtain ⟨hlower, hupper, hopen⟩ := RoundingInterval.contains_iff.1 hq
  rw [RoundingInterval.around_lower] at hlower hopen
  rw [RoundingInterval.around_upper] at hupper hopen
  rw [RoundingInterval.around_closed] at hopen
  have hunit : (0 : Rat) < (2 : Rat) ^ exponent := by positivity
  have hmargin := RoundingInterval.marginBelow_le f significand exponent
  have hle : |q - significand * (2 : Rat) ^ exponent| ≤ (2 : Rat) ^ exponent / 2 :=
    abs_le.2 ⟨by linarith, by linarith⟩
  have hlt (hodd : significand % 2 ≠ 0) :
      |q - significand * (2 : Rat) ^ exponent| < (2 : Rat) ^ exponent / 2 := by
    obtain ⟨h1, h2⟩ := hopen (by simpa using hodd)
    exact abs_lt.2 ⟨by linarith, by linarith⟩
  by_cases hbinade : f.minExponent < exponent → f.normalStart * (2 : Rat) ^ exponent ≤ q
  · exact ofMagnitude_of_regular negative h hpos hle hlt hbinade
  -- only numbers below a power of two are left
  obtain ⟨hmin, hq'⟩ := Classical.not_imp.1 hbinade
  rw [not_le] at hq'
  have hnormal : f.normalStart ≤ significand := h.2.2.2.resolve_right hmin.ne'
  have hstart : significand = f.normalStart := by
    by_contra hne
    have hcast : ((f.normalStart : Rat) + 1) * (2 : Rat) ^ exponent
        ≤ significand * (2 : Rat) ^ exponent := by
      apply mul_le_mul_of_nonneg_right _ hunit.le
      exact_mod_cast Nat.lt_of_le_of_ne hnormal (Ne.symm hne)
    linarith [(abs_le.1 hle).1]
  subst hstart
  rw [RoundingInterval.marginBelow, if_pos ⟨rfl, hmin⟩] at hlower
  exact ofMagnitude_below_start negative h hmin hlower hq'

end Binary

end FakeQuant
