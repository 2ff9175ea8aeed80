import FakeQuant.Proofs.Clamping

/-!
# Rounding a zero point half upward

`Grid.effectiveZeroPoint` adds one half to the continuous zero point and takes the largest integer
not above the sum. The sum itself is rounded, so it can reach the next integer although the exact
sum does not. This happens at two places (`Binary.CarriesOver`):

* at the last number below one half, where the sum is rounded to one;
* at the odd integers from `2 ^ 23` up to `2 ^ 24` in magnitude. There the last place is one, so the
  sum is halfway between two integers and goes to the even one above.

It happens nowhere else (`Binary.floor_add_half`). From `2 ^ 24` on a half is too small to change
the number at all. Below `2 ^ 23` the exact sum is at least one place of the zero point away from
the next integer (`Binary.two_pow_le_sub`), so only a sum with a larger place can reach it. Such a
sum has just passed a power of two: either an integer, and then it is more than a half away from the
next one, or a power up to one half, and then the next integer is one.

So on a grid with bounds of up to 24 bits the zero point that is applied is the one rounded half
upward in exact arithmetic and moved into the range, but for the zero points that carry over
(`zero_point_half_up_iff`).
-/

namespace FakeQuant

open Binary

namespace Binary

variable {z : Single}

/-- An odd integer between the magnitudes where the last place is one. -/
def WideOdd (n : Int) : Prop :=
  n % 2 = 1 ∧ 2 ^ 23 ≤ n.natAbs ∧ n.natAbs < 2 ^ 24

instance (n : Int) : Decidable (WideOdd n) :=
  inferInstanceAs (Decidable (_ ∧ _ ∧ _))

/-- The zero point is the last number below one half or a wide odd integer. -/
def CarriesOver (z : Single) : Prop :=
  z.value = 1 / 2 - 1 / 2 ^ 25 ∨ ∃ n : Int, z.Represents n ∧ WideOdd n

/-- The only integer to try is the floor. -/
theorem carriesOver_iff_floor (z : Single) :
    z.CarriesOver ↔
      z.value = 1 / 2 - 1 / 2 ^ 25 ∨ (z.Represents ⌊z.value⌋ ∧ WideOdd ⌊z.value⌋) := by
  refine or_congr_right ⟨?_, fun h => ⟨_, h⟩⟩
  rintro ⟨n, hn, hodd⟩
  rw [hn.2, Int.floor_intCast]
  exact ⟨hn, hodd⟩

instance (z : Single) : Decidable z.CarriesOver :=
  decidable_of_iff' _ (carriesOver_iff_floor z)

/-! ### The sum with one half -/

theorem isFinite_add_half (hz : z.isFinite = true) :
    (z + ofRat false (1 / 2)).isFinite = true := by
  rw [add_of_finite hz half_single.1, half_single.2]
  apply isFinite_ofRat_of_abs_le
  exact (abs_add_le _ _).trans (add_le_add (abs_value_le z) (by norm_num))

theorem value_add_half (hz : z.isFinite = true) :
    (z + ofRat false (1 / 2)).value = rounded .single (z.value + 1 / 2) := by
  have hfinite := isFinite_add_half hz
  rw [add_of_finite hz half_single.1, half_single.2] at hfinite ⊢
  exact value_ofRat hfinite

/-! ### Large zero points -/

/-- From `2 ^ 24` on the sum lies in the interval of numbers that round to the zero point. -/
theorem add_half_of_large (hz : z.isFinite = true) (hlarge : 2 ^ 24 ≤ |z.value|) :
    z + ofRat false (1 / 2) = z := by
  rw [add_of_finite hz half_single.1, half_single.2]
  obtain ⟨negative, m, e, canonical, rfl⟩ := exists_finite_eq hz
  have hmagnitude : (2 : Rat) ^ 24 ≤ m * (2 : Rat) ^ e := by
    rwa [value_finite, apply_ite abs, abs_neg, ite_self, abs_of_nonneg (by positivity)] at hlarge
  have hm : m ≤ 2 ^ 24 - 1 := Nat.le_pred_of_lt canonical.1
  have he : 1 ≤ e := by
    by_contra hlt
    have hone : (2 : Rat) ^ e ≤ 1 := zpow_le_one_of_nonpos₀ (by norm_num) (by omega)
    have hm' : (m : Rat) ≤ ((2 ^ 24 - 1 : Nat) : Rat) := by exact_mod_cast hm
    have := hmagnitude.trans (mul_le_mul hm' hone (by positivity) (by positivity))
    norm_num at this
  have hunit : (2 : Rat) ≤ (2 : Rat) ^ e := by
    simpa using zpow_le_zpow_right₀ (show (1 : Rat) ≤ 2 by norm_num) he
  have hpos : 0 < m := by
    rcases Nat.eq_zero_or_pos m with rfl | hpos
    · norm_num at hmagnitude
    · exact hpos
  rw [value_finite]
  cases negative with
  | true =>
    rw [if_pos rfl, ofRat_of_neg _ (by linarith)]
    refine ofMagnitude_of_contains true canonical hpos (RoundingInterval.contains_iff.2 ?_)
    rw [RoundingInterval.around_lower, RoundingInterval.around_upper,
      RoundingInterval.around_closed]
    have hmargin := RoundingInterval.le_marginBelow .single m e
    refine ⟨by linarith, by linarith, fun hodd => ⟨?_, by linarith⟩⟩
    -- a power of two is even, so the neighbour below is a whole place away
    have hregular : RoundingInterval.marginBelow .single m e = (2 : Rat) ^ e / 2 := by
      refine if_neg fun hstart => ?_
      rw [hstart.1] at hodd
      revert hodd
      decide
    rw [hregular]
    linarith
  | false =>
    rw [if_neg Bool.false_ne_true, ofRat_of_pos _ (by linarith)]
    apply ofMagnitude_of_contains false canonical hpos
    have hmargin := RoundingInterval.marginBelow_pos .single m e
    apply RoundingInterval.contains_of_lt
    · rw [RoundingInterval.around_lower]
      linarith
    · rw [RoundingInterval.around_upper]
      linarith

/-! ### Integers with the last place one -/

/-- Halfway between two integers with the last place one, rounding goes to the even integer. -/
theorem rounded_add_half_of_wide {n k : Int} (hwide : 2 ^ 23 ≤ n.natAbs)
    (hlimit : n.natAbs < 2 ^ 24) (hstart : n ≠ -2 ^ 23) (heven : k % 2 = 0)
    (hk : k = n ∨ k = n + 1) :
    rounded .single (n + 1 / 2) = k := by
  have habs : ((2 ^ 23 : Nat) : Rat) ≤ |(n : Rat) + 1 / 2| ∧
      |(n : Rat) + 1 / 2| < ((2 ^ 24 : Nat) : Rat) := by
    rcases le_or_gt 0 n with hn | hn
    · have hlow : (2 ^ 23 : Rat) ≤ n := by exact_mod_cast (by omega : (2 ^ 23 : Int) ≤ n)
      have hhigh : (n : Rat) ≤ 2 ^ 24 - 1 := by exact_mod_cast (by omega : n ≤ 2 ^ 24 - 1)
      rw [abs_of_pos (by linarith)]
      push_cast
      constructor <;> linarith
    · have hlow : (n : Rat) ≤ -(2 ^ 23 + 1) := by
        exact_mod_cast (by omega : n ≤ -(2 ^ 23 + 1))
      have hhigh : -(2 ^ 24 - 1) ≤ (n : Rat) := by exact_mod_cast (by omega : -(2 ^ 24 - 1) ≤ n)
      rw [abs_of_neg (by linarith)]
      push_cast
      constructor <;> linarith
  have hnear : |(n : Rat) + 1 / 2 - k| ≤ 1 / 2 := by
    rcases hk with rfl | rfl
    · rw [add_sub_cancel_left, abs_of_pos (by norm_num)]
    · push_cast
      rw [add_sub_add_left_eq_sub]
      norm_num
  have hround : rounded .single (n + 1 / 2) = k * (2 : Rat) ^ (0 : Int) := by
    apply rounded_of_binade (by decide)
    · rw [zpow_zero, mul_one, normalStart_single]
      exact habs.1
    · rw [zpow_zero, mul_one, limit_single]
      exact habs.2
    · rwa [zpow_zero, mul_one]
    · exact fun hodd => absurd heven hodd
  rwa [zpow_zero, mul_one] at hround

/-! ### Small zero points -/

/-- Below `2 ^ 23` the place of a number is behind the point. -/
theorem exists_place_of_small (hz : z.isFinite = true) (hsmall : |z.value| < 2 ^ 23) :
    ∃ m e : Int, z.value = m * (2 : Rat) ^ e ∧ |z.value| < 2 ^ 24 * (2 : Rat) ^ e ∧
      Format.single.minExponent ≤ e ∧ e ≤ -1 := by
  obtain ⟨m, e, hvalue, hlimit, hmin, hnormal⟩ := exists_significand hz
  rw [limit_single] at hlimit
  rw [normalStart_single] at hnormal
  have hpos : (0 : Rat) < (2 : Rat) ^ e := by positivity
  have habs : |z.value| = m.natAbs * (2 : Rat) ^ e := by
    rw [hvalue, abs_mul, abs_of_pos hpos, abs_intCast]
  refine ⟨m, e, hvalue, ?_, hmin, ?_⟩
  · rw [habs]
    exact mul_lt_mul_of_pos_right (by exact_mod_cast hlimit) hpos
  · by_contra hge
    have hm : 2 ^ 23 ≤ m.natAbs := hnormal.resolve_right fun hmin => hge (hmin ▸ by decide)
    have hm' : (2 ^ 23 : Rat) ≤ m.natAbs := by exact_mod_cast hm
    have hone : (1 : Rat) ≤ (2 : Rat) ^ e := one_le_zpow₀ (by norm_num) (by omega)
    have hle := mul_le_mul hm' hone (by norm_num) (by positivity)
    linarith

/-- A sum below an integer is at least one place of the zero point below it. -/
theorem two_pow_le_sub {v : Rat} {m e n : Int} (hvalue : v = m * (2 : Rat) ^ e) (he : e ≤ -1)
    (h : v + 1 / 2 < n) : (2 : Rat) ^ e ≤ n - (v + 1 / 2) := by
  obtain ⟨k, hk⟩ := Int.eq_ofNat_of_zero_le (show 0 ≤ -1 - e by omega)
  have hpos : (0 : Rat) < (2 : Rat) ^ e := by positivity
  -- one half is a multiple of the place as well
  have hhalf : (2 : Rat) ^ k * (2 : Rat) ^ e = 1 / 2 := by
    rw [← zpow_natCast, ← zpow_add₀ (by norm_num), show (k : Int) + e = -1 by omega]
    norm_num
  have hmultiple : n - (v + 1 / 2) = (n * 2 ^ (k + 1) - m - 2 ^ k : Int) * (2 : Rat) ^ e := by
    push_cast
    rw [hvalue, sub_mul, sub_mul, hhalf, mul_assoc, pow_succ', mul_assoc, hhalf]
    ring
  have hgap : (0 : Rat) < n - (v + 1 / 2) := by linarith
  rw [hmultiple] at hgap ⊢
  have hone : 0 < n * 2 ^ (k + 1) - m - 2 ^ k := by
    exact_mod_cast (pos_iff_pos_of_mul_pos hgap).2 hpos
  exact le_mul_of_one_le_left hpos.le (by exact_mod_cast hone)

/-- The numbers below one half, except for the last, are more than its place away. -/
theorem lt_half_sub (hlt : z.value < 1 / 2) (hne : z.value ≠ 1 / 2 - 1 / 2 ^ 25) :
    1 / 2 ^ 25 < 1 / 2 - z.value := by
  rcases lt_or_ge z.value (1 / 4) with hquarter | hquarter
  · linarith
  -- from one quarter on the last place of the numbers is `2 ^ -25`
  have hplace : lastPlace .single z.value = -25 := by
    apply lastPlace_of_binade (by decide)
    · rw [normalStart_single]
      norm_num
      linarith
    · rw [limit_single]
      norm_num
      linarith
  have hmultiple := rounded_value z
  rw [rounded_of_pos (by linarith), roundedMagnitude, hplace] at hmultiple
  generalize roundHalfEven (z.value / (2 : Rat) ^ (-25 : Int)) = k at hmultiple
  have hunit : (2 : Rat) ^ (-25 : Int) = 1 / 2 ^ 25 := by norm_num
  rw [hunit] at hmultiple
  rw [← hmultiple] at hlt hne ⊢
  have hk : (k : Rat) < (2 ^ 24 : Int) := by
    push_cast
    linarith
  have hk' : k ≠ 2 ^ 24 - 1 := by
    rintro rfl
    norm_num at hne
  have hle : k ≤ 2 ^ 24 - 2 := by
    have := Int.cast_lt.1 hk
    omega
  have hle' : (k : Rat) ≤ 2 ^ 24 - 2 := by exact_mod_cast hle
  linarith

/-- A sum that has passed a power of two is more than half of its place below the next integer: the
power is an integer with at most one as the place, or it is one half or less. -/
theorem half_place_lt_sub (hsmall : z.value < 2 ^ 23) (hne : z.value ≠ 1 / 2 - 1 / 2 ^ 25)
    {place n : Int} (hbelow : z.value < 2 ^ 23 * (2 : Rat) ^ place)
    (hpassed : 2 ^ 23 * (2 : Rat) ^ place ≤ z.value + 1 / 2) (h : z.value + 1 / 2 < n) :
    (2 : Rat) ^ place / 2 < n - (z.value + 1 / 2) := by
  rcases le_or_gt (-23) place with hinteger | hhalf
  · obtain ⟨k, hk⟩ := Int.eq_ofNat_of_zero_le (show 0 ≤ 23 + place by omega)
    have hpower : 2 ^ 23 * (2 : Rat) ^ place = ((2 ^ k : Int) : Rat) := by
      rw [← zpow_natCast, ← zpow_add₀ (by norm_num), Nat.cast_ofNat, hk]
      push_cast
      rfl
    rw [hpower] at hbelow hpassed
    have hnext : 2 ^ k + 1 ≤ n := by
      have := hpassed.trans_lt h
      exact_mod_cast this
    have hplace : (2 : Rat) ^ place ≤ 1 := by
      refine zpow_le_one_of_nonpos₀ (by norm_num) (not_lt.1 fun hpos => ?_)
      have hlarge : (2 ^ 24 : Int) ≤ 2 ^ k := pow_le_pow_right₀ (by norm_num) (by omega)
      have hlarge' : (2 ^ 24 : Rat) ≤ ((2 ^ k : Int) : Rat) := by exact_mod_cast hlarge
      linarith
    have hnext' : ((2 ^ k : Int) : Rat) + 1 ≤ n := by exact_mod_cast hnext
    linarith
  · have hplace : (2 : Rat) ^ place ≤ (2 : Rat) ^ (-24 : Int) :=
      zpow_le_zpow_right₀ (by norm_num) (by omega)
    norm_num at hplace
    have hgap := lt_half_sub (by linarith) hne
    have hpos : (0 : Rat) < (2 : Rat) ^ place := by positivity
    have hone : (1 : Rat) ≤ n := by
      have hn : (0 : Rat) < n := by linarith
      exact_mod_cast hn
    linarith

/-- Below `2 ^ 23` the sum does not reach an integer that the exact sum is below, unless the zero
point is the last number below one half. -/
theorem rounded_add_half_lt (hz : z.isFinite = true) (hsmall : |z.value| < 2 ^ 23)
    (hne : z.value ≠ 1 / 2 - 1 / 2 ^ 25) {n : Int} (h : z.value + 1 / 2 < n) :
    rounded .single (z.value + 1 / 2) < n := by
  obtain ⟨m, e, hvalue, habs, hmin, he⟩ := exists_place_of_small hz hsmall
  have hgap := two_pow_le_sub hvalue he h
  have herror := abs_le.1 (abs_rounded_sub_le_half .single (z.value + 1 / 2))
  rcases le_or_gt (lastPlace .single |z.value + 1 / 2|) e with hplace | hplace
  · have hstep : (2 : Rat) ^ lastPlace .single |z.value + 1 / 2| ≤ (2 : Rat) ^ e :=
      zpow_le_zpow_right₀ (by norm_num) hplace
    linarith [herror.2]
  rcases eq_or_ne (z.value + 1 / 2) 0 with hzero | hzero
  · rw [hzero] at h ⊢
    rwa [rounded_zero]
  -- the sum is past a power of two that the zero point is below
  have hlow := two_pow_lastPlace_le (abs_pos.2 hzero) (hmin.trans_lt hplace)
  rw [normalStart_single] at hlow
  push_cast at hlow
  have hbelow : |z.value| < 2 ^ 23 * (2 : Rat) ^ lastPlace .single |z.value + 1 / 2| := by
    have hstep : (2 : Rat) ^ (e + 1) ≤ (2 : Rat) ^ lastPlace .single |z.value + 1 / 2| :=
      zpow_le_zpow_right₀ (by norm_num) hplace
    rw [zpow_add_one₀ (by norm_num)] at hstep
    linarith
  have hsum : |z.value + 1 / 2| = z.value + 1 / 2 := by
    rcases abs_cases (z.value + 1 / 2) with ⟨hsum, -⟩ | ⟨hsum, -⟩
    · exact hsum
    · linarith [neg_abs_le z.value]
  rw [hsum] at hlow hbelow herror
  have hgap := half_place_lt_sub (lt_of_abs_lt hsmall) hne (lt_of_abs_lt hbelow) hlow h
  linarith [herror.2]

/-- So the rounded sum has the largest integer not above the exact one. -/
theorem floor_rounded_add_half (hz : z.isFinite = true) (hsmall : |z.value| < 2 ^ 23)
    (hne : z.value ≠ 1 / 2 - 1 / 2 ^ 25) :
    ⌊rounded .single (z.value + 1 / 2)⌋ = ⌊z.value + 1 / 2⌋ := by
  rw [Int.floor_eq_iff]
  constructor
  · have hkeep : rounded .single (⌊z.value + 1 / 2⌋ : Int) = (⌊z.value + 1 / 2⌋ : Int) := by
      obtain ⟨hlow, hhigh⟩ := abs_lt.1 hsmall
      have hle : -2 ^ 23 ≤ ⌊z.value + 1 / 2⌋ := Int.le_floor.2 (by push_cast; linarith)
      have hlt : ⌊z.value + 1 / 2⌋ < 2 ^ 23 + 1 := Int.floor_lt.2 (by push_cast; linarith)
      exact rounded_intCast (by decide) (by rw [limit_single]; omega)
    rw [← hkeep]
    exact rounded_mono .single (Int.floor_le _)
  · have hnext : z.value + 1 / 2 < ((⌊z.value + 1 / 2⌋ + 1 : Int) : Rat) := by
      push_cast
      exact Int.lt_floor_add_one _
    have hlt := rounded_add_half_lt hz hsmall hne hnext
    push_cast at hlt
    exact hlt

/-! ### The largest integer not above the sum -/

theorem floor_intCast_add_half (n : Int) : ⌊(n : Rat) + 1 / 2⌋ = n := by
  rw [Int.floor_eq_iff]
  constructor <;> linarith

/-- An integer carries over if it is a wide odd one. -/
theorem carriesOver_iff {n : Int} (hz : z.Represents n) : z.CarriesOver ↔ WideOdd n := by
  constructor
  · rintro (hlast | ⟨k, hk, hodd⟩)
    -- there is no integer between zero and one
    · rw [hz.2] at hlast
      have hlow : (0 : Rat) < n := by
        rw [hlast]
        norm_num
      have hhigh : (n : Rat) < 1 := by
        rw [hlast]
        norm_num
      have hlow' : 0 < n := by exact_mod_cast hlow
      have hhigh' : n < 1 := by exact_mod_cast hhigh
      omega
    · rwa [hz.unique hk]
  · exact fun hodd => .inr ⟨n, hz, hodd⟩

/-- Only the zero points that carry over reach the next integer by rounding. -/
theorem floor_add_half (hz : z.isFinite = true) (hcarry : ¬ z.CarriesOver) :
    ⌊(z + ofRat false (1 / 2)).value⌋ = ⌊z.value + 1 / 2⌋ := by
  rcases lt_or_ge |z.value| (2 ^ 23) with hsmall | hlarge
  · rw [value_add_half hz]
    exact floor_rounded_add_half hz hsmall fun hlast => hcarry (.inl hlast)
  obtain ⟨n, hn⟩ := (eq_intCast_or_abs_lt hz).resolve_right (not_lt.2 hlarge)
  have hwide : 2 ^ 23 ≤ n.natAbs := by
    rw [hn, abs_intCast] at hlarge
    exact_mod_cast hlarge
  rcases Nat.lt_or_ge n.natAbs (2 ^ 24) with hlimit | hlimit
  · have heven : n % 2 = 0 := by
      by_contra hodd
      exact hcarry (.inr ⟨n, ⟨hz, hn⟩, by omega, hwide, hlimit⟩)
    rw [value_add_half hz, hn, floor_intCast_add_half]
    by_cases hstart : n = -2 ^ 23
    · rw [hstart]
      decide +kernel
    · rw [rounded_add_half_of_wide hwide hlimit hstart heven (.inl rfl), Int.floor_intCast]
  · have hlarge' : 2 ^ 24 ≤ |z.value| := by
      rw [hn, abs_intCast]
      exact_mod_cast hlimit
    rw [add_half_of_large hz hlarge', hn, floor_intCast_add_half, Int.floor_intCast]

theorem floor_add_half_of_carriesOver (hz : z.isFinite = true) (hcarry : z.CarriesOver) :
    ⌊(z + ofRat false (1 / 2)).value⌋ = ⌊z.value + 1 / 2⌋ + 1 := by
  rw [value_add_half hz]
  rcases hcarry with hlast | ⟨n, hn, hodd, hwide, hlimit⟩
  · rw [hlast]
    decide +kernel
  · rw [hn.2, floor_intCast_add_half,
      rounded_add_half_of_wide hwide hlimit (by omega) (show (n + 1) % 2 = 0 by omega) (.inr rfl),
      Int.floor_intCast]

/-- The sum never leads to a wide odd integer: only the integer itself is near enough, and that
carries over. -/
theorem not_wideOdd_floor_add_half (hz : z.isFinite = true) :
    ¬ WideOdd ⌊(z + ofRat false (1 / 2)).value⌋ := by
  by_cases hcarry : z.CarriesOver
  · rw [floor_add_half_of_carriesOver hz hcarry]
    rcases hcarry with hlast | ⟨n, hn, hodd, -⟩
    · rw [hlast]
      decide +kernel
    · rw [hn.2, floor_intCast_add_half]
      rintro ⟨hodd', -⟩
      omega
  · rw [floor_add_half hz hcarry]
    rintro hodd
    have hle := Int.floor_le (z.value + 1 / 2)
    have hlt := Int.lt_floor_add_one (z.value + 1 / 2)
    have hlarge : 2 ^ 23 ≤ |z.value| := by
      obtain ⟨hodd, hwide, -⟩ := hodd
      rcases le_or_gt 0 ⌊z.value + 1 / 2⌋ with hsign | hsign
      · have hpos : ((2 ^ 23 + 1 : Int) : Rat) ≤ (⌊z.value + 1 / 2⌋ : Int) :=
          Int.cast_le.2 (by omega)
        refine le_trans ?_ (le_abs_self _)
        push_cast at hpos
        linarith
      · have hneg : (⌊z.value + 1 / 2⌋ : Int) ≤ ((-2 ^ 23 - 1 : Int) : Rat) :=
          Int.cast_le.2 (by omega)
        refine le_trans ?_ (neg_le_abs _)
        push_cast at hneg
        linarith
    obtain ⟨n, hn⟩ := (eq_intCast_or_abs_lt hz).resolve_right (not_lt.2 hlarge)
    rw [hn, floor_intCast_add_half] at hodd
    exact hcarry (.inr ⟨n, ⟨hz, hn⟩, hodd⟩)

end Binary

/-! ### The applied zero point -/

namespace Grid

variable (g : Grid)

/-- The integer moved into the range of the grid. -/
def nearestCode (n : Int) : Int :=
  min (max n g.low.toInt) g.high.toInt

theorem nearestCode_of_mem {n : Int} (h : n ∈ g) : g.nearestCode n = n := by
  obtain ⟨hlow, hhigh⟩ := h
  rw [nearestCode, max_eq_left hlow, min_eq_left hhigh]

theorem nearestCode_cases (n : Int) :
    g.nearestCode n = n ∨ g.nearestCode n = g.low.toInt ∨ g.nearestCode n = g.high.toInt := by
  rw [nearestCode]
  omega

theorem nearestCode_mem (n : Int) : g.nearestCode n ∈ g := by
  have hlt := Int32.lt_iff_toInt_lt.1 g.low_lt_high
  exact ⟨le_min (le_max_right _ _) hlt.le, min_le_right _ _⟩

/-- The next integer gives the same code exactly outside of the range. -/
theorem nearestCode_add_one_eq_iff (n : Int) :
    g.nearestCode (n + 1) = g.nearestCode n ↔ n < g.low.toInt ∨ g.high.toInt ≤ n := by
  have hlt := Int32.lt_iff_toInt_lt.1 g.low_lt_high
  rw [nearestCode, nearestCode]
  omega

variable {g} {code z : Single} {n : Int}

/-- On a grid with bounds of up to 24 bits an integer is moved as a number in the way it is moved as
an integer. -/
theorem represents_clamp (hlow : g.low.toInt.natAbs ≤ 2 ^ 24) (hhigh : g.high.toInt.natAbs ≤ 2 ^ 24)
    (hcode : code.Represents n) : (g.clamp code).Represents (g.nearestCode n) := by
  have hleast : g.least.Represents g.low.toInt := represents_ofRat hlow false
  have hgreatest : g.greatest.Represents g.high.toInt := represents_ofRat hhigh false
  have hlt := Int32.lt_iff_toInt_lt.1 g.low_lt_high
  rw [nearestCode]
  rcases g.cases_code (isNaN_of_isFinite hcode.1) with hbelow | hin | habove
  · rw [g.clamp_of_lt hbelow]
    rw [lt_iff_value hcode.1 hleast.1, hcode.2, hleast.2, Int.cast_lt] at hbelow
    rwa [max_eq_right hbelow.le, min_eq_left hlt.le]
  · rw [g.clamp_of_contains hin]
    obtain ⟨hmin, hmax⟩ := g.contains_iff.1 hin
    rw [le_iff_value hleast.1 hcode.1, hcode.2, hleast.2, Int.cast_le] at hmin
    rw [le_iff_value hcode.1 hgreatest.1, hcode.2, hgreatest.2, Int.cast_le] at hmax
    rwa [max_eq_left hmin, min_eq_left hmax]
  · rw [g.clamp_of_gt habove]
    rw [lt_iff_value hgreatest.1 hcode.1, hcode.2, hgreatest.2, Int.cast_lt] at habove
    rwa [max_eq_left (hlt.trans habove).le, min_eq_right habove.le]

theorem represents_effectiveZeroPoint (hlow : g.low.toInt.natAbs ≤ 2 ^ 24)
    (hhigh : g.high.toInt.natAbs ≤ 2 ^ 24) (hz : z.isFinite = true) :
    (g.effectiveZeroPoint z).Represents
      (g.nearestCode ⌊(z + ofRat false (1 / 2)).value⌋) :=
  represents_clamp hlow hhigh (represents_floor (isFinite_add_half hz))

end Grid

/-- **Rounding half upward**, for every grid with bounds of up to 24 bits. The zero point that is
applied for a finite one is the largest integer not above the exact sum with one half, moved into
the range, and the next integer for the zero points that carry over; that makes a difference exactly
inside the range. So an integer of the grid is applied as it is unless it is a wide odd one below
the greatest code, and applying the applied zero point again changes nothing exactly if the least
code is no such integer. -/
theorem zero_point_half_up_iff (g : Grid) (hlow : g.low.toInt.natAbs ≤ 2 ^ 24)
    (hhigh : g.high.toInt.natAbs ≤ 2 ^ 24) :
    (∀ z : Single, z.isFinite = true →
      let n := ⌊z.value + 1 / 2⌋
      (¬ z.CarriesOver → (g.effectiveZeroPoint z).Represents (g.nearestCode n)) ∧
      (z.CarriesOver → (g.effectiveZeroPoint z).Represents (g.nearestCode (n + 1))) ∧
      ((g.effectiveZeroPoint z).Represents (g.nearestCode n) ↔
        ¬ z.CarriesOver ∨ n < g.low.toInt ∨ g.high.toInt ≤ n)) ∧
    (∀ z : Single, ∀ n ∈ g, z.Represents n →
      ((g.effectiveZeroPoint z).Represents n ↔ ¬ WideOdd n ∨ n = g.high.toInt)) ∧
    ((∀ z : Single, z.isFinite = true →
      (g.effectiveZeroPoint (g.effectiveZeroPoint z)).numEq (g.effectiveZeroPoint z) = true) ↔
        ¬ WideOdd g.low.toInt) := by
  have hexact (z : Single) (hz : z.isFinite = true) :
      let n := ⌊z.value + 1 / 2⌋
      (¬ z.CarriesOver → (g.effectiveZeroPoint z).Represents (g.nearestCode n)) ∧
      (z.CarriesOver → (g.effectiveZeroPoint z).Represents (g.nearestCode (n + 1))) ∧
      ((g.effectiveZeroPoint z).Represents (g.nearestCode n) ↔
        ¬ z.CarriesOver ∨ n < g.low.toInt ∨ g.high.toInt ≤ n) := by
    intro n
    have happlied := Grid.represents_effectiveZeroPoint hlow hhigh hz
    have hplain (hcarry : ¬ z.CarriesOver) :
        (g.effectiveZeroPoint z).Represents (g.nearestCode n) := by
      rwa [floor_add_half hz hcarry] at happlied
    have hnext (hcarry : z.CarriesOver) :
        (g.effectiveZeroPoint z).Represents (g.nearestCode (n + 1)) := by
      rwa [floor_add_half_of_carriesOver hz hcarry] at happlied
    refine ⟨hplain, hnext, fun happlied => ?_, fun h => ?_⟩
    · by_cases hcarry : z.CarriesOver
      · exact .inr ((g.nearestCode_add_one_eq_iff n).1 ((hnext hcarry).unique happlied))
      · exact .inl hcarry
    · by_cases hcarry : z.CarriesOver
      · rw [← (g.nearestCode_add_one_eq_iff n).2 (h.resolve_left (not_not.2 hcarry))]
        exact hnext hcarry
      · exact hplain hcarry
  have hfixed (z : Single) (n : Int) (hn : n ∈ g) (hz : z.Represents n) :
      (g.effectiveZeroPoint z).Represents n ↔ ¬ WideOdd n ∨ n = g.high.toInt := by
    have hiff := (hexact z hz.1).2.2
    rw [hz.2, floor_intCast_add_half, g.nearestCode_of_mem hn, carriesOver_iff hz] at hiff
    obtain ⟨hmin, hmax⟩ := hn
    exact hiff.trans (or_congr_right (by omega))
  refine ⟨hexact, hfixed, fun h hodd => ?_, fun hodd z hz => ?_⟩
  -- a zero point below the grid is applied as the least code
  · have hlt := Int32.lt_iff_toInt_lt.1 g.low_lt_high
    let z : Single := ofInt (-2 ^ 24)
    have hz : z.Represents (-2 ^ 24) := by decide +kernel
    have hcode : g.nearestCode ⌊(z + ofRat false (1 / 2)).value⌋ = g.low.toInt := by
      have hfloor : ⌊(z + ofRat false (1 / 2)).value⌋ = -2 ^ 24 := by decide +kernel
      rw [hfloor, Grid.nearestCode]
      omega
    have hleast := Grid.represents_effectiveZeroPoint hlow hhigh hz.1
    rw [hcode] at hleast
    have hfinite := g.isFinite_effectiveZeroPoint (isNaN_of_isFinite hleast.1)
    have hsame := (numEq_iff_value hfinite hleast.1).1 (h z hz.1)
    rcases (hfixed _ _ ⟨le_rfl, hlt.le⟩ hleast).1 ⟨hfinite, hsame.trans hleast.2⟩ with h | h
    · exact h hodd
    · exact hlt.ne h
  · have hrepresents := Grid.represents_effectiveZeroPoint hlow hhigh hz
    have hmem := g.nearestCode_mem ⌊(z + ofRat false (1 / 2)).value⌋
    refine Represents.numEq ((hfixed _ _ hmem hrepresents).2 ?_) hrepresents
    rcases g.nearestCode_cases ⌊(z + ofRat false (1 / 2)).value⌋ with h | h | h
    · rw [h]
      exact .inl (not_wideOdd_floor_add_half hz)
    · rw [h]
      exact .inl hodd
    · exact .inr h

/-- On the grid of unsigned bytes: three and a half is rounded up, the last number below one half is
rounded up as well, a number above the range is applied as the greatest code, and all codes stay
what they are. -/
theorem zero_point_half_up_on_unsigned_bytes :
    let g : Grid := ⟨0, 255, by decide⟩
    (g.effectiveZeroPoint (ofRat false (7 / 2))).Represents 4 ∧
      (g.effectiveZeroPoint (ofRat false (1 / 2 - 1 / 2 ^ 25))).Represents 1 ∧
      (g.effectiveZeroPoint 300).Represents 255 ∧
      (∀ z : Single, z.Represents 7 → (g.effectiveZeroPoint z).Represents 7) ∧
      ∀ z : Single, z.isFinite = true →
        (g.effectiveZeroPoint (g.effectiveZeroPoint z)).numEq (g.effectiveZeroPoint z) = true := by
  intro g
  obtain ⟨hexact, hfixed, hagain⟩ := zero_point_half_up_iff g (by decide) (by decide)
  have hup := (hexact (ofRat false (7 / 2)) (by decide +kernel)).1 (by decide +kernel)
  have hnext := (hexact (ofRat false (1 / 2 - 1 / 2 ^ 25)) (by decide +kernel)).2.1
    (by decide +kernel)
  have habove := (hexact 300 (by decide +kernel)).2.2.2 (.inr (.inr (by decide +kernel)))
  have hcodes : g.nearestCode ⌊(ofRat false (7 / 2) : Single).value + 1 / 2⌋ = 4 ∧
      g.nearestCode (⌊(ofRat false (1 / 2 - 1 / 2 ^ 25) : Single).value + 1 / 2⌋ + 1) = 1 ∧
      g.nearestCode ⌊(300 : Single).value + 1 / 2⌋ = 255 := by decide +kernel
  rw [hcodes.1] at hup
  rw [hcodes.2.1] at hnext
  rw [hcodes.2.2] at habove
  exact ⟨hup, hnext, habove, fun z hz => (hfixed z 7 (by decide) hz).2 (.inl (by decide)),
    hagain.2 (by decide)⟩

/-- The last number below one half is applied as one: the exact sum with one half is below one, so
rounding it half upward gives zero. A wide odd integer is applied as the next one, and as the least
code it comes back changed from a second application. -/
theorem zero_point_below_half_rounds_up :
    (let g : Grid := ⟨0, 255, by decide⟩
      let z : Single := ofRat false (1 / 2 - 1 / 2 ^ 25)
      z.isFinite = true ∧ z.value < 1 / 2 ∧ g.nearestCode ⌊z.value + 1 / 2⌋ = 0 ∧
        (g.effectiveZeroPoint z).Represents 1) ∧
      let g : Grid := ⟨8388609, 16777216, by decide⟩
      let z : Single := ofInt 8388609
      z.Represents 8388609 ∧ 8388609 ∈ g ∧ (g.effectiveZeroPoint z).Represents 8388610 ∧
        (g.effectiveZeroPoint 0).Represents 8388609 ∧
        (g.effectiveZeroPoint (g.effectiveZeroPoint 0)).Represents 8388610 := by
  constructor
  · decide +kernel
  · decide +kernel

end FakeQuant
