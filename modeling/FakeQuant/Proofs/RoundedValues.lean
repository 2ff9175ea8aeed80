import FakeQuant.Proofs.Rounding

/-!
# What a rounded number is worth

`roundedMagnitude f q` is a positive `q` cut at its last place: the rounded quotient by the place,
times the place. `Binary.ofMagnitude_cases` says that rounding gives exactly this value if it is
below the next power of two past the largest number, and an infinity if it is not. With the sign
this becomes `rounded f q`, and all that the arithmetic needs to know about rounding is said of it:

* it does not change the order (`rounded_mono`);
* it keeps a number with few enough bits (`rounded_eq_self`);
* it moves a number by half a unit of the precision, and half of the least positive number at most
  (`abs_rounded_sub_le`).
-/

namespace FakeQuant

/-- A larger number has no smaller nearest integer. -/
theorem roundHalfEven_mono {q q' : Rat} (h : q ≤ q') : roundHalfEven q ≤ roundHalfEven q' := by
  by_contra hlt
  have hstep : roundHalfEven q' + 1 ≤ roundHalfEven q := by omega
  have hstep' : (roundHalfEven q' : Rat) + 1 ≤ roundHalfEven q := by exact_mod_cast hstep
  have hnear := abs_le.1 (abs_roundHalfEven_sub_le q)
  have hnear' := abs_le.1 (abs_roundHalfEven_sub_le q')
  -- both would have to be halfway, at the same number
  have heq : q = q' := by linarith
  rw [heq] at hlt
  exact hlt le_rfl

/-- The nearest integer of a number is not above a natural number that the number is not above. -/
theorem roundHalfEven_le_natCast {q : Rat} {n : Nat} (h : q ≤ n) : roundHalfEven q ≤ n :=
  (roundHalfEven_mono h).trans_eq (roundHalfEven_intCast n)

theorem natCast_le_roundHalfEven {q : Rat} {n : Nat} (h : (n : Rat) ≤ q) : n ≤ roundHalfEven q :=
  (roundHalfEven_intCast n).symm.trans_le (roundHalfEven_mono h)

/-! ### Magnitudes -/

namespace Format

/-- The power of two behind the largest number. -/
def overflow (f : Format) : Rat :=
  (2 : Rat) ^ (f.maxExponent + f.precision)

theorem overflow_pos (f : Format) : 0 < f.overflow := by
  rw [overflow]
  positivity

theorem overflow_eq (f : Format) : f.overflow = f.limit * (2 : Rat) ^ f.maxExponent := by
  rw [overflow, Binary.cast_limit, ← zpow_add₀ (by norm_num), add_comm]

end Format

theorem limit_single : Format.single.limit = 2 ^ 24 := rfl

theorem normalStart_single : Format.single.normalStart = 2 ^ 23 := rfl

theorem minExponent_single : Format.single.minExponent = -149 := rfl

theorem maxExponent_single : Format.single.maxExponent = 104 := rfl

namespace Binary

variable {f : Format} {q q' : Rat}

theorem minExponent_le_lastPlace (f : Format) (q : Rat) : f.minExponent ≤ lastPlace f q :=
  le_max_left _ _

theorem two_pow_lastPlace_le (hq : 0 < q) (hmin : f.minExponent < lastPlace f q) :
    f.normalStart * (2 : Rat) ^ lastPlace f q ≤ q := by
  have hplace : lastPlace f q = Int.log 2 q - (f.precision - 1) := by
    rw [lastPlace, floorLog2_eq hq] at hmin ⊢
    omega
  rw [cast_normalStart, ← zpow_add₀ (by norm_num), hplace, add_sub_cancel]
  exact (Int.zpow_le_iff_le_log (b := 2) (by decide) hq).2 le_rfl

theorem lt_two_pow_lastPlace (hq : 0 < q) : q < f.limit * (2 : Rat) ^ lastPlace f q := by
  rw [cast_limit, ← zpow_add₀ (by norm_num)]
  apply (Int.lt_zpow_iff_log_lt (b := 2) (by decide) hq).2
  rw [lastPlace, floorLog2_eq hq]
  omega

theorem lastPlace_mono (hq : 0 < q) (h : q ≤ q') : lastPlace f q ≤ lastPlace f q' := by
  have hlog : Int.log 2 q ≤ Int.log 2 q' := Int.log_mono_right hq h
  rw [lastPlace, lastPlace, floorLog2_eq hq, floorLog2_eq (hq.trans_le h)]
  omega

/-- A number that a significand at an exponent exceeds has no larger last place. -/
theorem lastPlace_le_of_lt (hq : 0 < q) {k : Int} (hmin : f.minExponent ≤ k)
    (h : q < f.limit * (2 : Rat) ^ k) : lastPlace f q ≤ k := by
  rw [cast_limit, ← zpow_add₀ (by norm_num)] at h
  have hlog := (Int.lt_zpow_iff_log_lt (b := 2) (by decide) hq).1 h
  rw [lastPlace, floorLog2_eq hq]
  omega

/-- The last place of a number below the last power of two is one of the format. -/
private theorem lastPlace_lt_maxExponent (hq : 0 < q)
    (hmax : q < (2 : Rat) ^ (f.maxExponent + f.precision - 1)) : lastPlace f q < f.maxExponent := by
  have hlog := (Int.lt_zpow_iff_log_lt (b := 2) (by decide) hq).1 hmax
  have hbias := f.bias_pos
  rw [lastPlace, floorLog2_eq hq]
  simp only [Format.minExponent, Format.maxExponent] at hlog ⊢
  omega

/-- A positive number cut at its last place. -/
def roundedMagnitude (f : Format) (q : Rat) : Rat :=
  roundHalfEven (q / (2 : Rat) ^ lastPlace f q) * (2 : Rat) ^ lastPlace f q

/-- The quotient by the last place rounds to a natural number up to the limit of the significands,
and to one with its leading bit unless the place is the least one. -/
theorem exists_quotient (f : Format) (hq : 0 < q) :
    ∃ n : Nat, roundHalfEven (q / (2 : Rat) ^ lastPlace f q) = n ∧ n ≤ f.limit ∧
      (f.normalStart ≤ n ∨ lastPlace f q = f.minExponent) := by
  have hunit : (0 : Rat) < (2 : Rat) ^ lastPlace f q := by positivity
  have hupper : q / (2 : Rat) ^ lastPlace f q ≤ f.limit :=
    ((div_lt_iff₀ hunit).2 (lt_two_pow_lastPlace hq)).le
  have hnonneg : 0 ≤ roundHalfEven (q / (2 : Rat) ^ lastPlace f q) :=
    natCast_le_roundHalfEven (n := 0) (by positivity)
  obtain ⟨n, hn⟩ := Int.eq_ofNat_of_zero_le hnonneg
  refine ⟨n, hn, ?_, ?_⟩
  · have hle := roundHalfEven_le_natCast hupper
    rw [hn] at hle
    exact_mod_cast hle
  · rcases (minExponent_le_lastPlace f q).lt_or_eq with hlt | heq
    · have hle := natCast_le_roundHalfEven ((le_div_iff₀ hunit).2 (two_pow_lastPlace_le hq hlt))
      rw [hn] at hle
      exact .inl (by exact_mod_cast hle)
    · exact .inr heq.symm

theorem roundedMagnitude_nonneg (hq : 0 < q) : 0 ≤ roundedMagnitude f q := by
  obtain ⟨n, hn, -⟩ := exists_quotient f hq
  rw [roundedMagnitude, hn]
  positivity

/-- A significand of the format goes with an exponent up to the largest one exactly if the number is
below the next power of two. -/
private theorem lt_overflow_iff {significand : Nat} {exponent : Int}
    (hlimit : significand < f.limit)
    (hnormal : f.normalStart ≤ significand ∨ exponent = f.minExponent) :
    significand * (2 : Rat) ^ exponent < f.overflow ↔ exponent ≤ f.maxExponent := by
  have hunit : (0 : Rat) < (2 : Rat) ^ exponent := by positivity
  rw [Format.overflow]
  constructor
  · intro hlt
    rcases hnormal with hnormal | rfl
    · by_contra hexponent
      have hstep : (2 : Rat) ^ (f.maxExponent + 1) ≤ (2 : Rat) ^ exponent :=
        zpow_le_zpow_right₀ (by norm_num) (not_le.1 hexponent)
      have hcast : ((f.normalStart : Nat) : Rat) ≤ significand := by exact_mod_cast hnormal
      have hle : (2 : Rat) ^ (f.maxExponent + f.precision)
          ≤ significand * (2 : Rat) ^ exponent := by
        calc (2 : Rat) ^ (f.maxExponent + f.precision)
            = f.normalStart * (2 : Rat) ^ (f.maxExponent + 1) := by
              rw [cast_normalStart, ← zpow_add₀ (by norm_num)]
              congr 1
              ring
          _ ≤ significand * (2 : Rat) ^ exponent :=
            mul_le_mul hcast hstep (by positivity) (by positivity)
      exact absurd hlt (not_lt.2 hle)
    · exact f.minExponent_le_maxExponent
  · intro hexponent
    have hcast : (significand : Rat) < f.limit := by exact_mod_cast hlimit
    calc (significand : Rat) * (2 : Rat) ^ exponent < f.limit * (2 : Rat) ^ exponent :=
          mul_lt_mul_of_pos_right hcast hunit
      _ = (2 : Rat) ^ (exponent + f.precision) := by
        rw [cast_limit, ← zpow_add₀ (by norm_num)]
        congr 1
        ring
      _ ≤ (2 : Rat) ^ (f.maxExponent + f.precision) :=
        zpow_le_zpow_right₀ (by norm_num) (by omega)

/-- What a positive number rounds to is put together from a significand and an exponent that are
worth the number cut at its last place. -/
private theorem exists_ofParts (negative : Bool) (hq : 0 < q) :
    ∃ (significand : Nat) (exponent : Int),
      (ofMagnitude negative q : Binary f) = ofParts negative significand exponent ∧
      (significand : Rat) * (2 : Rat) ^ exponent = roundedMagnitude f q ∧
      significand < f.limit ∧ f.minExponent ≤ exponent ∧
      (f.normalStart ≤ significand ∨ exponent = f.minExponent) := by
  obtain ⟨n, hn, hle, hnormal⟩ := exists_quotient f hq
  have hmin := minExponent_le_lastPlace f q
  rw [ofMagnitude_eq, roundedMagnitude, hn, Int.toNat_natCast, Int.cast_natCast]
  rcases hle.lt_or_eq with hlimit | rfl
  · rw [if_neg hlimit.ne]
    exact ⟨n, _, rfl, rfl, hlimit, hmin, hnormal⟩
  · have hlimit := f.limit_eq
    have hpos := f.normalStart_pos
    refine ⟨f.normalStart, lastPlace f q + 1, if_pos rfl, ?_, by omega, by omega, .inl le_rfl⟩
    rw [hlimit, zpow_add_one₀ (by norm_num)]
    push_cast
    ring

/-- A positive number rounds to the number that is worth it cut at its last place, or to an infinity
if that is past the largest number. -/
theorem ofMagnitude_cases (negative : Bool) (hq : 0 < q) :
    (roundedMagnitude f q < f.overflow ∧
      ∃ significand exponent, ∃ h : f.Canonical significand exponent,
        (ofMagnitude negative q : Binary f) = finite negative significand exponent h ∧
          (significand : Rat) * (2 : Rat) ^ exponent = roundedMagnitude f q) ∨
    (f.overflow ≤ roundedMagnitude f q ∧
      (ofMagnitude negative q : Binary f) = infinity negative) := by
  obtain ⟨significand, exponent, hparts, hvalue, hlimit, hmin, hnormal⟩ :=
    exists_ofParts (f := f) negative hq
  have hoverflow := lt_overflow_iff hlimit hnormal
  rw [hvalue] at hoverflow
  rw [hparts]
  by_cases hmax : exponent ≤ f.maxExponent
  · have h : f.Canonical significand exponent := ⟨hlimit, hmin, hmax, hnormal⟩
    exact .inl ⟨hoverflow.2 hmax, significand, exponent, h, ofParts_of_canonical negative h, hvalue⟩
  · exact .inr ⟨not_lt.1 fun h => hmax (hoverflow.1 h), dif_neg fun h => hmax h.2.2.1⟩

/-- A positive number below the last power of two stays below the overflow. -/
theorem roundedMagnitude_lt_overflow (hq : 0 < q)
    (hmax : q < (2 : Rat) ^ (f.maxExponent + f.precision - 1)) :
    roundedMagnitude f q < f.overflow := by
  obtain ⟨n, hn, hle, -⟩ := exists_quotient f hq
  have hcast : (n : Rat) ≤ f.limit := by exact_mod_cast hle
  have hplace := lastPlace_lt_maxExponent hq hmax
  rw [roundedMagnitude, hn, Int.cast_natCast]
  calc (n : Rat) * (2 : Rat) ^ lastPlace f q ≤ f.limit * (2 : Rat) ^ lastPlace f q :=
        mul_le_mul_of_nonneg_right hcast (by positivity)
    _ = (2 : Rat) ^ (lastPlace f q + f.precision) := by
      rw [cast_limit, ← zpow_add₀ (by norm_num)]
      congr 1
      ring
    _ < f.overflow := zpow_lt_zpow_right₀ (by norm_num) (by omega)

/-- A larger magnitude has no smaller rounded magnitude. -/
theorem roundedMagnitude_mono (hq : 0 < q) (h : q ≤ q') :
    roundedMagnitude f q ≤ roundedMagnitude f q' := by
  have hq' := hq.trans_le h
  rcases (lastPlace_mono (f := f) hq h).lt_or_eq with hlt | heq
  -- the power of two between the two places is between the numbers
  · obtain ⟨n, hn, hle, -⟩ := exists_quotient f hq
    obtain ⟨n', hn', -, hnormal⟩ := exists_quotient f hq'
    have hnormal' : f.normalStart ≤ n' :=
      hnormal.resolve_right ((minExponent_le_lastPlace f q).trans_lt hlt).ne'
    have hcast : (n : Rat) ≤ f.limit := by exact_mod_cast hle
    have hcast' : ((f.normalStart : Nat) : Rat) ≤ n' := by exact_mod_cast hnormal'
    have hstep : (2 : Rat) ^ (lastPlace f q + 1) ≤ (2 : Rat) ^ lastPlace f q' :=
      zpow_le_zpow_right₀ (by norm_num) hlt
    rw [roundedMagnitude, roundedMagnitude, hn, hn', Int.cast_natCast, Int.cast_natCast]
    calc (n : Rat) * (2 : Rat) ^ lastPlace f q ≤ f.limit * (2 : Rat) ^ lastPlace f q :=
          mul_le_mul_of_nonneg_right hcast (by positivity)
      _ = f.normalStart * (2 : Rat) ^ (lastPlace f q + 1) := by
        rw [f.limit_eq, zpow_add_one₀ (by norm_num)]
        push_cast
        ring
      _ ≤ n' * (2 : Rat) ^ lastPlace f q' :=
        mul_le_mul hcast' hstep (by positivity) (by positivity)
  · have hunit : (0 : Rat) < (2 : Rat) ^ lastPlace f q' := by positivity
    rw [roundedMagnitude, roundedMagnitude, heq]
    apply mul_le_mul_of_nonneg_right _ hunit.le
    exact_mod_cast roundHalfEven_mono (div_le_div_of_nonneg_right h hunit.le)

/-- Half of the last place is all that rounding moves a magnitude by. -/
theorem abs_roundedMagnitude_sub_le_half (f : Format) (q : Rat) :
    |roundedMagnitude f q - q| ≤ (2 : Rat) ^ lastPlace f q / 2 := by
  have hunit : (0 : Rat) < (2 : Rat) ^ lastPlace f q := by positivity
  have hdiff : roundedMagnitude f q - q
      = (roundHalfEven (q / (2 : Rat) ^ lastPlace f q) - q / (2 : Rat) ^ lastPlace f q)
        * (2 : Rat) ^ lastPlace f q := by
    rw [roundedMagnitude, sub_mul, div_mul_cancel₀ _ hunit.ne']
  rw [hdiff, abs_mul, abs_of_pos hunit]
  have := mul_le_mul_of_nonneg_right
    (abs_roundHalfEven_sub_le (q / (2 : Rat) ^ lastPlace f q)) hunit.le
  linarith

/-- The last place is small against the number, or it is the least one. -/
theorem two_pow_lastPlace_cases (f : Format) (hq : 0 < q) :
    (2 : Rat) ^ lastPlace f q / 2 ≤ q / f.limit ∨ lastPlace f q = f.minExponent := by
  rcases (minExponent_le_lastPlace f q).lt_or_eq with hlt | heq
  · have hlimit : (0 : Rat) < f.limit := by exact_mod_cast Nat.pow_pos (by decide)
    have hplace := two_pow_lastPlace_le hq hlt
    refine .inl ((le_div_iff₀ hlimit).2 ?_)
    rw [f.limit_eq]
    push_cast
    linarith
  · exact .inr heq.symm

/-- A magnitude with few enough bits is kept. -/
theorem roundedMagnitude_eq_self {n : Nat} {e : Int} (hn : 0 < n) (hlimit : n < f.limit)
    (hmin : f.minExponent ≤ e) :
    roundedMagnitude f (n * (2 : Rat) ^ e) = n * (2 : Rat) ^ e := by
  have hn' : (0 : Rat) < n := by exact_mod_cast hn
  have hq : 0 < n * (2 : Rat) ^ e := by positivity
  have hplace : lastPlace f (n * (2 : Rat) ^ e) ≤ e := by
    by_contra hlt
    have hle := two_pow_lastPlace_le hq (lt_of_le_of_lt hmin (not_le.1 hlt))
    have hstep : (2 : Rat) ^ (e + 1) ≤ (2 : Rat) ^ lastPlace f (n * (2 : Rat) ^ e) :=
      zpow_le_zpow_right₀ (by norm_num) (not_le.1 hlt)
    have hlt' : (n : Rat) * (2 : Rat) ^ e < f.limit * (2 : Rat) ^ e := by
      apply mul_lt_mul_of_pos_right _ (by positivity)
      exact_mod_cast hlimit
    have hstart : (0 : Rat) < f.normalStart := by exact_mod_cast f.normalStart_pos
    have : (f.limit : Rat) * (2 : Rat) ^ e ≤ n * (2 : Rat) ^ e := by
      calc (f.limit : Rat) * (2 : Rat) ^ e = f.normalStart * (2 : Rat) ^ (e + 1) := by
            rw [f.limit_eq, zpow_add_one₀ (by norm_num)]
            push_cast
            ring
        _ ≤ f.normalStart * (2 : Rat) ^ lastPlace f (n * (2 : Rat) ^ e) :=
          mul_le_mul_of_nonneg_left hstep hstart.le
        _ ≤ n * (2 : Rat) ^ e := hle
    linarith
  -- so the quotient is an integer
  obtain ⟨k, hk⟩ := Int.eq_ofNat_of_zero_le (sub_nonneg.2 hplace)
  have hint : n * (2 : Rat) ^ e / (2 : Rat) ^ lastPlace f (n * (2 : Rat) ^ e)
      = ((n * 2 ^ k : Nat) : Int) := by
    rw [mul_div_assoc, ← zpow_sub₀ (by norm_num), hk]
    push_cast
    rfl
  rw [roundedMagnitude, hint, roundHalfEven_intCast, ← hint, div_mul_cancel₀ _ (by positivity)]

/-- A number with few enough bits is what it rounds to. -/
theorem ofMagnitude_exact (negative : Bool) {n : Nat} {e : Int} (hn : 0 < n) (hlimit : n < f.limit)
    (hmin : f.minExponent ≤ e)
    (hmax : n * (2 : Rat) ^ e < (2 : Rat) ^ (f.maxExponent + f.precision - 1)) :
    ∃ significand exponent, ∃ h : f.Canonical significand exponent,
      (ofMagnitude negative (n * (2 : Rat) ^ e) : Binary f)
          = finite negative significand exponent h ∧
        (significand : Rat) * (2 : Rat) ^ exponent = n * (2 : Rat) ^ e := by
  have hn' : (0 : Rat) < n := by exact_mod_cast hn
  have hq : 0 < n * (2 : Rat) ^ e := by positivity
  rcases ofMagnitude_cases (f := f) negative hq with ⟨-, hfinite⟩ | ⟨hoverflow, -⟩
  · rwa [roundedMagnitude_eq_self hn hlimit hmin] at hfinite
  · exact absurd (roundedMagnitude_lt_overflow hq hmax) (not_lt.2 hoverflow)

/-- In the normal range rounding moves a number by half a unit of the precision at most. -/
theorem ofMagnitude_error (negative : Bool)
    (hmin : (2 : Rat) ^ (f.minExponent + f.precision - 1) ≤ q)
    (hmax : q < (2 : Rat) ^ (f.maxExponent + f.precision - 1)) :
    ∃ significand exponent, ∃ h : f.Canonical significand exponent,
      (ofMagnitude negative q : Binary f) = finite negative significand exponent h ∧
        |(significand : Rat) * (2 : Rat) ^ exponent - q| ≤ q / f.limit := by
  have hq : 0 < q := lt_of_lt_of_le (by positivity) hmin
  have hlimit : (0 : Rat) < f.limit := by exact_mod_cast Nat.pow_pos (by decide)
  have hplace : (2 : Rat) ^ lastPlace f q / 2 ≤ q / f.limit := by
    rcases two_pow_lastPlace_cases f hq with hle | heq
    · exact hle
    -- the least place is half a unit of the least normal number
    · rw [heq, le_div_iff₀ hlimit, cast_limit]
      calc (2 : Rat) ^ f.minExponent / 2 * (2 : Rat) ^ (f.precision : Int)
          = (2 : Rat) ^ (f.minExponent + f.precision - 1) := by
            rw [zpow_sub_one₀ (by norm_num), zpow_add₀ (by norm_num)]
            ring
        _ ≤ q := hmin
  rcases ofMagnitude_cases (f := f) negative hq with
    ⟨-, significand, exponent, h, hround, hvalue⟩ | ⟨hoverflow, -⟩
  · refine ⟨significand, exponent, h, hround, ?_⟩
    rw [hvalue]
    exact (abs_roundedMagnitude_sub_le_half f q).trans hplace
  · exact absurd (roundedMagnitude_lt_overflow hq hmax) (not_lt.2 hoverflow)

/-! ### Numbers of either sign -/

/-- What a rational number is worth after rounding, as long as it is not past the largest number. -/
def rounded (f : Format) (q : Rat) : Rat :=
  if q < 0 then -roundedMagnitude f (-q)
  else if 0 < q then roundedMagnitude f q
  else 0

theorem rounded_of_neg (hq : q < 0) : rounded f q = -roundedMagnitude f (-q) :=
  if_pos hq

theorem rounded_of_pos (hq : 0 < q) : rounded f q = roundedMagnitude f q := by
  rw [rounded, if_neg (not_lt.2 hq.le), if_pos hq]

@[simp]
theorem rounded_zero (f : Format) : rounded f 0 = 0 := by
  rw [rounded, if_neg (lt_irrefl _), if_neg (lt_irrefl _)]

theorem rounded_neg (f : Format) (q : Rat) : rounded f (-q) = -rounded f q := by
  rcases lt_trichotomy q 0 with hq | rfl | hq
  · rw [rounded_of_neg hq, rounded_of_pos (neg_pos.2 hq), neg_neg]
  · rw [neg_zero, rounded_zero, neg_zero]
  · rw [rounded_of_pos hq, rounded_of_neg (neg_lt_zero.2 hq), neg_neg]

theorem rounded_nonneg (hq : 0 ≤ q) : 0 ≤ rounded f q := by
  rcases hq.lt_or_eq with hq | rfl
  · rw [rounded_of_pos hq]
    exact roundedMagnitude_nonneg hq
  · exact (rounded_zero f).ge

theorem rounded_nonpos (hq : q ≤ 0) : rounded f q ≤ 0 := by
  have := rounded_nonneg (f := f) (neg_nonneg.2 hq)
  rw [rounded_neg] at this
  linarith

theorem abs_rounded (f : Format) (q : Rat) : |rounded f q| = rounded f |q| := by
  rcases le_total 0 q with hq | hq
  · rw [abs_of_nonneg hq, abs_of_nonneg (rounded_nonneg hq)]
  · rw [abs_of_nonpos hq, abs_of_nonpos (rounded_nonpos hq), rounded_neg]

/-- Rounding does not change the order. -/
theorem rounded_mono (f : Format) : Monotone (rounded f) := by
  intro q q' h
  rcases lt_trichotomy q 0 with hq | rfl | hq
  · rcases lt_or_ge q' 0 with hq' | hq'
    · rw [rounded_of_neg hq, rounded_of_neg hq']
      exact neg_le_neg (roundedMagnitude_mono (neg_pos.2 hq') (neg_le_neg h))
    · exact (rounded_nonpos hq.le).trans (rounded_nonneg hq')
  · rw [rounded_zero]
    exact rounded_nonneg h
  · rw [rounded_of_pos hq, rounded_of_pos (hq.trans_le h)]
    exact roundedMagnitude_mono hq h

/-- A number with few enough bits is kept. -/
theorem rounded_eq_self {z e : Int} (hlimit : z.natAbs < f.limit) (hmin : f.minExponent ≤ e) :
    rounded f (z * (2 : Rat) ^ e) = z * (2 : Rat) ^ e := by
  -- the magnitude is kept, whatever the sign
  have hmagnitude (n : Nat) (hn : n < f.limit) :
      rounded f (n * (2 : Rat) ^ e) = n * (2 : Rat) ^ e := by
    rcases Nat.eq_zero_or_pos n with rfl | hpos
    · simp
    · have hpos' : (0 : Rat) < n := by exact_mod_cast hpos
      rw [rounded_of_pos (by positivity), roundedMagnitude_eq_self hpos hn hmin]
  rcases Int.natAbs_eq z with hz | hz
  · rw [hz, Int.cast_natCast]
    exact hmagnitude _ hlimit
  · rw [hz, Int.cast_neg, neg_mul, rounded_neg, Int.cast_natCast, hmagnitude _ hlimit]

/-- Rounding does not move a number across a power of two. -/
theorem rounded_two_pow {k : Int} (hmin : f.minExponent ≤ k) :
    rounded f ((2 : Rat) ^ k) = (2 : Rat) ^ k := by
  have hone : (1 : Int).natAbs < f.limit := by
    have hlimit := f.limit_eq
    have hpos := f.normalStart_pos
    rw [Int.natAbs_one]
    omega
  have hkeep := rounded_eq_self hone hmin
  rwa [Int.cast_one, one_mul] at hkeep

theorem abs_rounded_le {k : Int} (hmin : f.minExponent ≤ k) (h : |q| ≤ (2 : Rat) ^ k) :
    |rounded f q| ≤ (2 : Rat) ^ k := by
  rw [abs_rounded, ← rounded_two_pow hmin]
  exact rounded_mono f h

theorem le_abs_rounded {k : Int} (hmin : f.minExponent ≤ k) (h : (2 : Rat) ^ k ≤ |q|) :
    (2 : Rat) ^ k ≤ |rounded f q| := by
  rw [abs_rounded, ← rounded_two_pow hmin]
  exact rounded_mono f h

/-- Half of the last place is all that rounding moves a number by. -/
theorem abs_rounded_sub_le_half (f : Format) (q : Rat) :
    |rounded f q - q| ≤ (2 : Rat) ^ lastPlace f |q| / 2 := by
  rcases lt_trichotomy q 0 with hq | rfl | hq
  · rw [rounded_of_neg hq, abs_of_neg hq, ← abs_neg, neg_sub, sub_neg_eq_add, add_comm q,
      ← sub_neg_eq_add]
    exact abs_roundedMagnitude_sub_le_half f (-q)
  · rw [rounded_zero, sub_zero, abs_zero]
    positivity
  · rw [rounded_of_pos hq, abs_of_pos hq]
    exact abs_roundedMagnitude_sub_le_half f q

/-- Below a power of two, half of the last place before it is all that rounding moves a number
by. -/
theorem abs_rounded_sub_le_of_lt {k : Int} (hmin : f.minExponent ≤ k)
    (h : |q| < f.limit * (2 : Rat) ^ k) : |rounded f q - q| ≤ (2 : Rat) ^ k / 2 := by
  rcases eq_or_ne q 0 with rfl | hne
  · rw [rounded_zero, sub_zero, abs_zero]
    positivity
  · have hplace : (2 : Rat) ^ lastPlace f |q| ≤ (2 : Rat) ^ k :=
      zpow_le_zpow_right₀ (by norm_num) (lastPlace_le_of_lt (abs_pos.2 hne) hmin h)
    have hhalf := abs_rounded_sub_le_half f q
    linarith

/-- In the binade of an exponent a number rounds to the multiple of the last place that is within
half of it, and from halfway only if the multiple is even. -/
theorem rounded_of_binade {z exponent : Int} (hmin : f.minExponent ≤ exponent)
    (hlower : f.normalStart * (2 : Rat) ^ exponent ≤ |q|)
    (hupper : |q| < f.limit * (2 : Rat) ^ exponent)
    (hle : |q - z * (2 : Rat) ^ exponent| ≤ (2 : Rat) ^ exponent / 2)
    (hlt : z % 2 ≠ 0 → |q - z * (2 : Rat) ^ exponent| < (2 : Rat) ^ exponent / 2) :
    rounded f q = z * (2 : Rat) ^ exponent := by
  have hstart : (0 : Rat) < f.normalStart * (2 : Rat) ^ exponent :=
    mul_pos (by exact_mod_cast f.normalStart_pos) (by positivity)
  rcases lt_trichotomy q 0 with hq | rfl | hq
  -- the negative number of the opposite multiple
  · rw [abs_of_neg hq] at hlower hupper
    have hopposite : |-q - (-z : Int) * (2 : Rat) ^ exponent| = |q - z * (2 : Rat) ^ exponent| := by
      rw [← abs_neg, Int.cast_neg]
      congr 1
      ring
    have hround := roundHalfEven_quotient (hopposite.trans_le hle)
      fun hodd => hopposite.trans_lt (hlt (by omega))
    rw [rounded_of_neg hq, roundedMagnitude, lastPlace_of_binade hmin hlower hupper, hround,
      Int.cast_neg, neg_mul, neg_neg]
  · rw [abs_zero] at hlower
    exact absurd hstart (not_lt.2 hlower)
  · rw [abs_of_pos hq] at hlower hupper
    rw [rounded_of_pos hq, roundedMagnitude, lastPlace_of_binade hmin hlower hupper,
      roundHalfEven_quotient hle hlt]

/-- Rounding moves a number by half a unit of the precision at most, and close to zero by half of
the least positive number. -/
theorem abs_rounded_sub_le (f : Format) (q : Rat) :
    |rounded f q - q| ≤ |q| / f.limit + (2 : Rat) ^ f.minExponent / 2 := by
  have hunit : (0 : Rat) < (2 : Rat) ^ f.minExponent := by positivity
  have hquot : 0 ≤ |q| / f.limit := by positivity
  have hhalf := abs_rounded_sub_le_half f q
  rcases (abs_nonneg q).eq_or_lt with hzero | hq
  · rw [abs_eq_zero.1 hzero.symm, rounded_zero, sub_zero, abs_zero, zero_div, zero_add]
    exact (half_pos hunit).le
  · rcases two_pow_lastPlace_cases f hq with hplace | hplace
    · linarith
    · rw [hplace] at hhalf
      linarith

/-- A number that is less than half a unit above the largest finite number stays below the
overflow. -/
theorem rounded_lt_overflow (h : |q| < (f.limit - 1 / 2) * (2 : Rat) ^ f.maxExponent) :
    |rounded f q| < f.overflow := by
  have hunit : (0 : Rat) < (2 : Rat) ^ f.maxExponent := by positivity
  have hmove := abs_rounded_sub_le_of_lt f.minExponent_le_maxExponent (q := q) (by linarith)
  have hmove' := (abs_le.1 ((abs_abs_sub_abs_le _ _).trans hmove)).2
  rw [f.overflow_eq]
  linarith

/-- Half a unit above the largest finite number the overflow is reached, because of the two
neighbours there the one past the largest number is even. -/
theorem overflow_le_abs_rounded (h : (f.limit - 1 / 2) * (2 : Rat) ^ f.maxExponent ≤ |q|) :
    f.overflow ≤ |rounded f q| := by
  have hunit : (0 : Rat) < (2 : Rat) ^ f.maxExponent := by positivity
  have hstart : (1 : Rat) ≤ f.normalStart := by exact_mod_cast f.normalStart_pos
  have hlimit : (f.limit : Rat) = 2 * f.normalStart := by exact_mod_cast f.limit_eq
  let halfway := (f.limit - 1 / 2) * (2 : Rat) ^ f.maxExponent
  have habs : |halfway| = halfway := abs_of_nonneg (mul_nonneg (by linarith) hunit.le)
  have hdistance : |halfway - (f.limit : Int) * (2 : Rat) ^ f.maxExponent| =
      (2 : Rat) ^ f.maxExponent / 2 := by
    have hneg : halfway - (f.limit : Int) * (2 : Rat) ^ f.maxExponent =
        -((2 : Rat) ^ f.maxExponent / 2) := by
      rw [Int.cast_natCast]
      ring
    rw [hneg, abs_neg, abs_of_pos (half_pos hunit)]
  have heven : (f.limit : Int) % 2 = 0 := by
    have hdouble := f.limit_eq
    omega
  have hround : rounded f halfway = f.overflow := by
    rw [f.overflow_eq, ← Int.cast_natCast]
    refine rounded_of_binade f.minExponent_le_maxExponent ?_ ?_ hdistance.le
      fun hodd => absurd heven hodd
    · rw [habs]
      exact mul_le_mul_of_nonneg_right (by linarith) hunit.le
    · rw [habs]
      exact mul_lt_mul_of_pos_right (by linarith) hunit
  rw [abs_rounded, ← hround]
  exact rounded_mono f h

/-! ### The number behind the value -/

theorem ofRat_zero (negative : Bool) : (ofRat negative 0 : Binary f) = zero negative := by
  rw [ofRat, if_neg (lt_irrefl _), if_neg (lt_irrefl _)]

theorem ofRat_of_pos (negative : Bool) (hq : 0 < q) :
    (ofRat negative q : Binary f) = ofMagnitude false q := by
  rw [ofRat, if_neg (not_lt.2 hq.le), if_pos hq]

theorem ofRat_of_neg (negative : Bool) (hq : q < 0) :
    (ofRat negative q : Binary f) = ofMagnitude true (-q) :=
  if_pos hq

theorem value_zero (negative : Bool) : (zero negative : Binary f).value = 0 := by
  cases negative <;> simp [zero, value]

theorem value_finite (negative : Bool) {significand : Nat} {exponent : Int}
    (h : f.Canonical significand exponent) :
    (finite negative significand exponent h).value =
      if negative then -(significand * (2 : Rat) ^ exponent)
      else significand * (2 : Rat) ^ exponent :=
  rfl

/-- A number that stays below the overflow rounds to a finite number. -/
theorem ofRat_of_lt_overflow (negative : Bool) (h : |rounded f q| < f.overflow) :
    (ofRat negative q : Binary f).isFinite = true ∧
      (ofRat negative q : Binary f).value = rounded f q := by
  have hmagnitude (negative : Bool) {q : Rat} (hq : 0 < q)
      (h : roundedMagnitude f q < f.overflow) :
      (ofMagnitude negative q : Binary f).isFinite = true ∧
        (ofMagnitude negative q : Binary f).value =
          if negative then -roundedMagnitude f q else roundedMagnitude f q := by
    rcases ofMagnitude_cases (f := f) negative hq with
      ⟨-, significand, exponent, hs, hround, hvalue⟩ | ⟨hoverflow, -⟩
    · rw [hround, value_finite, hvalue]
      exact ⟨rfl, rfl⟩
    · exact absurd h (not_lt.2 hoverflow)
  rcases lt_trichotomy q 0 with hq | rfl | hq
  · rw [rounded_of_neg hq, abs_neg] at h
    rw [rounded_of_neg hq, ofRat_of_neg negative hq]
    exact hmagnitude true (neg_pos.2 hq) (lt_of_abs_lt h)
  · rw [ofRat_zero, rounded_zero]
    exact ⟨rfl, value_zero negative⟩
  · rw [rounded_of_pos hq] at h
    rw [rounded_of_pos hq, ofRat_of_pos negative hq]
    exact hmagnitude false hq (lt_of_abs_lt h)

/-- A number no larger than a power of two of the format rounds to a finite number. -/
theorem ofRat_of_abs_le (negative : Bool) {k : Int} (hmin : f.minExponent ≤ k)
    (hmax : k < f.maxExponent + f.precision) (h : |q| ≤ (2 : Rat) ^ k) :
    (ofRat negative q : Binary f).isFinite = true ∧
      (ofRat negative q : Binary f).value = rounded f q :=
  ofRat_of_lt_overflow negative
    ((abs_rounded_le hmin h).trans_lt (zpow_lt_zpow_right₀ (by norm_num) hmax))

/-- A number that reaches the overflow rounds to the infinity of its sign. -/
theorem ofRat_of_overflow_le (negative : Bool) (h : f.overflow ≤ |rounded f q|) :
    (ofRat negative q : Binary f) = infinity (decide (q < 0)) := by
  have hpos := f.overflow_pos
  have hmagnitude (negative : Bool) {q : Rat} (hq : 0 < q)
      (h : f.overflow ≤ roundedMagnitude f q) :
      (ofMagnitude negative q : Binary f) = infinity negative := by
    rcases ofMagnitude_cases (f := f) negative hq with ⟨hlt, -⟩ | ⟨-, hround⟩
    · exact absurd hlt (not_lt.2 h)
    · exact hround
  rcases lt_trichotomy q 0 with hq | rfl | hq
  · rw [rounded_of_neg hq, abs_neg, abs_of_nonneg (roundedMagnitude_nonneg (neg_pos.2 hq))] at h
    rw [ofRat_of_neg negative hq, decide_eq_true hq]
    exact hmagnitude true (neg_pos.2 hq) h
  · rw [rounded_zero, abs_zero] at h
    exact absurd hpos (not_lt.2 h)
  · rw [rounded_of_pos hq, abs_of_nonneg (roundedMagnitude_nonneg hq)] at h
    rw [ofRat_of_pos negative hq, decide_eq_false (not_lt.2 hq.le)]
    exact hmagnitude false hq h

/-- Exactly the numbers that are less than half a unit above the largest finite number round to a
finite number. -/
theorem isFinite_ofRat_iff (negative : Bool) :
    (ofRat negative q : Binary f).isFinite = true ↔
      |q| < (f.limit - 1 / 2) * (2 : Rat) ^ f.maxExponent := by
  constructor
  · intro hfinite
    by_contra hle
    rw [ofRat_of_overflow_le negative (overflow_le_abs_rounded (not_lt.1 hle))] at hfinite
    cases hfinite
  · intro h
    exact (ofRat_of_lt_overflow negative (rounded_lt_overflow h)).1

/-- The result of rounding is a number, finite or infinite. -/
theorem isNaN_ofRat (negative : Bool) (q : Rat) : (ofRat negative q : Binary f).isNaN = false := by
  rcases lt_or_ge |rounded f q| f.overflow with h | h
  · have hfinite := (ofRat_of_lt_overflow negative h).1
    cases hx : (ofRat negative q : Binary f) with
    | nan => rw [hx] at hfinite; cases hfinite
    | infinity => rfl
    | finite => rfl
  · rw [ofRat_of_overflow_le negative h]
    rfl

end Binary

end FakeQuant
