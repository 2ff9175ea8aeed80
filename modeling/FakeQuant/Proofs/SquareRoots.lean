import FakeQuant.Proofs.Monotonicity

/-!
# Square roots keep the order

The root of a positive number is cut at a place below the last one that rounding looks at, and put
between two multiples of that place unless it is one. So it lies on the same side of every such
multiple as the exact root does (`Binary.exists_rootForRounding`), and this is enough for the order:
at the same place the multiples below two roots are in order, and at different places there is a
power of two between the roots (`Binary.rootForRounding_mono`). Rounding keeps the order behind
that, so larger numbers have no smaller roots (`Binary.sqrt_mono`).
-/

namespace FakeQuant

/-! ### Roots of natural numbers -/

/-- With enough pairs of bits the root is the largest number whose square is not above: twice the
root of a quarter, or one more. -/
private theorem floorSqrtSteps_eq {steps n : Nat} (h : n < 4 ^ steps) :
    floorSqrtSteps steps n = Nat.sqrt n := by
  induction steps generalizing n with
  | zero =>
    have hzero : n = 0 := by simpa using h
    rw [hzero, Nat.sqrt_zero, floorSqrtSteps]
  | succ steps ih =>
    have hquarter : n / 4 < 4 ^ steps := by
      rw [Nat.pow_succ] at h
      omega
    rw [floorSqrtSteps, ih hquarter]
    set root := Nat.sqrt (n / 4)
    have hle : root * root ≤ n / 4 := Nat.sqrt_le (n / 4)
    have hlt : n / 4 < (root + 1) * (root + 1) := Nat.lt_succ_sqrt (n / 4)
    have hle' : 2 * root * (2 * root) ≤ n := by
      have hsquare : 2 * root * (2 * root) = 4 * (root * root) := by ring
      omega
    have hlt' : n < (2 * root + 1 + 1) * (2 * root + 1 + 1) := by
      have hsquare : (2 * root + 1 + 1) * (2 * root + 1 + 1) = 4 * ((root + 1) * (root + 1)) := by
        ring
      omega
    split
    · next hroot => exact Nat.eq_sqrt.2 ⟨hroot, hlt'⟩
    · next hroot => exact Nat.eq_sqrt.2 ⟨hle', Nat.lt_of_not_le hroot⟩

/-- `floorSqrt` is the integer square root. -/
theorem floorSqrt_eq (n : Nat) : floorSqrt n = Nat.sqrt n := by
  apply floorSqrtSteps_eq
  calc n < 2 ^ (n.log2 + 1) := Nat.lt_log2_self
    _ ≤ 2 ^ (2 * (n.log2 / 2 + 1)) := Nat.pow_le_pow_right (by decide) (by omega)
    _ = 4 ^ (n.log2 / 2 + 1) := Nat.pow_mul 2 2 _

namespace Binary

variable {f : Format} {q q' : Rat}

/-! ### The root that is rounded -/

/-- The weight of the place at which the root of a number is cut. -/
def rootUnit (f : Format) (q : Rat) : Rat :=
  (2 : Rat) ^ (Int.log 2 q / 2 - (f.precision + 1))

theorem rootUnit_pos (f : Format) (q : Rat) : 0 < rootUnit f q := by
  rw [rootUnit]
  positivity

/-- There is a largest multiple of the place that is not above the exact root, and the root that is
rounded is this multiple, or halfway to the next one. -/
theorem exists_rootForRounding (f : Format) (hq : 0 < q) :
    ∃ n : Nat, n * rootUnit f q * (n * rootUnit f q) ≤ q ∧
      q < (n + 1) * rootUnit f q * ((n + 1) * rootUnit f q) ∧
      rootForRounding f q =
        if n * rootUnit f q * (n * rootUnit f q) = q then n * rootUnit f q
        else (n + 1 / 2) * rootUnit f q := by
  have hpos : 0 < rootUnit f q * rootUnit f q := mul_pos (rootUnit_pos f q) (rootUnit_pos f q)
  obtain ⟨m, hm⟩ : ∃ m : Nat, (q / (rootUnit f q * rootUnit f q)).floor = m :=
    Int.eq_ofNat_of_zero_le (Int.floor_nonneg.2 (div_nonneg hq.le hpos.le))
  have hle : ((q / (rootUnit f q * rootUnit f q)).floor : Rat)
      ≤ q / (rootUnit f q * rootUnit f q) := Int.floor_le _
  have hlt : q / (rootUnit f q * rootUnit f q)
      < (q / (rootUnit f q * rootUnit f q)).floor + 1 := Int.lt_floor_add_one _
  rw [hm, Int.cast_natCast] at hle hlt
  have hroot : ((Nat.sqrt m : Nat) : Rat) * Nat.sqrt m ≤ m := by exact_mod_cast Nat.sqrt_le m
  have hroot' : (m : Rat) + 1 ≤ (Nat.sqrt m + 1) * (Nat.sqrt m + 1) := by
    exact_mod_cast Nat.lt_succ_sqrt m
  refine ⟨Nat.sqrt m, ?_, ?_, ?_⟩
  · rw [mul_mul_mul_comm, ← le_div_iff₀ hpos]
    exact hroot.trans hle
  · rw [mul_mul_mul_comm, ← div_lt_iff₀ hpos]
    exact hlt.trans_le hroot'
  · rw [rootForRounding, floorLog2_eq hq, floorSqrt_eq]
    change (let root : Rat := (Nat.sqrt (q / (rootUnit f q * rootUnit f q)).floor.toNat : Nat)
      if root * rootUnit f q * (root * rootUnit f q) = q then root * rootUnit f q
      else (root + 1 / 2) * rootUnit f q) = _
    rw [hm]
    rfl

/-- Multiples of a place are in order if their squares are. -/
private theorem natCast_lt_of_square_lt {unit : Rat} (hunit : 0 < unit) {k n : Nat}
    (h : k * unit * (k * unit) < n * unit * (n * unit)) : k < n := by
  have hlt : k * unit < n * unit :=
    (mul_self_lt_mul_self_iff (by positivity) (by positivity)).2 h
  exact_mod_cast lt_of_mul_lt_mul_right hlt hunit.le

/-- A multiple of the place is not above the root if its square is not above the number. -/
theorem le_rootForRounding (hq : 0 < q) {k : Nat}
    (h : k * rootUnit f q * (k * rootUnit f q) ≤ q) : k * rootUnit f q ≤ rootForRounding f q := by
  have hunit := rootUnit_pos f q
  obtain ⟨n, -, hlt, hroot⟩ := exists_rootForRounding f hq
  have hk : k < n + 1 := natCast_lt_of_square_lt hunit (by exact_mod_cast h.trans_lt hlt)
  have hkn : (k : Rat) ≤ n := by exact_mod_cast Nat.lt_succ_iff.1 hk
  have hstep : k * rootUnit f q ≤ n * rootUnit f q := mul_le_mul_of_nonneg_right hkn hunit.le
  rw [hroot]
  split
  · exact hstep
  · linarith

theorem rootForRounding_lt (hq : 0 < q) {k : Nat}
    (h : q < k * rootUnit f q * (k * rootUnit f q)) : rootForRounding f q < k * rootUnit f q := by
  have hunit := rootUnit_pos f q
  obtain ⟨n, hle, -, hroot⟩ := exists_rootForRounding f hq
  have hnk : (n : Rat) + 1 ≤ k := by
    exact_mod_cast natCast_lt_of_square_lt hunit (hle.trans_lt h)
  have hstep : (n + 1) * rootUnit f q ≤ k * rootUnit f q := mul_le_mul_of_nonneg_right hnk hunit.le
  rw [hroot]
  split
  · linarith
  · linarith

/-- Powers of two from that of the exact root on are multiples of the place of the cut. -/
private theorem two_pow_mul_rootUnit (f : Format) (q : Rat) (k : Nat) :
    ((2 ^ (f.precision + 1 + k) : Nat) : Rat) * rootUnit f q
      = (2 : Rat) ^ (Int.log 2 q / 2 + k) := by
  rw [rootUnit, Nat.cast_pow, Nat.cast_ofNat, ← zpow_natCast, ← zpow_add₀ (by norm_num)]
  congr 1
  push_cast
  ring

/-- The power of two below the exact root is not above the root. -/
theorem two_pow_le_rootForRounding (f : Format) (hq : 0 < q) :
    (2 : Rat) ^ (Int.log 2 q / 2) ≤ rootForRounding f q := by
  have hmultiple := two_pow_mul_rootUnit f q 0
  simp only [Nat.cast_zero, add_zero] at hmultiple
  rw [← hmultiple]
  apply le_rootForRounding hq
  rw [hmultiple, ← zpow_add₀ (by norm_num)]
  exact (Int.zpow_le_iff_le_log (b := 2) (by decide) hq).2 (by omega)

/-- The root is below the power of two above the exact root. -/
theorem rootForRounding_lt_two_pow (f : Format) (hq : 0 < q) :
    rootForRounding f q < (2 : Rat) ^ (Int.log 2 q / 2 + 1) := by
  have hmultiple := two_pow_mul_rootUnit f q 1
  rw [Nat.cast_one] at hmultiple
  rw [← hmultiple]
  apply rootForRounding_lt hq
  rw [hmultiple, ← zpow_add₀ (by norm_num)]
  exact (Int.lt_zpow_iff_log_lt (b := 2) (by decide) hq).2 (by omega)

/-- Larger numbers have no smaller roots. -/
theorem rootForRounding_mono (f : Format) (hq : 0 < q) (h : q ≤ q') :
    rootForRounding f q ≤ rootForRounding f q' := by
  have hq' := hq.trans_le h
  have hlog : Int.log 2 q ≤ Int.log 2 q' := Int.log_mono_right hq h
  rcases eq_or_lt_of_le (Int.ediv_le_ediv (by decide : (0 : Int) < 2) hlog) with hplace | hplace
  -- at the same place, the root of the larger number is past the same multiples
  · have hunit : rootUnit f q' = rootUnit f q := by rw [rootUnit, rootUnit, hplace]
    have hpos := rootUnit_pos f q
    obtain ⟨n, hle, -, hroot⟩ := exists_rootForRounding f hq
    obtain ⟨n', -, hlt', hroot'⟩ := exists_rootForRounding f hq'
    have hpast : n * rootUnit f q ≤ rootForRounding f q' := by
      rw [← hunit]
      exact le_rootForRounding hq' (by rw [hunit]; exact hle.trans h)
    rw [hunit] at hlt' hroot'
    rw [hroot]
    split
    · exact hpast
    next hne =>
    have hstrict : n * rootUnit f q * (n * rootUnit f q) < q := lt_of_le_of_ne hle hne
    have hn : n < n' + 1 :=
      natCast_lt_of_square_lt hpos (by exact_mod_cast (hle.trans h).trans_lt hlt')
    rcases Nat.lt_or_eq_of_le (Nat.lt_succ_iff.1 hn) with hlt | rfl
    · have hstep : (n : Rat) + 1 ≤ n' := by exact_mod_cast hlt
      have hstep' : (n + 1) * rootUnit f q ≤ n' * rootUnit f q :=
        mul_le_mul_of_nonneg_right hstep hpos.le
      rw [hroot']
      split
      · linarith
      · linarith
    · rw [hroot', if_neg (hstrict.trans_le h).ne]
  -- otherwise there is a power of two between the roots
  · calc rootForRounding f q ≤ (2 : Rat) ^ (Int.log 2 q / 2 + 1) :=
          (rootForRounding_lt_two_pow f hq).le
      _ ≤ (2 : Rat) ^ (Int.log 2 q' / 2) := zpow_le_zpow_right₀ (by norm_num) hplace
      _ ≤ rootForRounding f q' := two_pow_le_rootForRounding f hq'

/-! ### Roots of numbers -/

variable {x y : Binary f}

/-- A finite number is positive if its value is. -/
theorem zero_lt_iff_value (hx : x.isFinite = true) : 0 < x ↔ 0 < x.value := by
  rw [zero_eq, lt_iff_value rfl hx, value_zero]

/-- The root of a positive finite number is its rounded root. -/
theorem sqrt_of_finite (hx : x.isFinite = true) (hpos : 0 < x.value) :
    x.sqrt = ofRat false (rootForRounding f x.value) := by
  obtain ⟨negative, significand, exponent, canonical, rfl⟩ := exists_finite_eq hx
  have hsignificand : significand ≠ 0 := by
    rintro rfl
    simp [value_finite] at hpos
  have hnegative : negative = false := by
    rw [Bool.eq_false_iff]
    intro hneg
    exact absurd hpos (not_lt.2 (value_nonpos hneg))
  rw [sqrt, if_neg hsignificand, hnegative, if_neg Bool.false_ne_true]

/-- Positive numbers have roots. -/
theorem isNaN_sqrt (hpos : 0 < x) : x.sqrt.isNaN = false := by
  cases x with
  | nan => cases hpos
  | infinity negative =>
    cases negative with
    | true => cases hpos
    | false => rfl
  | finite =>
    rw [sqrt_of_finite rfl ((zero_lt_iff_value rfl).1 hpos)]
    exact isNaN_ofRat _ _

/-- Square roots keep the order of positive numbers. -/
theorem sqrt_mono (hpos : 0 < x) (h : x ≤ y) : x.sqrt ≤ y.sqrt := by
  rcases le_cases h with ⟨rfl, -⟩ | ⟨rfl, -⟩ | ⟨hx, hy, hvalue⟩
  · exact absurd hpos (Binary.not_lt_of_lt (infinity_true_lt rfl))
  · exact le_infinity_false (isNaN_sqrt hpos)
  · have hx' : 0 < x.value := (zero_lt_iff_value hx).1 hpos
    rw [sqrt_of_finite hx hx', sqrt_of_finite hy (hx'.trans_le hvalue)]
    exact ofRat_mono _ _ (rootForRounding_mono f hx' hvalue)

end Binary

end FakeQuant
