import FakeQuant.Proofs.Rounding
import Mathlib.Algebra.Order.Ring.Abs
import Mathlib.Data.Nat.GCD.Basic
import Mathlib.Tactic.FieldSimp

/-!
# Decimals near the ends of rounding intervals

A decimal `c · 10 ^ k` and an odd multiple `m · 2 ^ e` of a power of two are either equal or some
distance apart. With `m` of twenty-five bits, and a step `10 ^ k` of the decimals that is not small
against `2 ^ e`, the distance is at least one part in `2 ^ 51` (`gap_of_decimal`), which is more
than what rounding to the 64-bit format takes away. There is one exception.

Scaled by powers of two the question is how near `c' · a` comes to an integer `m`, where `a` is the
power of ten over the power of two below it and `c'` has twenty-five bits as well. A convergent
`p / q` of the continued fraction of `a` answers it: off the line `c' · p = m · q` the distance is
bounded below by the error of the convergent (`IsGuide`), and on the line `(c', m)` is a multiple of
`(q, p)`, which the size or the parity of `m` rules out or which is far enough away itself
(`IsHarmless`). Both conditions are checked for every power of ten that matters.
-/

namespace FakeQuant

/-! ### Convergents -/

/-- The convergents of the continued fraction of `n / d`, by Euclid's algorithm on the two numbers,
behind the two convergents before. -/
def convergents : (steps n d p₀ q₀ p₁ q₁ : Nat) → List (Nat × Nat)
  | 0, _, _, _, _, _, _ => []
  | steps + 1, n, d, p₀, q₀, p₁, q₁ =>
    let p := n / d * p₁ + p₀
    let q := n / d * q₁ + q₀
    (p, q) :: convergents steps d (n % d) p₁ q₁ p q

/-- How far `p / q` is from `n / d`, in units of one over the product of the denominators. -/
def crossGap (n d p q : Nat) : Nat :=
  ((q * n : Nat) - (p * d : Nat) : Int).natAbs

/-- The fraction `p / q` is so near to `n / d` that pairs off its line keep their distance. -/
def IsGuide (n d p q : Nat) : Prop :=
  0 < q ∧ q.Coprime p ∧ 2 ^ 26 * ((2 ^ 25 + 2) * crossGap n d p q) + q * d ≤ 2 ^ 26 * d

/-- A pair on the line of `p / q` is on the line of `n / d` as well, or away from it, or not of the
kind that matters. -/
def IsHarmless (n d p q : Nat) : Prop :=
  crossGap n d p q = 0 ∨ p * d ≤ 2 ^ 51 * crossGap n d p q ∨ p % 2 = 0 ∨ 2 ^ 25 ≤ p ∨
    (q % 2 = 1 ∧ 5 * n < 7 * d)

instance (n d p q : Nat) : Decidable (IsGuide n d p q) :=
  inferInstanceAs (Decidable (_ ∧ _ ∧ _))

instance (n d p q : Nat) : Decidable (IsHarmless n d p q) :=
  inferInstanceAs (Decidable (_ ∨ _ ∨ _ ∨ _ ∨ _))

section Line

variable {n d p q c m : Nat}

/-- A pair is on the line of the guide, or it is away from the line of `n / d`. -/
theorem IsGuide.cases (h : IsGuide n d p q) (hc : c ≤ 2 ^ 25 + 2) :
    (∃ u, c = u * q ∧ m = u * p) ∨ (d : Int) ≤ 2 ^ 26 * |(c * n : Int) - m * d| := by
  obtain ⟨hq, hcoprime, hnear⟩ := h
  by_cases hline : c * p = m * q
  · obtain ⟨u, rfl⟩ : q ∣ c := hcoprime.dvd_of_dvd_mul_right ⟨m, by rw [hline, Nat.mul_comm]⟩
    refine .inl ⟨u, Nat.mul_comm _ _, Nat.eq_of_mul_eq_mul_right hq ?_⟩
    rw [← hline]
    ring
  · right
    have hone : 1 ≤ |(c * p : Int) - m * q| :=
      Int.one_le_abs (sub_ne_zero.2 (by exact_mod_cast hline))
    have hcross : ((crossGap n d p q : Nat) : Int) = |(q * n : Int) - p * d| := by
      rw [crossGap, Int.natCast_natAbs]
      push_cast
      rfl
    have hsplit : (d : Int) * ((c * p : Int) - m * q)
        = q * ((c * n : Int) - m * d) - c * ((q * n : Int) - p * d) := by ring
    have hd : (d : Int) ≤ q * |(c * n : Int) - m * d| + c * |(q * n : Int) - p * d| := by
      calc (d : Int) ≤ d * |(c * p : Int) - m * q| :=
            le_mul_of_one_le_right (Int.natCast_nonneg d) hone
        _ = |(d : Int) * ((c * p : Int) - m * q)| := by rw [abs_mul, Nat.abs_cast]
        _ ≤ |(q : Int) * ((c * n : Int) - m * d)| + |(c : Int) * ((q * n : Int) - p * d)| := by
          rw [hsplit]
          exact abs_sub _ _
        _ = q * |(c * n : Int) - m * d| + c * |(q * n : Int) - p * d| := by
          rw [abs_mul, abs_mul, Nat.abs_cast, Nat.abs_cast]
    have hnear' : 2 ^ 26 * ((2 ^ 25 + 2) * |(q * n : Int) - p * d|) + q * d
        ≤ 2 ^ 26 * (d : Int) := by
      rw [← hcross]
      exact_mod_cast hnear
    have hc' : (c : Int) * |(q * n : Int) - p * d| ≤ (2 ^ 25 + 2) * |(q * n : Int) - p * d| :=
      mul_le_mul_of_nonneg_right (by exact_mod_cast hc) (abs_nonneg _)
    have hq' : (q : Int) * d ≤ q * (2 ^ 26 * |(c * n : Int) - m * d|) := by linarith
    exact le_of_mul_le_mul_left hq' (by exact_mod_cast hq)

/-- A pair of the kind that matters is on the line of `n / d` or away from it. -/
theorem IsGuide.gap (h : IsGuide n d p q) (hline : IsHarmless n d p q) (hc : c ≤ 2 ^ 25 + 2)
    (hm : m < 2 ^ 25) (hodd : m % 2 = 1) (heven : 5 * n < 7 * d → c % 2 = 0) :
    c * n = m * d ∨ (m * d : Int) ≤ 2 ^ 51 * |(c * n : Int) - m * d| := by
  rcases h.cases (m := m) hc with ⟨u, rfl, rfl⟩ | hfar
  · have hcross : ((u * q : Nat) * n : Int) - (u * p : Nat) * d = u * ((q * n : Int) - p * d) := by
      push_cast
      ring
    have hu : 0 < u := by
      rcases Nat.eq_zero_or_pos u with rfl | hpos
      · simp at hodd
      · exact hpos
    rcases hline with hzero | hfar | hp | hp | ⟨hq, hlt⟩
    · left
      rw [crossGap, Int.natAbs_eq_zero, sub_eq_zero] at hzero
      have hzero : q * n = p * d := by exact_mod_cast hzero
      rw [mul_assoc, hzero, mul_assoc]
    · right
      have hfar' : (p * d : Int) ≤ 2 ^ 51 * |(q * n : Int) - p * d| := by
        rw [crossGap] at hfar
        have := (Int.ofNat_le.2 hfar)
        push_cast at this
        exact this
      rw [hcross, abs_mul, Nat.abs_cast]
      push_cast
      calc (u : Int) * p * d = u * (p * d) := by ring
        _ ≤ u * (2 ^ 51 * |(q * n : Int) - p * d|) :=
          mul_le_mul_of_nonneg_left hfar' (Int.natCast_nonneg u)
        _ = 2 ^ 51 * (u * |(q * n : Int) - p * d|) := by ring
    · rw [Nat.mul_mod, hp, Nat.mul_zero] at hodd
      cases hodd
    · have := Nat.le_mul_of_pos_left p hu
      omega
    · -- an odd multiple of an odd number would have to be even
      have hu' : u % 2 = 1 := Nat.odd_iff.1 (Nat.odd_mul.1 (Nat.odd_iff.2 hodd)).1
      have := heven hlt
      rw [Nat.mul_mod, hu', hq] at this
      cases this
  · right
    have hd : (m : Int) * d ≤ 2 ^ 25 * d :=
      mul_le_mul_of_nonneg_right (by exact_mod_cast hm.le) (Int.natCast_nonneg d)
    linarith

end Line

/-! ### Powers of ten -/

/-- A power of ten over the power of two below it. -/
def tenMantissa (k : Int) : Rat :=
  (10 : Rat) ^ k / (2 : Rat) ^ floorLog2 ((10 : Rat) ^ k)

theorem ten_zpow_eq (k : Int) :
    (10 : Rat) ^ k = tenMantissa k * (2 : Rat) ^ floorLog2 ((10 : Rat) ^ k) :=
  (div_mul_cancel₀ _ (by positivity)).symm

theorem one_le_tenMantissa (k : Int) : 1 ≤ tenMantissa k := by
  rw [tenMantissa, one_le_div (by positivity), floorLog2_eq (by positivity)]
  exact (Int.zpow_le_iff_le_log (b := 2) (by decide) (by positivity)).2 le_rfl

theorem tenMantissa_lt_two (k : Int) : tenMantissa k < 2 := by
  rw [tenMantissa, div_lt_iff₀ (by positivity), floorLog2_eq (by positivity),
    ← zpow_one_add₀ (by norm_num)]
  exact (Int.lt_zpow_iff_log_lt (b := 2) (by decide) (by positivity)).2 (by omega)

/-- One of the convergents of a power of ten is a guide, and harmless on its line. -/
def IsGuided (k : Int) : Prop :=
  ∃ pq ∈ convergents 24 (tenMantissa k).num.natAbs (tenMantissa k).den 0 1 1 0,
    IsGuide (tenMantissa k).num.natAbs (tenMantissa k).den pq.1 pq.2 ∧
      IsHarmless (tenMantissa k).num.natAbs (tenMantissa k).den pq.1 pq.2

instance (k : Int) : Decidable (IsGuided k) :=
  inferInstanceAs (Decidable (∃ pq ∈ convergents _ _ _ _ _ _ _, _ ∧ _))

private theorem isGuided_fin : ∀ i : Fin 84, i.val ≠ 13 → IsGuided (i.val - 45) := by
  decide +kernel

/-- Every power of ten that goes with single-precision numbers is guided, but one. -/
theorem isGuided {k : Int} (hmin : -45 ≤ k) (hmax : k ≤ 38) (hne : k ≠ -32) : IsGuided k := by
  have h := isGuided_fin ⟨(k + 45).toNat, by omega⟩ (by dsimp only; omega)
  dsimp only at h
  rwa [Int.toNat_of_nonneg (by omega), add_sub_cancel_right] at h

/-- The power that is left has a guide too, with one pair on its line that matters. -/
private theorem isGuide_exception :
    IsGuide (tenMantissa (-32)).num.natAbs (tenMantissa (-32)).den 22841339 14077062 ∧
      floorLog2 ((10 : Rat) ^ (-32 : Int)) = -107 ∧
      tenMantissa (-32) * 14077062 < 22841339 := by
  decide +kernel

/-! ### The gap -/

section Gap

variable {k e : Int} {c m : Nat}

/-- Scaled by the power of two, a decimal that is not much above an odd multiple is a pair of a
small coefficient and that multiple. The coefficient is even where the power of ten is small. -/
private theorem scale (hstep : 7 * (2 : Rat) ^ e ≤ 5 * (10 : Rat) ^ k)
    (hle : c * (10 : Rat) ^ k ≤ (m + 3) * (2 : Rat) ^ e) :
    ∃ j : Nat, floorLog2 ((10 : Rat) ^ k) = e + j ∧
      c * (10 : Rat) ^ k = (c * 2 ^ j : Nat) * tenMantissa k * (2 : Rat) ^ e ∧
      c * 2 ^ j ≤ m + 3 ∧ (tenMantissa k < 7 / 5 → c * 2 ^ j % 2 = 0) := by
  have hunit : (0 : Rat) < (2 : Rat) ^ e := by positivity
  have hten := ten_zpow_eq k
  have hone := one_le_tenMantissa k
  have htwo := tenMantissa_lt_two k
  generalize tenMantissa k = a at *
  generalize floorLog2 ((10 : Rat) ^ k) = E at *
  -- a smaller power of two would make the step too small
  obtain ⟨j, rfl⟩ : ∃ j : Nat, E = e + j := by
    have hle' : e ≤ E := by
      by_contra hlt
      have hpow : (2 : Rat) ^ (E + 1) ≤ (2 : Rat) ^ e :=
        zpow_le_zpow_right₀ (by norm_num) (by omega)
      rw [zpow_add_one₀ (by norm_num)] at hpow
      have := mul_lt_mul_of_pos_right htwo (show (0 : Rat) < (2 : Rat) ^ E by positivity)
      linarith
    exact ⟨(E - e).toNat, by omega⟩
  have hscaled : c * (10 : Rat) ^ k = (c * 2 ^ j : Nat) * a * (2 : Rat) ^ e := by
    rw [hten, zpow_add₀ (by norm_num), zpow_natCast]
    push_cast
    ring
  refine ⟨j, rfl, hscaled, ?_, ?_⟩
  · rw [hscaled] at hle
    have hle' := le_of_mul_le_mul_right hle hunit
    have : ((c * 2 ^ j : Nat) : Rat) ≤ m + 3 :=
      le_trans (le_mul_of_one_le_right (Nat.cast_nonneg _) hone) hle'
    exact_mod_cast this
  · intro hsmall
    cases j with
    | zero =>
      rw [hten] at hstep
      have := mul_lt_mul_of_pos_right hsmall hunit
      norm_num at hstep
      linarith
    | succ j =>
      rw [pow_succ, ← mul_assoc]
      exact Nat.mul_mod_left _ 2

/-- The one decimal that comes too near to an end: it is just below it. -/
def IsException (k e : Int) (c m : Nat) : Prop :=
  k = -32 ∧ m = 22841339 ∧ (e = -107 ∨ e = -108) ∧ c * (10 : Rat) ^ k < m * (2 : Rat) ^ e

/-- Integer pairs carry their distance over to the scaled numbers. -/
private theorem gap_of_pair {n d C : Nat} {x y unit : Rat} (hd : 0 < d) (hunit : 0 < unit)
    (hx : x = C * (n / d) * unit) (hy : y = m * unit)
    (hpair : C * n = m * d ∨ (m * d : Int) ≤ 2 ^ 51 * |(C * n : Int) - m * d|) :
    x = y ∨ y ≤ 2 ^ 51 * |x - y| := by
  have hd' : (0 : Rat) < d := by exact_mod_cast hd
  have hdiff : (x - y) * d = ((C * n : Int) - m * d : Int) * unit := by
    rw [hx, hy]
    push_cast
    field_simp
  rcases hpair with hline | hfar
  · left
    have hzero : (x - y) * d = 0 := by
      rw [hdiff, show (C * n : Int) - m * d = 0 by rw [sub_eq_zero]; exact_mod_cast hline]
      simp
    exact sub_eq_zero.1 ((mul_eq_zero.1 hzero).resolve_right hd'.ne')
  · right
    have hfar' : ((m * d : Int) : Rat) ≤ (2 ^ 51 * |(C * n : Int) - m * d| : Int) := by
      exact_mod_cast hfar
    have habs : |x - y| * d = (|(C * n : Int) - m * d| : Int) * unit := by
      rw [← abs_of_pos hd', ← abs_mul, hdiff, abs_mul, abs_of_pos hunit, ← Int.cast_abs]
    refine le_of_mul_le_mul_right ?_ hd'
    calc y * d = ((m * d : Int) : Rat) * unit := by rw [hy]; push_cast; ring
      _ ≤ (2 ^ 51 * |(C * n : Int) - m * d| : Int) * unit :=
        mul_le_mul_of_nonneg_right hfar' hunit.le
      _ = 2 ^ 51 * (|x - y| * d) := by rw [habs]; push_cast; ring
      _ = 2 ^ 51 * |x - y| * d := by ring

/-- A decimal with a step that is not small against a power of two equals an odd multiple of that
power, or is away from it, or is the exception. -/
theorem gap_of_decimal (hmin : -45 ≤ k) (hmax : k ≤ 38) (hm : m < 2 ^ 25) (hodd : m % 2 = 1)
    (hstep : 7 * (2 : Rat) ^ e ≤ 5 * (10 : Rat) ^ k)
    (hle : c * (10 : Rat) ^ k ≤ (m + 3) * (2 : Rat) ^ e) :
    (c * (10 : Rat) ^ k = m * (2 : Rat) ^ e ∨
      m * (2 : Rat) ^ e ≤ 2 ^ 51 * |c * (10 : Rat) ^ k - m * (2 : Rat) ^ e|) ∨
      IsException k e c m := by
  have hunit : (0 : Rat) < (2 : Rat) ^ e := by positivity
  obtain ⟨j, hplace, hscaled, hc, heven⟩ := scale hstep hle
  have hquot : tenMantissa k = (tenMantissa k).num.natAbs / (tenMantissa k).den := by
    conv_lhs => rw [← (tenMantissa k).num_div_den]
    rw [← Int.cast_natCast (tenMantissa k).num.natAbs, Int.natAbs_of_nonneg
      (Rat.num_pos.2 (lt_of_lt_of_le one_pos (one_le_tenMantissa k))).le]
  have hscaled' := hscaled
  rw [hquot] at hscaled'
  have hgap := gap_of_pair (m := m) (tenMantissa k).den_pos hunit hscaled' rfl
  by_cases hk : k = -32
  · subst hk
    obtain ⟨hguide, hE, hlt⟩ := isGuide_exception
    rcases hguide.cases (m := m) (hc.trans (by omega)) with ⟨u, hu, rfl⟩ | hfar
    · right
      have hu1 : u = 1 := by omega
      subst hu1
      rw [hE] at hplace
      refine ⟨rfl, rfl, ?_, ?_⟩
      · rcases Nat.lt_or_ge j 2 with hj | hj
        · omega
        · obtain ⟨i, rfl⟩ : ∃ i, j = i + 2 := ⟨j - 2, by omega⟩
          have hfour : 4 * (c * 2 ^ i) = 14077062 := by rw [← Nat.one_mul 14077062, ← hu]; ring
          omega
      · rw [hscaled, hu]
        apply mul_lt_mul_of_pos_right _ hunit
        push_cast
        linarith
    · left
      refine hgap (.inr ?_)
      have : (m : Int) * (tenMantissa (-32)).den ≤ 2 ^ 25 * (tenMantissa (-32)).den :=
        mul_le_mul_of_nonneg_right (by exact_mod_cast hm.le) (Int.natCast_nonneg _)
      linarith
  · left
    obtain ⟨⟨p, q⟩, -, hguide, hharmless⟩ := isGuided hmin hmax hk
    refine hgap (hguide.gap hharmless (hc.trans (by omega)) hm hodd fun hsmall => heven ?_)
    have hden : (0 : Rat) < (tenMantissa k).den := by exact_mod_cast (tenMantissa k).den_pos
    rw [hquot, div_lt_div_iff₀ hden (by norm_num)]
    have : ((5 * (tenMantissa k).num.natAbs : Nat) : Rat) < (7 * (tenMantissa k).den : Nat) := by
      exact_mod_cast hsmall
    push_cast at this ⊢
    linarith

end Gap

end FakeQuant
