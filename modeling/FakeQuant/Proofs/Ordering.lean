import FakeQuant.Binary.Arithmetic
import Mathlib.Algebra.Order.Ring.Rat
import Mathlib.Order.WithBot

/-!
# The order of numbers

Comparison takes the infinities as the two ends of the rational numbers. `Binary.extended` puts
every number that is not the not-a-number value into that order, and the three comparisons are those
of the order (`lt_iff_extended`, `le_iff_extended`, `numEq_iff_extended`). So they are total and
transitive on numbers, and a comparison that holds is one of numbers.
-/

namespace FakeQuant

namespace Binary

variable {f : Format} {x y z : Binary f}

theorem exists_finite_eq (hx : x.isFinite = true) :
    ∃ negative significand exponent h, x = finite negative significand exponent h := by
  cases x with
  | nan => cases hx
  | infinity negative => cases hx
  | finite negative significand exponent h => exact ⟨negative, significand, exponent, h, rfl⟩

/-- The exact value among the rational numbers with both infinities; the not-a-number value counts
as zero here. -/
def extended : Binary f → WithBot (WithTop Rat)
  | nan => (((0 : Rat) : WithTop Rat) : WithBot (WithTop Rat))
  | infinity true => ⊥
  | infinity false => ((⊤ : WithTop Rat) : WithBot (WithTop Rat))
  | x@(finite ..) => ((x.value : WithTop Rat) : WithBot (WithTop Rat))

theorem extended_of_finite (hx : x.isFinite = true) :
    x.extended = ((x.value : WithTop Rat) : WithBot (WithTop Rat)) := by
  obtain ⟨_, _, _, _, rfl⟩ := exists_finite_eq hx
  rfl

theorem isNaN_of_isFinite (hx : x.isFinite = true) : x.isNaN = false := by
  obtain ⟨_, _, _, _, rfl⟩ := exists_finite_eq hx
  rfl

/-- A smaller number is one whose place in the order is smaller. -/
theorem lt_iff_extended (hx : x.isNaN = false) (hy : y.isNaN = false) :
    x < y ↔ x.extended < y.extended := by
  rw [lt_iff_blt]
  cases x with
  | nan => cases hx
  | infinity a =>
    cases y with
    | nan => cases hy
    | infinity b => cases a <;> cases b <;> simp [Binary.blt, extended]
    | finite => cases a <;> simp [Binary.blt, extended]
  | finite =>
    cases y with
    | nan => cases hy
    | infinity b =>
      cases b with
      | true => simp [Binary.blt, extended]
      | false => exact iff_of_true rfl (WithBot.coe_lt_coe.2 (WithTop.coe_lt_top _))
    | finite => simp [Binary.blt, extended]

/-- Numbers are equal when their places in the order are. -/
theorem numEq_iff_extended (hx : x.isNaN = false) (hy : y.isNaN = false) :
    x.numEq y = true ↔ x.extended = y.extended := by
  cases x with
  | nan => cases hx
  | infinity a =>
    cases y with
    | nan => cases hy
    | infinity b => cases a <;> cases b <;> simp [numEq, extended]
    | finite => cases a <;> simp [numEq, extended]
  | finite =>
    cases y with
    | nan => cases hy
    | infinity b => cases b <;> simp [numEq, extended]
    | finite => simp [numEq, extended]

theorem le_iff_extended (hx : x.isNaN = false) (hy : y.isNaN = false) :
    x ≤ y ↔ x.extended ≤ y.extended := by
  rw [le_iff_blt_or_numEq, Bool.or_eq_true, ← lt_iff_blt, lt_iff_extended hx hy,
    numEq_iff_extended hx hy, le_iff_lt_or_eq]

/-- Finite numbers compare as their values do. -/
theorem le_iff_value (hx : x.isFinite = true) (hy : y.isFinite = true) :
    x ≤ y ↔ x.value ≤ y.value := by
  rw [le_iff_extended (isNaN_of_isFinite hx) (isNaN_of_isFinite hy), extended_of_finite hx,
    extended_of_finite hy, WithBot.coe_le_coe, WithTop.coe_le_coe]

theorem lt_iff_value (hx : x.isFinite = true) (hy : y.isFinite = true) :
    x < y ↔ x.value < y.value := by
  rw [lt_iff_extended (isNaN_of_isFinite hx) (isNaN_of_isFinite hy), extended_of_finite hx,
    extended_of_finite hy, WithBot.coe_lt_coe, WithTop.coe_lt_coe]

theorem numEq_iff_value (hx : x.isFinite = true) (hy : y.isFinite = true) :
    x.numEq y = true ↔ x.value = y.value := by
  rw [numEq_iff_extended (isNaN_of_isFinite hx) (isNaN_of_isFinite hy), extended_of_finite hx,
    extended_of_finite hy, WithBot.coe_inj, WithTop.coe_inj]

/-- Only numbers are smaller than something, and only numbers are larger. -/
theorem isNaN_of_lt (h : x < y) : x.isNaN = false ∧ y.isNaN = false := by
  rw [lt_iff_blt] at h
  cases x <;> cases y <;> first | exact ⟨rfl, rfl⟩ | cases h

theorem isNaN_of_numEq (h : x.numEq y = true) : x.isNaN = false ∧ y.isNaN = false := by
  cases x <;> cases y <;> first | exact ⟨rfl, rfl⟩ | cases h

theorem isNaN_of_le (h : x ≤ y) : x.isNaN = false ∧ y.isNaN = false := by
  rw [le_iff_blt_or_numEq, Bool.or_eq_true] at h
  exact h.elim isNaN_of_lt isNaN_of_numEq

protected theorem not_lt_of_le (h : x ≤ y) : ¬ y < x := by
  obtain ⟨hx, hy⟩ := isNaN_of_le h
  rw [lt_iff_extended hy hx, not_lt]
  exact (le_iff_extended hx hy).1 h

protected theorem not_lt_of_lt (h : x < y) : ¬ y < x := by
  obtain ⟨hx, hy⟩ := isNaN_of_lt h
  rw [lt_iff_extended hy hx]
  exact ((lt_iff_extended hx hy).1 h).not_gt

/-- Of two numbers one is smaller than the other or not larger. -/
protected theorem lt_or_le (hx : x.isNaN = false) (hy : y.isNaN = false) : x < y ∨ y ≤ x := by
  rw [lt_iff_extended hx hy, le_iff_extended hy hx]
  exact lt_or_ge _ _

protected theorem lt_of_le_of_lt (hxy : x ≤ y) (hyz : y < z) : x < z := by
  obtain ⟨hx, hy⟩ := isNaN_of_le hxy
  obtain ⟨-, hz⟩ := isNaN_of_lt hyz
  rw [lt_iff_extended hx hz]
  exact ((le_iff_extended hx hy).1 hxy).trans_lt ((lt_iff_extended hy hz).1 hyz)

protected theorem lt_of_lt_of_le (hxy : x < y) (hyz : y ≤ z) : x < z := by
  obtain ⟨hx, hy⟩ := isNaN_of_lt hxy
  obtain ⟨-, hz⟩ := isNaN_of_le hyz
  rw [lt_iff_extended hx hz]
  exact ((lt_iff_extended hx hy).1 hxy).trans_le ((le_iff_extended hy hz).1 hyz)

protected theorem le_refl (hx : x.isNaN = false) : x ≤ x :=
  (le_iff_extended hx hx).2 le_rfl

protected theorem le_trans (hxy : x ≤ y) (hyz : y ≤ z) : x ≤ z := by
  obtain ⟨hx, hy⟩ := isNaN_of_le hxy
  obtain ⟨-, hz⟩ := isNaN_of_le hyz
  exact (le_iff_extended hx hz).2
    (((le_iff_extended hx hy).1 hxy).trans ((le_iff_extended hy hz).1 hyz))

/-- The infinities are the ends of the order. -/
theorem infinity_true_le (hx : x.isNaN = false) : infinity true ≤ x := by
  rw [le_iff_extended rfl hx]
  exact bot_le

theorem le_infinity_false (hx : x.isNaN = false) : x ≤ infinity false := by
  rw [le_iff_extended hx rfl]
  exact le_top

theorem infinity_true_lt (hx : x.isFinite = true) : infinity true < x := by
  obtain ⟨_, _, _, _, rfl⟩ := exists_finite_eq hx
  rfl

theorem lt_infinity_false (hx : x.isFinite = true) : x < infinity false := by
  obtain ⟨_, _, _, _, rfl⟩ := exists_finite_eq hx
  rfl

/-- Two numbers are in order because one of them is the infinity at its end, or because both are
finite and their values are in order. -/
theorem le_cases (h : x ≤ y) :
    (x = infinity true ∧ y.isNaN = false) ∨ (y = infinity false ∧ x.isNaN = false) ∨
      (x.isFinite = true ∧ y.isFinite = true ∧ x.value ≤ y.value) := by
  obtain ⟨hx, hy⟩ := isNaN_of_le h
  cases x with
  | nan => cases hx
  | infinity a =>
    cases a with
    | true => exact .inl ⟨rfl, hy⟩
    | false =>
      cases y with
      | nan => cases hy
      | infinity b =>
        cases b with
        | true => cases h
        | false => exact .inr (.inl ⟨rfl, rfl⟩)
      | finite => cases h
  | finite =>
    cases y with
    | nan => cases hy
    | infinity b =>
      cases b with
      | true => cases h
      | false => exact .inr (.inl ⟨rfl, rfl⟩)
    | finite => exact .inr (.inr ⟨rfl, rfl, (le_iff_value rfl rfl).1 h⟩)

/-- What lies between finite numbers is finite. -/
theorem isFinite_of_le_of_le (hx : x.isFinite = true) (hz : z.isFinite = true) (hxy : x ≤ y)
    (hyz : y ≤ z) : y.isFinite = true := by
  cases y with
  | nan => cases (isNaN_of_le hyz).1
  | infinity negative =>
    rw [le_iff_extended (isNaN_of_isFinite hx) rfl, extended_of_finite hx] at hxy
    rw [le_iff_extended rfl (isNaN_of_isFinite hz), extended_of_finite hz] at hyz
    cases negative with
    | true => exact absurd (WithBot.bot_lt_coe _) (not_lt.2 hxy)
    | false => exact absurd (WithBot.coe_lt_coe.2 (WithTop.coe_lt_top _)) (not_lt.2 hyz)
  | finite => rfl

theorem not_numEq_of_lt (h : x < y) : x.numEq y = false := by
  obtain ⟨hx, hy⟩ := isNaN_of_lt h
  rw [Bool.eq_false_iff, Ne, numEq_iff_extended hx hy]
  exact ((lt_iff_extended hx hy).1 h).ne

theorem numEq_self (hx : x.isNaN = false) : x.numEq x = true :=
  (numEq_iff_extended hx hx).2 rfl

theorem numEq_comm (x y : Binary f) : x.numEq y = y.numEq x := by
  rw [Bool.eq_iff_iff]
  constructor
  · intro h
    obtain ⟨hx, hy⟩ := isNaN_of_numEq h
    exact (numEq_iff_extended hy hx).2 ((numEq_iff_extended hx hy).1 h).symm
  · intro h
    obtain ⟨hy, hx⟩ := isNaN_of_numEq h
    exact (numEq_iff_extended hx hy).2 ((numEq_iff_extended hy hx).1 h).symm

end Binary

end FakeQuant
