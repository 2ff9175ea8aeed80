/-!
# Binary floating-point formats and their values

A `Format` fixes how many bits a significand has and how many bits an exponent field has. A value
of `Binary f` is the not-a-number value, an infinity, or a finite number `± significand · 2 ^
exponent` in the one canonical form that the format gives it, so two values are equal exactly when
they have the same bits; the two zeros differ, and there is a single not-a-number value.

`Binary.value` is the rational number that a finite value stands for; everything that the arithmetic
does is said through it.
-/

namespace FakeQuant

/-- A binary floating-point format. -/
structure Format where
  /-- Bits of a significand, its leading bit included. -/
  precision : Nat
  /-- Bits of the exponent field. -/
  exponentBits : Nat
  two_le_precision : 2 ≤ precision := by decide
  two_le_exponentBits : 2 ≤ exponentBits := by decide
deriving DecidableEq

namespace Format

/-- The 32-bit format. -/
def single : Format := { precision := 24, exponentBits := 8 }

/-- The 64-bit format. -/
def double : Format := { precision := 53, exponentBits := 11 }

variable (f : Format)

/-- Every significand is below this power of two. -/
def limit : Nat := Nat.pow 2 f.precision

/-- The significands of normal numbers start at this power of two. -/
def normalStart : Nat := Nat.pow 2 (f.precision - 1)

/-- The number of values of the exponent field. -/
def fieldLimit : Nat := Nat.pow 2 f.exponentBits

/-- The largest exponent of the leading bit. -/
def bias : Nat := Nat.pow 2 (f.exponentBits - 1) - 1

/-- The exponent of the last place of subnormal numbers. -/
def minExponent : Int := 2 - f.bias - f.precision

/-- The exponent of the last place of the largest numbers. -/
def maxExponent : Int := f.bias + 1 - f.precision

/-- The pairs of significand and exponent that the format has. The significand of a number that is
not at the least exponent has its leading bit set, so a magnitude has one such pair only. -/
def Canonical (significand : Nat) (exponent : Int) : Prop :=
  significand < f.limit ∧ f.minExponent ≤ exponent ∧ exponent ≤ f.maxExponent ∧
    (f.normalStart ≤ significand ∨ exponent = f.minExponent)

instance (significand : Nat) (exponent : Int) : Decidable (f.Canonical significand exponent) :=
  inferInstanceAs (Decidable (_ ∧ _ ∧ _ ∧ (_ ∨ _)))

theorem normalStart_pos : 0 < f.normalStart :=
  Nat.pow_pos (by decide)

theorem limit_eq : f.limit = 2 * f.normalStart := by
  obtain ⟨k, hk⟩ : ∃ k, f.precision = k + 1 :=
    ⟨f.precision - 1, by have := f.two_le_precision; omega⟩
  simp only [limit, normalStart, hk, Nat.add_sub_cancel]
  exact Nat.pow_succ'

theorem fieldLimit_eq : f.fieldLimit = 2 * (f.bias + 1) := by
  obtain ⟨k, hk⟩ : ∃ k, f.exponentBits = k + 1 :=
    ⟨f.exponentBits - 1, by have := f.two_le_exponentBits; omega⟩
  have hpos : 0 < Nat.pow 2 k := Nat.pow_pos (by decide)
  have hsucc : Nat.pow 2 (k + 1) = 2 * Nat.pow 2 k := Nat.pow_succ'
  simp only [fieldLimit, bias, hk, Nat.add_sub_cancel]
  omega

theorem bias_pos : 0 < f.bias := by
  obtain ⟨k, hk⟩ : ∃ k, f.exponentBits = k + 2 :=
    ⟨f.exponentBits - 2, by have := f.two_le_exponentBits; omega⟩
  have hpos : 0 < Nat.pow 2 k := Nat.pow_pos (by decide)
  have hsucc : Nat.pow 2 (k + 1) = 2 * Nat.pow 2 k := Nat.pow_succ'
  have hsub : k + 2 - 1 = k + 1 := rfl
  simp only [bias, hk, hsub]
  omega

theorem minExponent_le_maxExponent : f.minExponent ≤ f.maxExponent := by
  have := f.bias_pos
  simp only [minExponent, maxExponent]
  omega

/-- Zero is written with the least exponent. -/
theorem canonical_zero : f.Canonical 0 f.minExponent :=
  ⟨Nat.pow_pos (by decide), Int.le_refl _, f.minExponent_le_maxExponent, .inr rfl⟩

/-- A significand without its leading bit goes with the least exponent. -/
theorem canonical_subnormal {fraction : Nat} (h : fraction < f.normalStart) :
    f.Canonical fraction f.minExponent := by
  have := f.limit_eq
  exact ⟨by omega, Int.le_refl _, f.minExponent_le_maxExponent, .inr rfl⟩

/-- A significand with its leading bit goes with the exponent of every field but the first and
last. -/
theorem canonical_normal {fraction field : Nat} (h : fraction < f.normalStart) (hpos : field ≠ 0)
    (hlast : field < f.fieldLimit - 1) :
    f.Canonical (f.normalStart + fraction) (f.minExponent + field - 1) := by
  have hlimit := f.limit_eq
  have hfields := f.fieldLimit_eq
  refine ⟨by omega, by omega, ?_, .inl (Nat.le_add_right _ _)⟩
  simp only [minExponent, maxExponent]
  omega

end Format

/-- The values of a binary floating-point format. -/
inductive Binary (f : Format) where
  | nan
  | infinity (negative : Bool)
  | finite (negative : Bool) (significand : Nat) (exponent : Int)
      (canonical : f.Canonical significand exponent)
deriving DecidableEq

/-- Numbers of the 32-bit format. -/
abbrev Single := Binary Format.single

/-- Numbers of the 64-bit format. -/
abbrev Double := Binary Format.double

namespace Binary

variable {f : Format}

/-- The zero of the given sign. -/
def zero (negative : Bool) : Binary f :=
  .finite negative 0 f.minExponent f.canonical_zero

instance : Inhabited (Binary f) := ⟨zero false⟩

/-- The number of this sign, significand and exponent, or the infinity of this sign when the format
has no such number. -/
def ofParts (negative : Bool) (significand : Nat) (exponent : Int) : Binary f :=
  if h : f.Canonical significand exponent then .finite negative significand exponent h
  else .infinity negative

/-- The exact value of a finite number; the other values count as zero here. -/
def value : Binary f → Rat
  | nan => 0
  | infinity _ => 0
  | finite negative significand exponent _ =>
    let magnitude := (significand : Rat) * (2 : Rat) ^ exponent
    if negative then -magnitude else magnitude

/-- Whether the value is the not-a-number value. -/
def isNaN : Binary f → Bool
  | nan => true
  | infinity _ | finite .. => false

/-- Whether the value is a number and no infinity. -/
def isFinite : Binary f → Bool
  | finite .. => true
  | nan | infinity _ => false

/-- The sign bit; the not-a-number value counts as unsigned. -/
def isNegative : Binary f → Bool
  | nan => false
  | infinity negative => negative
  | finite negative .. => negative

end Binary

end FakeQuant
