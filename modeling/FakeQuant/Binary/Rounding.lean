import FakeQuant.Binary.Format

/-!
# Rounding an exact value into a format

`Binary.ofRat` gives the number of a format that is nearest to a rational number; of two equally
near numbers it takes the one with the even significand, and a magnitude past the largest number
becomes an infinity. All arithmetic computes an exact rational number first and comes through this
one function.

`roundHalfEven` is the same rule on the integers, and `floorLog2` finds the binade of a magnitude.
-/

namespace FakeQuant

/-- The integer nearest to `q`; a half goes to the even neighbour. -/
def roundHalfEven (q : Rat) : Int :=
  let below := q.floor
  let rest := q - below
  if 2 * rest < 1 then below
  else if 1 < 2 * rest then below + 1
  else if below % 2 = 0 then below
  else below + 1

/-- The largest `k` with `2 ^ k ≤ q`, for a positive `q`. The lengths of numerator and denominator
leave two candidates. -/
def floorLog2 (q : Rat) : Int :=
  let upper : Int := (q.num.natAbs.log2 : Int) - (q.den.log2 : Int)
  if (2 : Rat) ^ upper ≤ q then upper else upper - 1

namespace Binary

variable {f : Format}

/-- The number of the given sign whose magnitude is nearest to a positive `magnitude`. The last
place of the result has the weight that puts the leading bit of the magnitude first, or the least
weight of the format; a significand that rounds up to the next power of two moves one binade up. -/
def ofMagnitude (negative : Bool) (magnitude : Rat) : Binary f :=
  let exponent := max f.minExponent (floorLog2 magnitude - (f.precision - 1))
  let significand := (roundHalfEven (magnitude / (2 : Rat) ^ exponent)).toNat
  if significand = f.limit then ofParts negative f.normalStart (exponent + 1)
  else ofParts negative significand exponent

/-- The number nearest to `q`, with ties to the even significand. An exact zero takes the given
sign; any other result keeps the sign of `q`, also when it rounds to zero. -/
def ofRat (zeroNegative : Bool) (q : Rat) : Binary f :=
  if q < 0 then ofMagnitude true (-q)
  else if 0 < q then ofMagnitude false q
  else zero zeroNegative

/-- The number nearest to an integer. -/
def ofInt (z : Int) : Binary f :=
  ofRat false z

instance (n : Nat) : OfNat (Binary f) n := ⟨ofInt n⟩

theorem zero_eq : (0 : Binary f) = zero false :=
  rfl

/-- The nearest number of another format. -/
def convert {g : Format} : Binary f → Binary g
  | nan => nan
  | infinity negative => infinity negative
  | x@(finite negative ..) => ofRat negative x.value

end Binary

end FakeQuant
