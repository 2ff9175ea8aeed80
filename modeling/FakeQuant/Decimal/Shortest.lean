import FakeQuant.Binary.Rounding

/-!
# The shortest decimal that reads back

A finite number of a format is the rounding of every rational number in an interval around it.
Among the decimals in that interval `Binary.shortestDecimal` finds one with the fewest digits, and
of those the one nearest to the number. Decimals of a given last place form a grid, and if any
point of the grid lies in the interval then one of the two neighbours of the number does, so only
these two are looked at, from the coarsest grid downwards.
-/

namespace FakeQuant

/-- The number `coefficient · 10 ^ exponent`. -/
structure Decimal where
  coefficient : Nat
  exponent : Int
deriving DecidableEq, Repr

/-- Which of two equally near decimals is taken. -/
inductive Tie where
  /-- The one with the even last digit. -/
  | toEven
  /-- The larger one. -/
  | up
deriving DecidableEq, Repr

namespace Decimal

/-- The exact value. -/
def value (d : Decimal) : Rat :=
  (d.coefficient : Rat) * (10 : Rat) ^ d.exponent

/-- The digits of the coefficient, first digit first. -/
def digits (d : Decimal) : List Char :=
  Nat.toDigits 10 d.coefficient

/-- The place of the decimal point, counted from in front of the first digit. -/
def point (d : Decimal) : Int :=
  d.digits.length + d.exponent

/-- The same number without trailing zeros, of which at most `steps` are dropped. -/
def dropZeros : (steps : Nat) → Decimal → Decimal
  | 0, d => d
  | steps + 1, d =>
    if d.coefficient % 10 = 0 then dropZeros steps ⟨d.coefficient / 10, d.exponent + 1⟩ else d

end Decimal

/-- The largest `k` with `10 ^ k ≤ q`, for a positive `q`. The digit counts of numerator and
denominator leave two candidates. -/
def floorLog10 (q : Rat) : Int :=
  let upper : Int :=
    ((Nat.toDigits 10 q.num.natAbs).length : Int) - ((Nat.toDigits 10 q.den).length : Int)
  if (10 : Rat) ^ upper ≤ q then upper else upper - 1

/-- The rational numbers that round to one number: those between two ends, which belong to them when
`closed`. -/
structure RoundingInterval where
  lower : Rat
  upper : Rat
  closed : Bool

namespace RoundingInterval

/-- Membership. -/
def contains (i : RoundingInterval) (q : Rat) : Bool :=
  if i.closed then decide (i.lower ≤ q) && decide (q ≤ i.upper)
  else decide (i.lower < q) && decide (q < i.upper)

/-- What rounds to the positive number `significand · 2 ^ exponent`: half a unit in the last place
to either side, except that the neighbour below a power of two is half as far away. The ends round
to the even significand. -/
def around (f : Format) (significand : Nat) (exponent : Int) : RoundingInterval :=
  let unit : Rat := (2 : Rat) ^ exponent
  let q : Rat := significand * unit
  let below : Rat :=
    if significand = f.normalStart ∧ f.minExponent < exponent then unit / 4 else unit / 2
  { lower := q - below, upper := q + unit / 2, closed := significand % 2 == 0 }

end RoundingInterval

/-- The coefficient of a decimal with the given last place that lies in the interval and is nearest
to `q`, if there is one. -/
def nearestCoefficient? (tie : Tie) (i : RoundingInterval) (q : Rat) (exponent : Int) :
    Option Nat :=
  let unit : Rat := (10 : Rat) ^ exponent
  let below := (q / unit).floor.toNat
  let above := below + 1
  if i.contains (below * unit) then
    if i.contains (above * unit) then
      let rest := 2 * (q / unit - below)
      if rest < 1 then some below
      else if 1 < rest then some above
      else match tie with
        | .up => some above
        | .toEven => if below % 2 = 0 then some below else some above
    else some below
  else if i.contains (above * unit) then some above
  else none

/-- The first decimal that `nearestCoefficient?` finds, going down from a last place. -/
def searchDecimal (tie : Tie) (i : RoundingInterval) (q : Rat) : (steps : Nat) → Int → Decimal
  | 0, exponent => ⟨(q / (10 : Rat) ^ exponent).floor.toNat, exponent⟩
  | steps + 1, exponent =>
    match nearestCoefficient? tie i q exponent with
    | some coefficient => ⟨coefficient, exponent⟩
    | none => searchDecimal tie i q steps (exponent - 1)

/-- The decimal with the fewest digits among those that round to the positive number
`significand · 2 ^ exponent` of the format, and the nearest of them. A number has at most as many
decimal digits as bits, which bounds the search. -/
def shortestDecimal (tie : Tie) (f : Format) (significand : Nat) (exponent : Int) : Decimal :=
  let q : Rat := (significand : Rat) * (2 : Rat) ^ exponent
  let found :=
    searchDecimal tie (RoundingInterval.around f significand exponent) q f.precision (floorLog10 q)
  found.dropZeros f.precision

end FakeQuant
