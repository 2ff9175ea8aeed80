import FakeQuant.Binary.Rounding
import FakeQuant.Decimal.Shortest

/-!
# Reading decimal numbers

A numeral is an optional sign, digits with or without a point, of which there is one at least, and
an optional exponent of ten. `Decimal.nearest` gives the nearest number of a binary format.
Exponents so large or small that the result is an infinity or a zero in any case are not worked
out.
-/

namespace FakeQuant

namespace Decimal

/-- The decimal with the given digits before and behind the point, times a power of ten. -/
def ofDigits (whole fraction : List Char) (exponent : Int) : Decimal where
  coefficient := Nat.ofDigitChars 10 (whole ++ fraction) 0
  exponent := exponent - fraction.length

/-- A sign in front of a text: whether it is a minus, and the rest. -/
def splitSign : List Char → Bool × List Char
  | '-' :: rest => (true, rest)
  | '+' :: rest => (false, rest)
  | rest => (false, rest)

/-- The exponent of ten that a text with its mark stands for. No text stands for zero. -/
def exponent? : List Char → Option Int
  | [] => some 0
  | mark :: rest =>
    let (negative, digits) := splitSign rest
    if (mark = 'e' ∨ mark = 'E') ∧ digits ≠ [] ∧ digits.all Char.isDigit then
      let magnitude : Int := Nat.ofDigitChars 10 digits 0
      some (if negative then -magnitude else magnitude)
    else none

/-- The decimal that an unsigned numeral stands for. -/
def ofUnsigned? (text : List Char) : Option Decimal :=
  let whole := text.takeWhile Char.isDigit
  let rest := text.dropWhile Char.isDigit
  let (fraction, rest) := match rest with
    | '.' :: rest => (rest.takeWhile Char.isDigit, rest.dropWhile Char.isDigit)
    | rest => ([], rest)
  if whole = [] ∧ fraction = [] then none
  else (exponent? rest).map (ofDigits whole fraction)

/-- The sign and the decimal that a numeral stands for. -/
def ofChars? (text : List Char) : Option (Bool × Decimal) :=
  let (negative, rest) := splitSign text
  (ofUnsigned? rest).map (negative, ·)

/-- The number of the format that is nearest to a signed decimal. A decimal whose first digit stands
beyond every number of the format is an infinity, and one whose first digit stands below half the
least number is a zero: a power of two has no more decimal than binary places. -/
def nearest (f : Format) (negative : Bool) (d : Decimal) : Binary f :=
  if d.coefficient = 0 then .zero negative
  else if f.maxExponent + f.precision + 1 < d.point then .infinity negative
  else if d.point < f.minExponent - 1 then .zero negative
  else .ofRat negative (if negative then -d.value else d.value)

end Decimal

end FakeQuant
