import FakeQuant.Decimal.Shortest

/-!
# Layouts of number text

A `Layout` holds the decisions that differ between the texts this library writes: which numbers are
written with an exponent and how, whether a whole number keeps a point, which of two equally near
digit strings is taken, and the names of the values that are no finite numbers. `Layout.chars`
writes a number with its shortest digits under such a layout. Messages and descriptions have a
layout each; those of the documents stand with their readers.
-/

namespace FakeQuant

/-- How numbers are written. -/
structure Layout where
  /-- The places of the decimal point that are written without an exponent; with none given, all. -/
  positional : Option (Int × Int)
  /-- Whether a whole number without exponent ends in a point and a zero. -/
  keepsPoint : Bool
  /-- Whether a positive exponent has a sign. -/
  signsExponent : Bool
  /-- Which of two equally near digit strings is taken. -/
  tie : Tie
  /-- The name of the not-a-number value. -/
  nan : String
  /-- The name of the positive infinity. -/
  infinity : String
  /-- The name of the negative infinity. -/
  negativeInfinity : String

/-- Numbers inside messages: never an exponent, no point on whole numbers, and of two equally near
digit strings the larger. -/
def Layout.message : Layout where
  positional := none
  keepsPoint := false
  signsExponent := false
  tie := .up
  nan := "NaN"
  infinity := "inf"
  negativeInfinity := "-inf"

/-- Numbers in descriptions and logs: an exponent below a ten-thousandth and from ten to the
sixteenth on, and a point on whole numbers. -/
def Layout.description : Layout where
  positional := some (-3, 16)
  keepsPoint := true
  signsExponent := false
  tie := .up
  nan := "NaN"
  infinity := "inf"
  negativeInfinity := "-inf"

namespace Layout

/-- Digits with a decimal point at `point`, counted from in front of the first digit. -/
def positionalChars (l : Layout) (digits : List Char) (point : Int) : List Char :=
  if point ≤ 0 then '0' :: '.' :: (List.replicate (-point).toNat '0' ++ digits)
  else if (digits.length : Int) ≤ point then
    digits ++ List.replicate (point.toNat - digits.length) '0' ++
      (if l.keepsPoint then ['.', '0'] else [])
  else digits.take point.toNat ++ '.' :: digits.drop point.toNat

/-- The exponent mark, the sign and the digits of an exponent. -/
def exponentChars (l : Layout) (exponent : Int) : List Char :=
  let sign := if exponent < 0 then ['-'] else if l.signsExponent then ['+'] else []
  'e' :: (sign ++ Nat.toDigits 10 exponent.natAbs)

/-- Digits with a point after the first one and an exponent. -/
def scientificChars (l : Layout) (digits : List Char) (point : Int) : List Char :=
  let mantissa := if digits.length ≤ 1 then digits else digits.take 1 ++ '.' :: digits.drop 1
  mantissa ++ l.exponentChars (point - 1)

/-- Whether a point at this place is written without an exponent. -/
def isPositional (l : Layout) (point : Int) : Bool :=
  match l.positional with
  | none => true
  | some (least, greatest) => decide (least ≤ point) && decide (point ≤ greatest)

/-- A decimal without its sign. -/
def decimalChars (l : Layout) (d : Decimal) : List Char :=
  if l.isPositional d.point then l.positionalChars d.digits d.point
  else l.scientificChars d.digits d.point

/-- The text of a number: its sign, then the shortest digits that read back. Zero is the one digit
`0`. -/
def chars (l : Layout) {f : Format} : Binary f → List Char
  | .nan => l.nan.toList
  | .infinity negative => if negative then l.negativeInfinity.toList else l.infinity.toList
  | .finite negative significand exponent _ =>
    (if negative then ['-'] else []) ++
      if significand = 0 then '0' :: (if l.keepsPoint then ['.', '0'] else [])
      else l.decimalChars (shortestDecimal l.tie f significand exponent)

/-- The text of a number as a string. -/
def text (l : Layout) {f : Format} (x : Binary f) : String :=
  String.ofList (l.chars x)

end Layout

end FakeQuant
