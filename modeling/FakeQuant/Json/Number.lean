import FakeQuant.Binary.Arithmetic
import FakeQuant.Json.Decoder

/-!
# JSON numbers

A `Numeral` is a number as it is written. `Numeral.value` gives it a meaning: an integer of 64 bits
if it is written as one, and otherwise a double. The double is found by scaling: as many digits as
fit into 64 bits make a coefficient, which is multiplied or divided by a rounded power of ten. Such
a result can differ in the last places from the double nearest to the written number; a number past
the largest double is a fault.
-/

namespace FakeQuant.Json

/-- A number as it is written. -/
structure Numeral where
  negative : Bool
  whole : List Char
  /-- The digits behind the point, if there is one. -/
  fraction : Option (List Char)
  /-- Whether the exponent is negative, and its digits. -/
  exponent : Option (Bool × List Char)
deriving DecidableEq, Repr

/-- What a number means. -/
inductive Number where
  | integer (z : Int)
  | float (x : Double)
deriving DecidableEq

/-! ### Reading -/

/-- The digits in front, of which there must be one. -/
def someDigits : Decoder (List Char) := do
  let first ← next
  if first.isDigit then return first :: (← takeWhile Char.isDigit) else throw .malformed

/-- The digits in front of the point: a zero stands alone. -/
def wholeDigits : Decoder (List Char) := do
  let digits ← someDigits
  match digits with
  | '0' :: _ :: _ => throw .malformed
  | _ => return digits

/-- The point and the digits behind it, if there is a point. -/
def fractionDigits : Decoder (Option (List Char)) := do
  match ← get with
  | '.' :: rest => set rest; some <$> someDigits
  | _ => return none

/-- The sign of an exponent, if there is one, and its digits. -/
def signedDigits : Decoder (Bool × List Char) := do
  match ← get with
  | '-' :: rest => set rest; return (true, ← someDigits)
  | '+' :: rest => set rest; return (false, ← someDigits)
  | _ => return (false, ← someDigits)

/-- The mark of an exponent and what belongs to it, if there is a mark. -/
def exponentDigits : Decoder (Option (Bool × List Char)) := do
  match ← get with
  | 'e' :: rest | 'E' :: rest => set rest; some <$> signedDigits
  | _ => return none

/-- A number at the front of the text. -/
def numeral : Decoder Numeral := do
  let negative ← do
    match ← get with
    | '-' :: rest => set rest; pure true
    | _ => pure false
  let whole ← wholeDigits
  let fraction ← fractionDigits
  let exponent ← exponentDigits
  return { negative, whole, fraction, exponent }

/-! ### Meaning -/

/-- Coefficients stay below this limit. -/
def coefficientLimit : Nat := Nat.pow 2 64

/-- The coefficient with digits appended while it stays below the limit, and how many were left
over. -/
def gather : (coefficient : Nat) → (digits : List Char) → Nat × Nat
  | coefficient, [] => (coefficient, 0)
  | coefficient, d :: rest =>
    let longer := 10 * coefficient + (d.toNat - '0'.toNat)
    if longer < coefficientLimit then gather longer rest else (coefficient, rest.length + 1)

/-- The largest exponent of ten that a double can hold. -/
def maxTenExponent : Nat := 308

/-- The double nearest to a power of ten. -/
def powerOfTen (k : Nat) : Double :=
  Binary.ofRat false ((10 : Rat) ^ (k : Int))

/-- A double divided `steps` times by the largest power of ten, and then by `10 ^ last`. A zero
stays as it is. -/
def dividedInSteps (last : Nat) : (steps : Nat) → Double → Double
  | 0, x => x / powerOfTen last
  | steps + 1, x =>
    if x.value = 0 then x else dividedInSteps last steps (x / powerOfTen maxTenExponent)

/-- A double divided by a power of ten, in steps if the power is past the largest double. -/
def dividedByTens (x : Double) (k : Nat) : Double :=
  let steps := (k - 1) / maxTenExponent
  dividedInSteps (k - maxTenExponent * steps) steps x

/-- A double multiplied by a power of ten, if the result is finite. -/
def multipliedByTens (x : Double) (k : Nat) : Except Fault Double :=
  if k ≤ maxTenExponent then
    let product := x * powerOfTen k
    if product.isFinite then .ok product else .error .malformed
  else if x.value = 0 then .ok x
  else .error .malformed

/-- The double that a coefficient and an exponent of ten are read as. -/
def scaled (coefficient : Nat) (exponent : Int) : Except Fault Double :=
  if 0 ≤ exponent then multipliedByTens (Binary.ofInt coefficient) exponent.toNat
  else .ok (dividedByTens (Binary.ofInt coefficient) (-exponent).toNat)

namespace Numeral

/-- The coefficient that the digits make and the exponent of ten that goes with it. -/
def parts (n : Numeral) : Nat × Int :=
  let (coefficient, dropped) := gather 0 n.whole
  let fraction := n.fraction.getD []
  let (coefficient, unread) := gather coefficient fraction
  let exponent : Int := match n.exponent with
    | none => 0
    | some (negative, digits) =>
      let magnitude : Int := Nat.ofDigitChars 10 digits 0
      if negative then -magnitude else magnitude
  (coefficient, exponent + dropped - ((fraction.length : Int) - unread))

/-- The double that the number is read as. -/
def double (n : Numeral) : Except Fault Double := do
  let (coefficient, exponent) := n.parts
  let magnitude ← scaled coefficient exponent
  return if n.negative then -magnitude else magnitude

/-- Whether the number is written without point and exponent. -/
def isPlain (n : Numeral) : Bool :=
  n.fraction.isNone && n.exponent.isNone

/-- What the number means. A plain number that fits 64 bits, unsigned or with a minus sign, is an
integer, except that a negative zero is a double. -/
def value (n : Numeral) : Except Fault Number := do
  let (coefficient, dropped) := gather 0 n.whole
  if n.isPlain ∧ dropped = 0 then
    if n.negative = false then return .integer coefficient
    else if 0 < coefficient ∧ coefficient ≤ coefficientLimit / 2 then return .integer (-coefficient)
  return .float (← n.double)

end Numeral

/-- A number at the front of the text with its meaning. -/
def number : Decoder Number := do
  (← numeral).value

end FakeQuant.Json
