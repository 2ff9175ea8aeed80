import FakeQuant.Text.Shapeless

/-!
# Text of integers, lists and quoted strings

Decimal integers, bracketed lists, and strings in double quotes as they stand in messages: a quote,
a backslash and the usual blanks are escaped by a backslash, other characters without a shape of
their own by their number.

Natural numbers are also read in other bases up to sixteen (`naturalIn?`). Decimal ones are read by
`Nat.ofDigitChars 10`, which takes any digits.
-/

namespace FakeQuant

/-- The decimal digits of an integer behind its sign. -/
def integerChars (z : Int) : List Char :=
  if z < 0 then '-' :: Nat.toDigits 10 z.natAbs else Nat.toDigits 10 z.natAbs

/-- The decimal text of an integer. -/
def integerText (z : Int) : String :=
  String.ofList (integerChars z)

/-- The items in square brackets, separated by commas. -/
def bracketed (items : List String) : String :=
  "[" ++ String.intercalate ", " items ++ "]"

/-- A list of natural numbers in brackets. -/
def naturalsText (ns : List Nat) : String :=
  bracketed (ns.map fun n : Nat => integerText n)

/-- One character inside double quotes. -/
def quotedChar (c : Char) : List Char :=
  if c = '"' then ['\\', '"']
  else if c = '\\' then ['\\', '\\']
  else if c = '\n' then ['\\', 'n']
  else if c = '\r' then ['\\', 'r']
  else if c = '\t' then ['\\', 't']
  else if c.toNat = 0 then ['\\', '0']
  else if isShapeless c then ['\\', 'u', '\x7b'] ++ Nat.toDigits 16 c.toNat ++ ['\x7d']
  else [c]

/-- A string in double quotes. -/
def quoted (s : String) : String :=
  String.ofList ('"' :: (s.toList.flatMap quotedChar ++ ['"']))

/-! ### Digits of other bases -/

/-- The value of a hexadecimal digit. -/
def hexDigit? (c : Char) : Option Nat :=
  if '0' ≤ c ∧ c ≤ '9' then some (c.toNat - '0'.toNat)
  else if 'a' ≤ c ∧ c ≤ 'f' then some (c.toNat - 'a'.toNat + 10)
  else if 'A' ≤ c ∧ c ≤ 'F' then some (c.toNat - 'A'.toNat + 10)
  else none

/-- The value of a digit of a base. -/
def digitIn? (base : Nat) (c : Char) : Option Nat :=
  (hexDigit? c).filter (· < base)

/-- The natural number that some digits of a base stand for. There must be one digit at least. -/
def naturalIn? (base : Nat) (digits : List Char) : Option Nat :=
  if digits.isEmpty then none
  else digits.foldlM (fun n c => (digitIn? base c).map (base * n + ·)) 0

end FakeQuant
