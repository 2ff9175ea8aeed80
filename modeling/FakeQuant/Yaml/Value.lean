import FakeQuant.Decimal.Reading
import FakeQuant.Yaml.Anchor

/-!
# What scalars mean

Numbers are plain scalars; a literal block also holds a number if its tag says so. Integers are
decimal without leading zeros, or hexadecimal, octal or binary with a mark in front. Other numbers
are decimal, or one of the names of the infinities and of the not-a-number value.

An alternative is chosen by the text of a scalar, or by a tag of the document's own, in which case
the scalar holds what belongs to the alternative.
-/

namespace FakeQuant.Yaml

namespace Scalar

/-- Whether the text is one of those for nothing. -/
def isNullText (s : Scalar) : Bool :=
  ["null", "Null", "NULL", "~"].contains (String.ofList s.text)

/-- Whether the scalar can hold a number of the standard type. -/
def canHold (s : Scalar) (type : String) : Bool :=
  s.style == .plain || (s.style == .literal && s.tag == some (Tag.standard type))

/-! ### Integers -/

/-- An unsigned integer. A zero in front of other digits is refused. -/
def magnitude? : List Char → Option Nat
  | '0' :: 'x' :: digits => naturalIn? 16 digits
  | '0' :: 'o' :: digits => naturalIn? 8 digits
  | '0' :: 'b' :: digits => naturalIn? 2 digits
  | '0' :: _ :: _ => none
  | digits => naturalIn? 10 digits

/-- An integer with an optional sign. -/
def integerOf? : List Char → Option Int
  | '-' :: rest => (magnitude? rest).map fun n => -(n : Int)
  | '+' :: rest => (magnitude? rest).map fun n => (n : Int)
  | rest => (magnitude? rest).map fun n => (n : Int)

/-- An integer from zero on, with an optional plus sign. -/
def naturalOf? : List Char → Option Nat
  | '+' :: rest => magnitude? rest
  | rest => magnitude? rest

/-- An integer of 32 bits. -/
def int32? (s : Scalar) : Option Int32 := do
  guard (s.canHold "int")
  let z ← integerOf? s.text
  guard (Int32.minValue.toInt ≤ z ∧ z ≤ Int32.maxValue.toInt)
  return Int32.ofInt z

/-- The number of different sizes. -/
def sizeLimit : Nat := Nat.pow 2 64

/-- A size, which has 64 bits. -/
def size? (s : Scalar) : Option Nat := do
  guard (s.canHold "int")
  let n ← naturalOf? s.text
  guard (n < sizeLimit)
  return n

/-- A size, or nothing. A plain scalar is nothing if it is empty or its text says so; with a tag it
has to be the tag of nothing. -/
def optionalSize? (s : Scalar) : Option (Option Nat) :=
  match s.style, s.tag with
  | .plain, none => if s.text.isEmpty || s.isNullText then some none else s.size?.map some
  | .plain, some tag =>
    if tag = Tag.standard "null" then if s.isNullText then some none else none
    else s.size?.map some
  | _, _ => s.size?.map some

/-! ### Other numbers -/

/-- The numbers that have names. -/
def namedNumber? (text : List Char) : Option Double :=
  let name := String.ofList text
  if [".inf", ".Inf", ".INF", "+.inf", "+.Inf", "+.INF"].contains name then some (.infinity false)
  else if ["-.inf", "-.Inf", "-.INF"].contains name then some (.infinity true)
  else if [".nan", ".NaN", ".NAN"].contains name then some .nan
  else none

/-- A number that is written in digits, if a double can hold it. -/
def writtenNumber? (text : List Char) : Option Double := do
  let (negative, d) ← Decimal.ofChars? text
  let x := d.nearest .double negative
  guard x.isFinite
  return x

/-- A number in single precision, rounded to double precision first. -/
def single? (s : Scalar) : Option Single := do
  guard (s.canHold "float")
  let x ← namedNumber? s.text <|> writtenNumber? s.text
  return x.convert

/-! ### Alternatives -/

/-- The name of the chosen alternative, and whether a tag names it. -/
def chosen (s : Scalar) : String × Bool :=
  match s.tag.bind Tag.ownName? with
  | some name => (name, true)
  | none => (String.ofList s.text, false)

/-- Whether the scalar holds nothing besides its tag. -/
def holdsNothing (s : Scalar) : Bool :=
  s.style == .plain && (s.text.isEmpty || s.isNullText)

/-- The alternative without contents that the scalar chooses. -/
def plainChoice? {α : Type} (s : Scalar) (ofName? : String → Option α) : Option α := do
  let (name, byTag) := s.chosen
  guard (!byTag || s.holdsNothing)
  ofName? name

/-- The number that the scalar gives to the alternative of this name, which only a tag can choose.
-/
def heldSingle? (s : Scalar) (name : String) : Option Single := do
  guard (s.chosen = (name, true) ∧ s.style = .plain)
  s.single?

end Scalar

end FakeQuant.Yaml
