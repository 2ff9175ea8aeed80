import FakeQuant.Json.Number
import FakeQuant.Json.Quoted

/-!
# JSON values

`value` reads a value of any kind, in which containers may be nested up to a limit. `skip` passes
over a value that does not matter, to any depth and with numbers of any size. `refuse` is what a
reader of one kind of value does when it meets another kind.
-/

namespace FakeQuant.Json

/-- A value of any kind. -/
inductive Value where
  | null
  | bool (b : Bool)
  | number (n : Number)
  | string (s : String)
  | list (items : List Value)
  | object (entries : List (String × Value))

/-- The colon behind a key. -/
def colon : Decoder Unit :=
  expect ':'

/-- The literal `null`. -/
def nullWord : Decoder Unit :=
  word ['n', 'u', 'l', 'l']

/-- The literal `true`. -/
def trueWord : Decoder Unit :=
  word ['t', 'r', 'u', 'e']

/-- The literal `false`. -/
def falseWord : Decoder Unit :=
  word ['f', 'a', 'l', 's', 'e']

/-- Whether a number can start with this character. -/
def startsNumber (c : Char) : Bool :=
  c == '-' || c.isDigit

/-- Refuses the value at hand because it is of the wrong kind. A literal, a number and a string are
read first, so that a fault inside them is reported instead; containers are not entered. -/
def refuse {α : Type} : Decoder α := do
  let c ← peek
  if c = 'n' then nullWord
  else if c = 't' then trueWord
  else if c = 'f' then falseWord
  else if startsNumber c then
    let _ ← number
  else if c = '"' then
    let _ ← string
  else if c ≠ '[' ∧ c ≠ '\x7b' then throw .malformed
  throw .mismatched

/-! ### Any value -/

/-- A value in which containers are read by `container`, from their opening bracket. -/
def valueOr (container : Char → Decoder Value) : Decoder Value := do
  let c ← peek
  if c = 'n' then
    nullWord
    return .null
  else if c = 't' then
    trueWord
    return .bool true
  else if c = 'f' then
    falseWord
    return .bool false
  else if startsNumber c then return .number (← number)
  else if c = '"' then return .string (← string)
  else container c

/-- A value in which containers nest at most `depth` times. -/
def value : (depth : Nat) → Decoder Value
  | 0 => valueOr fun _ => throw .malformed
  | depth + 1 => valueOr fun c => do
    if c = '[' then
      modify List.tail
      let items ← foldItems ']' (fun items => return (← value depth) :: items) []
      return .list items.reverse
    else if c = '\x7b' then
      modify List.tail
      let entries ← foldItems '\x7d' (fun entries => do
        let key ← string
        colon
        return (key, ← value depth) :: entries) []
      return .object entries.reverse
    else throw .malformed

/-! ### Values that do not matter -/

/-- Passes over a number. Here the end of the text is no special case, and no number is too large.
-/
def skipNumber : Decoder Unit :=
  tryCatch (do let _ ← numeral) fun _ => throw .malformed

/-- Passes over a value in which containers are passed over by `container`, from their opening
bracket. -/
def skipOr (container : Char → Decoder Unit) : Decoder Unit := do
  let c ← peek
  if c = 'n' then nullWord
  else if c = 't' then trueWord
  else if c = 'f' then falseWord
  else if startsNumber c then skipNumber
  else if c = '"' then skipString
  else container c

/-- Passes over a value in which containers nest at most `depth` times. -/
def skipNested : (depth : Nat) → Decoder Unit
  | 0 => skipOr fun _ => throw .malformed
  | depth + 1 => skipOr fun c => do
    if c = '[' then
      modify List.tail
      foldItems ']' (fun _ => skipNested depth) ()
    else if c = '\x7b' then
      modify List.tail
      foldItems '\x7d' (fun _ => do
        skipString
        colon
        skipNested depth) ()
    else throw .malformed

/-- Passes over a value. Containers nest at most as deep as the text is long. -/
def skip : Decoder Unit := do
  skipNested (← get).length

end FakeQuant.Json
