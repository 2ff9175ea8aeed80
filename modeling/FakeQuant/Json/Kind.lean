import FakeQuant.Json.Value

/-!
# Decoders of particular kinds of values

Integers, single-precision numbers, names, lists, records of two like fields, and choices between
named alternatives. Each refuses values of other kinds. A record is an object with its fields in
any order, where unknown fields are passed over, or a list of its fields in their own order. A
choice is the name of an alternative as a string, or an object with that name as its only key;
alternatives without contents have `null` there.
-/

namespace FakeQuant.Json

/-- An integer of 32 bits. -/
def int32 : Decoder Int32 := do
  if startsNumber (← peek) then
    match ← number with
    | .integer z =>
      if Int32.minValue.toInt ≤ z ∧ z ≤ Int32.maxValue.toInt then return Int32.ofInt z
      else throw .mismatched
    | .float _ => throw .mismatched
  else refuse

/-- The single-precision number that a number stands for. An integer is rounded once, any other
number first to double precision. -/
def Number.single : Number → Single
  | integer z => Binary.ofInt z
  | float x => x.convert

/-- A number in single precision. -/
def single : Decoder Single := do
  if startsNumber (← peek) then return (← number).single else refuse

/-- A string where another kind of value could stand. -/
def name : Decoder String := do
  if (← peek) = '"' then string else refuse

/-- A list of items of one kind. -/
def list {α : Type} (item : Decoder α) : Decoder (List α) := do
  if (← peek) = '[' then
    modify List.tail
    let items ← foldItems ']' (fun items => return (← item) :: items) []
    return items.reverse
  else refuse

/-! ### Records of two like fields -/

/-- One more entry of a record with the fields `first` and `second`. A repeated field is refused
before its value is read. -/
def pairEntry {α : Type} (first second : String) (item : Decoder α)
    (found : Option α × Option α) : Decoder (Option α × Option α) := do
  let key ← string
  if key = first then
    if found.1.isSome then throw .mismatched
    colon
    return (some (← item), found.2)
  else if key = second then
    if found.2.isSome then throw .mismatched
    colon
    return (found.1, some (← item))
  else
    colon
    skip
    return found

/-- A record with the fields `first` and `second`, or a list of the two. -/
def pair {α : Type} (first second : String) (item : Decoder α) : Decoder (α × α) := do
  let c ← peek
  if c = '\x7b' then
    modify List.tail
    match ← foldItems '\x7d' (pairEntry first second item) (none, none) with
    | (some a, some b) => return (a, b)
    | _ => throw .mismatched
  else if c = '[' then
    modify List.tail
    if (← peek) = ']' then throw .mismatched
    let a ← item
    if (← peek) = ']' then throw .mismatched
    expect ','
    let b ← item
    expect ']'
    return (a, b)
  else refuse

/-! ### Choices -/

/-- One of some alternatives without contents, found by `plain?`, and alternatives that hold a
number, found by `holding?`. -/
def choice {α : Type} (plain? : String → Option α) (holding? : String → Option (Single → α)) :
    Decoder α := do
  let c ← peek
  if c = '"' then
    match plain? (← string) with
    | some a => return a
    | none => throw .mismatched
  else if c = '\x7b' then
    modify List.tail
    let key ← name
    match plain? key, holding? key with
    | some a, _ =>
      colon
      if (← peek) = 'n' then nullWord else refuse
      expect '\x7d'
      return a
    | none, some f =>
      colon
      let x ← single
      expect '\x7d'
      return f x
    | none, none => throw .mismatched
  else throw .malformed

end FakeQuant.Json
