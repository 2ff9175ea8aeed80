import FakeQuant.Grid
import FakeQuant.Json.Kind
import FakeQuant.Mode
import FakeQuant.Observer

/-!
# JSON forms

How grids, storage types, schemes, modes, gradient scalings and parameters are written as JSON, and
how they are read. Writing is compact, except for parameters, which have one value on each line. A
number that is not finite is written as `null`.
-/

namespace FakeQuant

/-- Numbers in JSON: an exponent below a millionth and from ten to the thirteenth on, with its sign;
of two equally near digit strings the even one. -/
def Layout.json : Layout where
  positional := some (-5, 13)
  keepsPoint := true
  signsExponent := true
  tie := .toEven
  nan := "null"
  infinity := "null"
  negativeInfinity := "null"

namespace Json

/-- Characters in double quotes. -/
def inQuotes (s : String) : List Char :=
  '"' :: (s.toList ++ ['"'])

/-- A list of written values with commas between. -/
def separated : List (List Char) → List Char
  | [] => []
  | [item] => item
  | item :: rest => item ++ ',' :: separated rest

/-- A compact object with the given keys and written values. -/
def objectChars (entries : List (String × List Char)) : List Char :=
  '\x7b' :: (separated (entries.map fun (key, item) => inQuotes key ++ ':' :: item) ++ ['\x7d'])

/-- A line break and blanks that set the next line in by `steps`. -/
def newline (steps : Nat) : List Char :=
  '\n' :: List.replicate (2 * steps) ' '

/-- A list or object over several lines, set in by `steps` inside; an empty one keeps its brackets
together. -/
def spread (opening closing : Char) (steps : Nat) (items : List (List Char)) : List Char :=
  if items.isEmpty then [opening, closing]
  else opening :: (separated (items.map (newline (steps + 1) ++ ·)) ++ newline steps ++ [closing])

/-- A list of numbers over several lines. -/
def numbersChars (steps : Nat) (xs : List Single) : List Char :=
  spread '[' ']' steps (xs.map Layout.json.chars)

end Json

/-! ### Grids -/

/-- A grid as an object with its bounds. -/
def Grid.json (g : Grid) : List Char :=
  Json.objectChars [("qmin", integerChars g.low.toInt), ("qmax", integerChars g.high.toInt)]

/-- Reads a grid. Bounds that are out of order are refused where the value ends. -/
def Grid.decoder : Json.Decoder Grid := do
  let (low, high) ← Json.pair "qmin" "qmax" Json.int32
  match Grid.ofBounds low high with
  | .ok g => return g
  | .error _ => throw .mismatched

/-! ### Storage types, modes and gradient scalings -/

/-- A storage type as its name. -/
def Dtype.json (d : Dtype) : List Char :=
  Json.inQuotes d.name

/-- Reads a storage type. -/
def Dtype.decoder : Json.Decoder Dtype :=
  Json.choice ofName? fun _ => none

/-- A mode as its name. -/
def Mode.json (m : Mode) : List Char :=
  Json.inQuotes m.name

/-- Reads a mode. -/
def Mode.decoder : Json.Decoder Mode :=
  Json.choice ofName? fun _ => none

namespace GradientScaling

/-- A scaling as its name, or as an object with its factor. -/
def json : GradientScaling → List Char
  | disabled => Json.inQuotes "disabled"
  | fixed factor => Json.objectChars [("fixed", Layout.json.chars factor)]
  | elementCount => Json.inQuotes "element_count"

/-- Reads a scaling. -/
def decoder : Json.Decoder GradientScaling :=
  Json.choice ofName? fun key => if key = "fixed" then some fixed else none

end GradientScaling

/-! ### Schemes -/

namespace Scheme

/-- The name of the kind of scheme. -/
def kindName : Scheme → String
  | perTensorAffine => "per_tensor_affine"
  | perTensorSymmetric => "per_tensor_symmetric"
  | perChannelAffine _ => "per_channel_affine"
  | perChannelSymmetric _ => "per_channel_symmetric"

/-- A scheme as an object with its kind and, if it has one, its axis. -/
def json (s : Scheme) : List Char :=
  Json.objectChars (("kind", Json.inQuotes s.kindName) ::
    match s.axis? with
    | none => []
    | some axis => [("axis", integerChars axis)])

/-- A kind of scheme: complete, or in want of an axis. -/
inductive Kind where
  | complete (s : Scheme)
  | channel (withAxis : Nat → Scheme)

/-- The kind with a name. -/
def Kind.ofName? (name : String) : Option Kind :=
  if name = "per_tensor_affine" then some (complete perTensorAffine)
  else if name = "per_tensor_symmetric" then some (complete perTensorSymmetric)
  else if name = "per_channel_affine" then some (channel perChannelAffine)
  else if name = "per_channel_symmetric" then some (channel perChannelSymmetric)
  else none

/-- Reads the name of a kind. -/
def Kind.decoder : Json.Decoder Kind := do
  match Kind.ofName? (← Json.name) with
  | some kind => return kind
  | none => throw .mismatched

/-- How deep containers may nest inside a scheme. -/
def maxDepth : Nat := 126

/-- An axis among the values of a scheme: an integer from zero on. -/
def axisOf : Json.Value → Except Json.Fault Nat
  | .number (.integer z) => if 0 ≤ z then .ok z.toNat else .error .mismatched
  | _ => .error .mismatched

/-- The scheme of a kind with the other entries of its object. Only a kind in want of an axis looks
at them, and it takes exactly one. -/
def ofEntries (kind : Kind) (entries : List (String × Json.Value)) : Except Json.Fault Scheme :=
  match kind with
  | .complete s => .ok s
  | .channel withAxis =>
    match entries.filter fun entry => entry.1 == "axis" with
    | [(_, value)] => withAxis <$> axisOf value
    | _ => .error .mismatched

/-- The scheme of a kind with the values behind it in a list, none of which may be left over. -/
def ofItems (kind : Kind) (items : List Json.Value) : Except Json.Fault Scheme :=
  match kind, items with
  | .complete s, [] => .ok s
  | .channel withAxis, [value] => withAxis <$> axisOf value
  | _, _ => .error .mismatched

/-- One more entry of a scheme's object. A second kind is refused before its value is read. -/
def entry (found : Option Kind × List (String × Json.Value)) :
    Json.Decoder (Option Kind × List (String × Json.Value)) := do
  let key ← Json.string
  if key = "kind" then
    if found.1.isSome then throw .mismatched
    Json.colon
    return (some (← Kind.decoder), found.2)
  else
    Json.colon
    return (found.1, (key, ← Json.value maxDepth) :: found.2)

/-- Reads a scheme: an object whose entries stand in any order, or a list with the kind in front. -/
def decoder : Json.Decoder Scheme := do
  let c ← Json.peek
  if c = '\x7b' then
    modify List.tail
    match ← Json.foldItems '\x7d' entry (none, []) with
    | (some kind, entries) => ofEntries kind entries
    | (none, _) => throw .mismatched
  else if c = '[' then
    modify List.tail
    if (← Json.peek) = ']' then throw .mismatched
    let kind ← Kind.decoder
    let items ← Json.foldRest ']' (fun items => return (← Json.value maxDepth) :: items)
      ((← get).length + 1) []
    ofItems kind items
  else Json.refuse

end Scheme

/-! ### Parameters -/

/-- Scales and zero points as an object over several lines. -/
def Parameters.json (p : Parameters) : List Char :=
  Json.spread '\x7b' '\x7d' 0
    [Json.inQuotes "scale" ++ ':' :: ' ' :: Json.numbersChars 1 p.scale.values,
     Json.inQuotes "zero_point" ++ ':' :: ' ' :: Json.numbersChars 1 p.zeroPoint.values]

/-- Reads scales and zero points into rows of their own. -/
def Parameters.decoder : Json.Decoder Parameters := do
  let (scale, zeroPoint) ← Json.pair "scale" "zero_point" (Json.list Json.single)
  return { scale := .ofList scale, zeroPoint := .ofList zeroPoint }

end FakeQuant
