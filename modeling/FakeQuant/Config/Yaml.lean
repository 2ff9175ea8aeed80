import FakeQuant.Config.Basic
import FakeQuant.Place
import FakeQuant.Yaml.Value

/-!
# Configurations as YAML

A configuration is written as one line for each field. A document gives any of the fields, each
once at most and in any order, and the others keep their defaults; it has no further fields.
`Config.ofYaml` reads a document and then checks the values.
-/

namespace FakeQuant

/-- Numbers in YAML: an exponent below a millionth and from ten to the thirteenth on; of two
equally near digit strings the even one. -/
def Layout.yaml : Layout where
  positional := some (-5, 13)
  keepsPoint := true
  signsExponent := false
  tie := .toEven
  nan := ".nan"
  infinity := ".inf"
  negativeInfinity := "-.inf"

/-- The fields of a configuration. -/
inductive Field where
  | quantMin
  | quantMax
  | scale
  | zeroPoint
  | channelLength
  | gradientScaling
  | mode
deriving DecidableEq, Repr

namespace Field

/-- All fields, in the order in which they are written. -/
def all : List Field :=
  [quantMin, quantMax, scale, zeroPoint, channelLength, gradientScaling, mode]

/-- The key of a field. -/
def key : Field → String
  | quantMin => "quant_min"
  | quantMax => "quant_max"
  | scale => "scale"
  | zeroPoint => "zero_point"
  | channelLength => "channel_len"
  | gradientScaling => "grad_scaling"
  | mode => "mode"

/-- The field with a key. -/
def ofKey? (key : String) : Option Field :=
  all.find? fun f => f.key == key

theorem ofKey?_key (f : Field) : ofKey? f.key = some f := by
  cases f <;> rfl

/-- A key that names a field is the key of this field. -/
theorem key_of_ofKey? {key : String} {f : Field} (h : ofKey? key = some f) : f.key = key := by
  have hfound := List.find?_some h
  exact beq_iff_eq.1 hfound

end Field

/-- A gradient scaling as YAML: its name, or a tag and its number. -/
def GradientScaling.yaml : GradientScaling → List Char
  | disabled => "disabled".toList
  | fixed factor => "!fixed ".toList ++ Layout.yaml.chars factor
  | elementCount => "element_count".toList

/-- The gradient scaling that a scalar stands for. -/
def GradientScaling.ofScalar? (s : Yaml.Scalar) : Option GradientScaling :=
  s.plainChoice? ofName? <|> (s.heldSingle? "fixed").map fixed

namespace Config

/-- The value of a field as it is written. -/
def fieldChars (c : Config) : Field → List Char
  | .quantMin => integerChars c.quantMin.toInt
  | .quantMax => integerChars c.quantMax.toInt
  | .scale => Layout.yaml.chars c.scale
  | .zeroPoint => Layout.yaml.chars c.zeroPoint
  | .channelLength =>
    match c.channelLength with
    | none => "null".toList
    | some n => integerChars n
  | .gradientScaling => c.gradientScaling.yaml
  | .mode => c.mode.name.toList

/-- The line of a field. -/
def fieldLine (c : Config) (f : Field) : List Char :=
  f.key.toList ++ ':' :: ' ' :: (c.fieldChars f ++ ['\n'])

/-- A configuration as a document. -/
def yaml (c : Config) : String :=
  String.ofList (Field.all.flatMap c.fieldLine)

/-- The configuration with the value that a scalar gives to a field. -/
def setField? (c : Config) (f : Field) (s : Yaml.Scalar) : Option Config :=
  match f with
  | .quantMin => s.int32?.map fun v => { c with quantMin := v }
  | .quantMax => s.int32?.map fun v => { c with quantMax := v }
  | .scale => s.single?.map fun v => { c with scale := v }
  | .zeroPoint => s.single?.map fun v => { c with zeroPoint := v }
  | .channelLength => s.optionalSize?.map fun v => { c with channelLength := v }
  | .gradientScaling =>
    (GradientScaling.ofScalar? s).map fun v => { c with gradientScaling := v }
  | .mode => (s.plainChoice? Mode.ofName?).map fun v => { c with mode := v }

/-- The configuration with the fields of some entries, none of which is in `seen`. -/
def setFields? (c : Config) (seen : List Field) : List (Yaml.Scalar × Yaml.Scalar) → Option Config
  | [] => some c
  | (key, value) :: rest => do
    let f ← Field.ofKey? (String.ofList key.text)
    guard (!seen.contains f)
    let c ← c.setField? f value
    c.setFields? (f :: seen) rest

/-- The configuration that a document gives, its values unchecked. -/
def ofDocument? (text : String) : Option Config := do
  let document ← Yaml.Document.read text.toList
  let entries ← document.resolve
  Config.default.setFields? [] entries

/-- The checked configuration that a document gives. -/
def ofYaml (text : String) : Except Error Config :=
  match ofDocument? text with
  | none => .error (.configuration .document)
  | some c => do
    c.validate
    return c

/-- The checked configuration of the document at a place. -/
def ofYamlFile (place : Place) : Except Error Config :=
  match place.read with
  | .error _ => .error (.configuration .file)
  | .ok text => ofYaml text

end Config

end FakeQuant
