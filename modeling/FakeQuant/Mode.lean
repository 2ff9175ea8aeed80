import FakeQuant.Binary.Arithmetic
import FakeQuant.Decimal.Layout

/-!
# Operating modes and gradient scaling

A mode says what a forward pass does with the observer's proposal and with its output:

| mode                | copies the proposal | output                         |
|---------------------|---------------------|--------------------------------|
| `disabled`          | no                  | the input                      |
| `staticObservation` | yes                 | the input                      |
| `staticEstimate`    | yes                 | fake-quantized                 |
| `learning`          | no                  | fake-quantized, with gradients |

`GradientScaling.factor` is the number that the parameter gradients are multiplied by.
-/

namespace FakeQuant

/-- What a forward pass does. -/
inductive Mode where
  | disabled
  | staticObservation
  | staticEstimate
  | learning
deriving DecidableEq, Repr

namespace Mode

/-- Whether the observer's proposal replaces scale and zero point. -/
def copiesParameters : Mode → Bool
  | staticObservation | staticEstimate => true
  | disabled | learning => false

/-- Whether the output is fake-quantized. -/
def quantizes : Mode → Bool
  | staticEstimate | learning => true
  | disabled | staticObservation => false

/-- Whether scale and zero point receive gradients. -/
def isLearning : Mode → Bool
  | learning => true
  | disabled | staticObservation | staticEstimate => false

/-- The serialized name. -/
def name : Mode → String
  | disabled => "disabled"
  | staticObservation => "static_observation"
  | staticEstimate => "static_estimate"
  | learning => "learning"

/-- The name in descriptions of a quantizer. -/
def label : Mode → String
  | disabled => "Disabled"
  | staticObservation => "StaticObservation"
  | staticEstimate => "StaticEstimate"
  | learning => "Learning"

/-- All modes, by increasing involvement. -/
def all : List Mode :=
  [disabled, staticObservation, staticEstimate, learning]

/-- The mode with a serialized name. -/
def ofName? (name : String) : Option Mode :=
  all.find? fun m => m.name == name

theorem ofName?_name (m : Mode) : ofName? m.name = some m := by
  cases m <;> rfl

end Mode

/-- What the gradients of scale and zero point are multiplied by. -/
inductive GradientScaling where
  /-- One. -/
  | disabled
  /-- A chosen number. -/
  | fixed (factor : Single)
  /-- The inverse root of the number of elements times the upper bound of the grid. -/
  | elementCount
deriving DecidableEq

namespace GradientScaling

/-- The factor for an input with `elements` elements on a grid that ends at `high`. It is computed
in double precision and then rounded to single; without a positive product it is one. -/
def factor (elements : Nat) (high : Int32) : GradientScaling → Single
  | disabled => 1
  | fixed factor => factor
  | elementCount =>
    let product : Double := Binary.ofInt elements * Binary.ofInt high.toInt
    if 0 < product then (1 / product.sqrt).convert else 1

/-- The scaling without a number that has the given name. -/
def ofName? (name : String) : Option GradientScaling :=
  if name = "disabled" then some disabled
  else if name = "element_count" then some elementCount
  else none

/-- The scaling in descriptions of a quantizer. -/
def label : GradientScaling → String
  | disabled => "Disabled"
  | fixed factor => "Fixed(" ++ Layout.description.text factor ++ ")"
  | elementCount => "ElementCount"

end GradientScaling

end FakeQuant
