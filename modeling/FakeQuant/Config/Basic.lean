import FakeQuant.Grid
import FakeQuant.Mode

/-!
# Quantizer configurations

A `Config` is what a quantizer is built from. The default one describes an unsigned eight-bit
whole-tensor quantizer. `Config.validate` reports the first of these that is not so: the bounds are
in order, there is at least one channel if a number of channels is given, the initial scale is
finite and positive, a fixed gradient factor is finite.
-/

namespace FakeQuant

/-- What a quantizer is built from. -/
structure Config where
  quantMin : Int32
  quantMax : Int32
  /-- The initial scale of every channel. -/
  scale : Single
  /-- The initial zero point of every channel. -/
  zeroPoint : Single
  /-- The number of channels, if there are several parameters. -/
  channelLength : Option Nat
  gradientScaling : GradientScaling
  mode : Mode
deriving DecidableEq

namespace Config

/-- Eight unsigned bits, scale one, zero point zero. -/
def default : Config where
  quantMin := 0
  quantMax := 255
  scale := 1
  zeroPoint := 0
  channelLength := none
  gradientScaling := .disabled
  mode := .staticEstimate

/-- The grid between the bounds. -/
def grid (c : Config) : Except Error Grid :=
  Grid.ofBounds c.quantMin c.quantMax

/-- Succeeds when a number of channels, if given, is positive. -/
def checkChannelLength (c : Config) : Except Error Unit :=
  if c.channelLength = some 0 then .error (.invalidChannelLength 0) else .ok ()

/-- Succeeds when the scale is finite and positive. -/
def checkScale (c : Config) : Except Error Unit :=
  if c.scale.isFinite = true ∧ 0 < c.scale then .ok () else .error (.configuration (.scale c.scale))

/-- Succeeds when a fixed gradient factor is finite. -/
def checkGradientScaling (c : Config) : Except Error Unit :=
  match c.gradientScaling with
  | .fixed factor =>
    if factor.isFinite then .ok () else .error (.configuration (.gradientFactor factor))
  | .disabled | .elementCount => .ok ()

/-- The checks that need no observer, in order. -/
def validate (c : Config) : Except Error Unit := do
  let _ ← c.grid
  c.checkChannelLength
  c.checkScale
  c.checkGradientScaling

/-- Whether two scalings are the same with equal numbers. -/
def sameScaling : GradientScaling → GradientScaling → Bool
  | .disabled, .disabled | .elementCount, .elementCount => true
  | .fixed a, .fixed b => a.numEq b
  | _, _ => false

/-- Whether two configurations agree, their numbers compared as numbers: zeros are equal, and a
field without value agrees with nothing. -/
def agrees (c d : Config) : Bool :=
  c.quantMin == d.quantMin && c.quantMax == d.quantMax && c.scale.numEq d.scale &&
    c.zeroPoint.numEq d.zeroPoint && c.channelLength == d.channelLength &&
    sameScaling c.gradientScaling d.gradientScaling && c.mode == d.mode

end Config

end FakeQuant
