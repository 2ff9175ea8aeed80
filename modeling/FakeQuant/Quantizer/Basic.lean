import FakeQuant.Config.Basic
import FakeQuant.Kernel.Gradient
import FakeQuant.Observer

/-!
# Quantizers

A quantizer owns scales and zero points, as many as its scheme has channels, and an observer that
proposes new ones. `Quantizer.ofConfig` builds one if the configuration is valid, its grid fits the
observer's storage type, and it gives a number of channels exactly when the observer's scheme asks
for one.

`Quantizer.setParameters` writes both rows or neither; every operation returns the quantizer that
results from it.
-/

namespace FakeQuant

/-- A fake-quantizing layer with its parameters. -/
structure Quantizer (σ : Type) where
  grid : Grid
  /-- The current scales and continuous zero points. -/
  parameters : Parameters
  mode : Mode
  gradientScaling : GradientScaling
  observer : σ

/-- The number of channels that a scheme and a configured number agree on. -/
def Scheme.channels (scheme : Scheme) (given : Option Nat) : Except SchemeFault Nat :=
  match scheme.isPerChannel, given with
  | true, some n => .ok n
  | false, none => .ok 1
  | true, none => .error (.needsChannels scheme)
  | false, some n => .error (.takesNoChannels scheme n)

/-- The same scale and zero point for every channel. -/
def Parameters.uniform (channels : Nat) (scale zeroPoint : Single) : Parameters where
  scale := .ofList (List.replicate channels scale)
  zeroPoint := .ofList (List.replicate channels zeroPoint)

/-- What a quantizer reports while it works. -/
inductive Event where
  /-- The current parameters, on request. -/
  | parameters (p : Parameters)
  /-- A proposed scale is not a positive finite number. -/
  | suspiciousScale (scale : Row Single)
deriving DecidableEq

/-- One value for each of `length` channels: the given row, or a new one of a single value. -/
def spreadRow (what : String) (r : Row Single) (length : Nat) : Except Error (Row Single) :=
  if r.length = length then .ok r
  else match r.values with
    | [v] => .ok (.ofList (List.replicate length v))
    | _ => .error (.shapeMismatch what [length] [r.length])

/-- Whether a scale is unfit for division: not finite, zero or negative. -/
def isSuspicious (scale : Single) : Bool :=
  !scale.isFinite || decide (scale ≤ 0)

namespace Quantizer

variable {σ : Type} [Observer σ]

/-- The quantizer that a configuration and an observer describe. -/
def ofConfig (c : Config) (observer : σ) : Except Error (Quantizer σ) := do
  c.validate
  let grid ← c.grid
  (Observer.dtype observer).check grid
  match (Observer.scheme observer).channels c.channelLength with
  | .error fault => throw (.schemeMismatch fault)
  | .ok channels =>
    return { grid, observer
             parameters := .uniform channels c.scale c.zeroPoint
             mode := c.mode
             gradientScaling := c.gradientScaling }

/-- How the parameters map onto a tensor. -/
def scheme (q : Quantizer σ) : Scheme :=
  Observer.scheme q.observer

/-- The type that codes are stored in. -/
def dtype (q : Quantizer σ) : Dtype :=
  Observer.dtype q.observer

/-- What the observer proposes now. -/
def proposal (q : Quantizer σ) : Parameters :=
  Observer.proposal q.observer

omit [Observer σ]

/-- The number of channels. -/
def channels (q : Quantizer σ) : Nat :=
  q.parameters.scale.length

/-- The quantizer in another mode. -/
def setMode (q : Quantizer σ) (mode : Mode) : Quantizer σ :=
  { q with mode }

/-- Learns scale and zero point from gradients; the output is fake-quantized. -/
def learn (q : Quantizer σ) : Quantizer σ :=
  q.setMode .learning

/-- Takes scale and zero point from the observer; the output is fake-quantized. -/
def estimate (q : Quantizer σ) : Quantizer σ :=
  q.setMode .staticEstimate

/-- Takes scale and zero point from the observer; the output is the input. -/
def observeOnly (q : Quantizer σ) : Quantizer σ :=
  q.setMode .staticObservation

/-- Keeps scale and zero point; the output is the input. -/
def disable (q : Quantizer σ) : Quantizer σ :=
  q.setMode .disabled

/-- The quantizer with other gradient scaling. -/
def setGradientScaling (q : Quantizer σ) (gradientScaling : GradientScaling) : Quantizer σ :=
  { q with gradientScaling }

/-- The quantizer with these parameters, whatever their number: the way an optimizer writes. -/
def replaceParameters (q : Quantizer σ) (parameters : Parameters) : Quantizer σ :=
  { q with parameters }

/-- The quantizer with the proposed parameters, of which there must be one per channel or one for
all, and a report if a scale is suspicious. -/
def setParameters (q : Quantizer σ) (p : Parameters) : Except Error (Quantizer σ × List Event) := do
  let scale ← spreadRow "scale" p.scale q.channels
  let zeroPoint ← spreadRow "zero_point" p.zeroPoint q.channels
  let events := if scale.values.any isSuspicious then [Event.suspiciousScale scale] else []
  return (q.replaceParameters { scale, zeroPoint }, events)

/-- The report of the current parameters. -/
def report (q : Quantizer σ) : Event :=
  .parameters q.parameters

end Quantizer

/-- Values after a step of gradient descent. A single derivative counts for all values. -/
def descendValues (rate : Single) (values derivatives : List Single) : List Single :=
  match derivatives with
  | [d] => values.map fun v => v + -rate * d
  | _ => List.zipWith (fun v d => v + -rate * d) values derivatives

/-- The parameters after a step of gradient descent, which writes them where they are stored. -/
def Parameters.descend (p : Parameters) (rate : Single) (g : Gradients) : Parameters where
  scale := { p.scale with values := descendValues rate p.scale.values g.scale }
  zeroPoint := { p.zeroPoint with values := descendValues rate p.zeroPoint.values g.zeroPoint }

end FakeQuant
