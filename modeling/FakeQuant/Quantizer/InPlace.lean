import FakeQuant.Quantizer.State

/-!
# Writing parameters in place

A host keeps one quantizer and a log of what it reports. The operations that write parameters then
work on that quantizer: scales and zero points are replaced one after the other, and what was
replaced or reported stays so when a later step fails. `InPlace` is such work. None of the three
writers replaces anything before its last check.
-/

namespace FakeQuant

/-- A quantizer with all that it has reported so far. -/
structure Logged (σ : Type) where
  quantizer : Quantizer σ
  log : List Event

/-- Work on a quantizer that may stop with an error. What was done before the error stays done. -/
abbrev InPlace (σ : Type) := ExceptT Error (StateM (Logged σ))

namespace InPlace

variable {σ α : Type}

/-- The outcome of some work, and the quantizer and its log thereafter. -/
def runOn (work : InPlace σ α) (l : Logged σ) : Except Error α × Logged σ :=
  work.run.run l

/-- The number of channels. -/
def channels : InPlace σ Nat := do
  return (← get).quantizer.channels

/-- Replaces the scales. -/
def writeScale (scale : Row Single) : InPlace σ Unit :=
  modify fun l => { l with quantizer.parameters.scale := scale }

/-- Replaces the zero points. -/
def writeZeroPoint (zeroPoint : Row Single) : InPlace σ Unit :=
  modify fun l => { l with quantizer.parameters.zeroPoint := zeroPoint }

/-- Adds an event to the log. -/
def report (event : Event) : InPlace σ Unit :=
  modify fun l => { l with log := l.log ++ [event] }

/-- Writes the proposed parameters, of which there must be one per channel or one for all. A
suspicious scale is reported before it is written. -/
def setParameters (p : Parameters) : InPlace σ Unit := do
  let length ← channels
  let scale ← spreadRow "scale" p.scale length
  let zeroPoint ← spreadRow "zero_point" p.zeroPoint length
  if scale.values.any isSuspicious then report (.suspiciousScale scale)
  writeScale scale
  writeZeroPoint zeroPoint

/-- Loads the entries of a scope that are there. The keys that are not there are returned, or are an
error if `strict`. -/
def loadStateDict (state : StateDict) (scope : String) (strict : Bool) :
    InPlace σ (List String) := do
  let length ← channels
  let scale ← state.row (scaleKey scope) "scale" length
  let zeroPoint ← state.row (zeroPointKey scope) "zero_point" length
  let missing :=
    (if scale.isNone then [scaleKey scope] else []) ++
      if zeroPoint.isNone then [zeroPointKey scope] else []
  if strict ∧ missing ≠ [] then throw (.missingState missing)
  let current := (← get).quantizer.parameters
  writeScale (scale.getD current.scale)
  writeZeroPoint (zeroPoint.getD current.zeroPoint)
  return missing

/-- Reads the parameters from a place. -/
def load (place : Place) : InPlace σ Unit := do
  let p ← Parameters.ofText (← place.read)
  let length ← channels
  if p.scale.length ≠ length then throw (.shapeMismatch "scale" [length] [p.scale.length])
  if p.zeroPoint.length ≠ length then
    throw (.shapeMismatch "zero_point" [length] [p.zeroPoint.length])
  writeScale p.scale
  writeZeroPoint p.zeroPoint

end InPlace

end FakeQuant
