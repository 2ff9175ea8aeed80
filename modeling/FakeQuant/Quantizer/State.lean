import FakeQuant.Json.Form
import FakeQuant.Place
import FakeQuant.Quantizer.Basic

/-!
# Saved parameters

The parameters of a quantizer can be kept in two forms: as entries of a dictionary that many
quantizers share, each under a scope of its own, and as a JSON text of their own in some place.
Mode, observer and grid are not kept, and of a row of parameters only the values.

Loading writes both parameters or, when it fails, none. Saved lists must have one value per channel.
-/

namespace FakeQuant

/-- A dictionary of parameters. An entry hides the later ones with the same key. -/
abbrev StateDict := List (String × List Single)

/-- A new row of the values under a key, which must be of the given number if the key is present. -/
def StateDict.row (state : StateDict) (key what : String) (length : Nat) :
    Except Error (Option (Row Single)) :=
  match state.lookup key with
  | none => .ok none
  | some values =>
    if values.length = length then .ok (some (.ofList values))
    else .error (.shapeMismatch what [length] [values.length])

/-- The key of the scales in a scope. -/
def scaleKey (scope : String) : String :=
  scope ++ "scale"

/-- The key of the zero points in a scope. -/
def zeroPointKey (scope : String) : String :=
  scope ++ "zero_point"

/-- The parameters that a JSON text holds. -/
def Parameters.ofText (text : String) : Except Error Parameters :=
  match Parameters.decoder.run text with
  | .ok p => .ok p
  | .error fault => .error (.serialization fault)

namespace Quantizer

variable {σ : Type}

/-- The entries for a quantizer, sorted by key. -/
def stateDict (q : Quantizer σ) (scope : String) : StateDict :=
  [(scaleKey scope, q.parameters.scale.values), (zeroPointKey scope, q.parameters.zeroPoint.values)]

/-- Loads the entries of a scope that are there. The keys that are not there are returned, or are an
error if `strict`. -/
def loadStateDict (q : Quantizer σ) (state : StateDict) (scope : String) (strict : Bool) :
    Except Error (Quantizer σ × List String) := do
  let scale ← state.row (scaleKey scope) "scale" q.channels
  let zeroPoint ← state.row (zeroPointKey scope) "zero_point" q.channels
  let missing :=
    (if scale.isNone then [scaleKey scope] else []) ++
      if zeroPoint.isNone then [zeroPointKey scope] else []
  if strict ∧ missing ≠ [] then throw (.missingState missing)
  let parameters : Parameters :=
    { scale := scale.getD q.parameters.scale
      zeroPoint := zeroPoint.getD q.parameters.zeroPoint }
  return (q.replaceParameters parameters, missing)

/-- The parameters as a JSON text. -/
def saved (q : Quantizer σ) : String :=
  String.ofList q.parameters.json

/-- Writes the parameters to a place. -/
def save (q : Quantizer σ) (place : Place) : Except Error Place :=
  place.write q.saved

/-- Reads the parameters from a place. -/
def load (q : Quantizer σ) (place : Place) : Except Error (Quantizer σ) := do
  let p ← Parameters.ofText (← place.read)
  if p.scale.length ≠ q.channels then
    throw (.shapeMismatch "scale" [q.channels] [p.scale.length])
  if p.zeroPoint.length ≠ q.channels then
    throw (.shapeMismatch "zero_point" [q.channels] [p.zeroPoint.length])
  return q.replaceParameters p

end Quantizer

end FakeQuant
