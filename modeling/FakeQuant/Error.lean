import FakeQuant.Decimal.Layout
import FakeQuant.Dtype
import FakeQuant.Json.Decoder
import FakeQuant.Scheme

/-!
# Errors

`Error` lists what can be wrong with a configuration, with shapes and parameters, and with stored
state; `Error.message` words each of them. Numeric trouble such as a scale of zero is no error: it
shows as infinities and not-a-number values in the results.

`Error.isConfigError` tells the errors of a configuration, which a caller can only mend there, from
those of a single call.
-/

namespace FakeQuant

/-- How parameters and a scheme can disagree. -/
inductive SchemeFault where
  /-- A per-channel scheme without a number of channels. -/
  | needsChannels (scheme : Scheme)
  /-- A per-tensor scheme with a number of channels. -/
  | takesNoChannels (scheme : Scheme) (given : Nat)
  /-- A per-tensor scheme with several scales. -/
  | takesOneScale (scheme : Scheme) (given : Nat)
deriving DecidableEq

/-- The wording. -/
def SchemeFault.message : SchemeFault → String
  | needsChannels scheme => scheme.describe ++ " requires channel_len"
  | takesNoChannels scheme given =>
    scheme.describe ++ " does not take channel_len (got " ++ integerText given ++ ")"
  | takesOneScale scheme given =>
    scheme.describe ++ " takes a single scale, got " ++ integerText given

/-- What can be wrong with a configuration value or document. -/
inductive ConfigFault where
  /-- No grid has this many bits. -/
  | bitWidth (bits least greatest : Nat)
  /-- The initial scale is not a positive finite number. -/
  | scale (scale : Single)
  /-- The fixed gradient factor is not finite. -/
  | gradientFactor (factor : Single)
  /-- The document is not a YAML configuration. -/
  | document
  /-- The configuration file cannot be read. -/
  | file
deriving DecidableEq

/-- The wording. -/
def ConfigFault.message : ConfigFault → String
  | bitWidth bits least greatest =>
    "unsupported bit width " ++ integerText bits ++ " (must be " ++ integerText least ++ "..=" ++
      integerText greatest ++ ")"
  | scale s => "initial scale must be finite and positive, got " ++ Layout.message.text s
  | gradientFactor s => "grad scaling factor must be finite, got " ++ Layout.message.text s
  | document => "Failed to parse YAML config"
  | file => "Failed to read config file"

/-- What can go wrong. -/
inductive Error where
  /-- The lower bound of a grid is not below the upper one. -/
  | invalidRange (low high : Int32)
  /-- The grid does not fit the storage type. -/
  | rangeOutOfBounds (low high : Int32) (dtype : Dtype)
  /-- No parameters at all. -/
  | invalidChannelLength (length : Nat)
  /-- The tensor has no such axis. -/
  | invalidAxis (axis rank : Nat)
  /-- Two shapes or lengths that should agree. -/
  | shapeMismatch (what : String) (expected actual : List Nat)
  /-- Parameters that do not go with the scheme. -/
  | schemeMismatch (fault : SchemeFault)
  /-- State entries that a strict load did not find. -/
  | missingState (keys : List String)
  /-- A bad configuration. -/
  | configuration (fault : ConfigFault)
  /-- There is no such file or directory. -/
  | fileNotFound
  /-- The bytes of a file are no text. -/
  | fileUnreadable
  /-- Stored parameters that cannot be read. -/
  | serialization (fault : Json.Fault)
  /-- A per-tensor quantizer whose parameter was replaced by nothing. -/
  | noParameter
deriving DecidableEq

namespace Error

/-- The wording of an error. -/
def message : Error → String
  | invalidRange low high =>
    "Invalid quantization range: quant_min (" ++ integerText low.toInt ++
      ") must be strictly less than quant_max (" ++ integerText high.toInt ++ ")"
  | rangeOutOfBounds low high dtype =>
    "Quantization range [" ++ integerText low.toInt ++ ", " ++ integerText high.toInt ++
      "] out of bounds for " ++ dtype.name ++ " [" ++ integerText dtype.min ++ ", " ++
      integerText dtype.max ++ "]"
  | invalidChannelLength length =>
    "Invalid channel length: " ++ integerText length ++ " (must be > 0)"
  | invalidAxis axis rank =>
    "Channel axis " ++ integerText axis ++ " out of range for tensor with " ++ integerText rank ++
      " dimensions"
  | shapeMismatch what expected actual =>
    "Shape mismatch for " ++ what ++ ": expected " ++ naturalsText expected ++ ", got " ++
      naturalsText actual
  | schemeMismatch fault => "Scheme mismatch: " ++ fault.message
  | missingState keys => "Missing state keys: " ++ bracketed (keys.map quoted)
  | configuration fault => "Configuration error: " ++ fault.message
  | fileNotFound => "IO error: NotFound"
  | fileUnreadable => "IO error: InvalidData"
  | serialization fault => "Serialization error: " ++ fault.label
  | noParameter => "A per-tensor quantizer has no parameter"

/-- Whether the error is one of configuration. -/
def isConfigError : Error → Bool
  | invalidRange .. | rangeOutOfBounds .. | invalidChannelLength _ | schemeMismatch _
  | configuration _ => true
  | invalidAxis .. | shapeMismatch .. | missingState _ | fileNotFound | fileUnreadable
  | serialization _ | noParameter => false

end Error

end FakeQuant
