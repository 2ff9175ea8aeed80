import FakeQuant.Quantizer.Basic

/-!
# Descriptions and log lines

The one-line description of a quantizer, and the lines that its events leave in a log. Long lists of
parameters show their ends only.
-/

namespace FakeQuant

/-- The number of values from which on a description shows the ends only. -/
def longList : Nat := 500

/-- How many values it then shows at either end. -/
def shownEnds : Nat := 5

/-- A list of numbers in brackets. -/
def numbersText (xs : List Single) : String :=
  bracketed (xs.map Layout.description.text)

/-- A list of numbers in brackets, the middle of a long list left out. -/
def shortenedText (xs : List Single) : String :=
  if xs.length < longList then numbersText xs
  else bracketed ((xs.take shownEnds).map Layout.description.text ++ "..." ::
    (xs.drop (xs.length - shownEnds)).map Layout.description.text)

/-- A row of parameters with its extent and storage. -/
def storedText (r : Row Single) : String :=
  shortenedText r.values ++ ", shape=" ++ naturalsText [r.length] ++ ", strides=" ++
    bracketed [integerText r.stride] ++ ", layout=" ++
    (if r.isStandard then "CFcf (0xf)" else "Custom (0x0)") ++ ", const ndim=1"

/-- The numbers of a row, if they stand one right behind the other. -/
def sliceText (r : Row Single) : String :=
  if r.isStandard then "Some(" ++ numbersText r.values ++ ")" else "None"

/-- A name and fields in braces. -/
def recordText (name : String) (fields : List (String × String)) : String :=
  name ++ " \x7b " ++
    String.intercalate ", " (fields.map fun (field, text) => field ++ ": " ++ text) ++ " \x7d"

/-- A grid with its bounds by name. -/
def Grid.describe (g : Grid) : String :=
  recordText "QuantRange" [("qmin", integerText g.low.toInt), ("qmax", integerText g.high.toInt)]

/-- The description of a quantizer. -/
def Quantizer.describe {σ : Type} [Observer σ] (q : Quantizer σ) : String :=
  recordText "LearnableFakeQuantize"
    [("range", q.grid.describe),
     ("scale", storedText q.parameters.scale),
     ("zero_point", storedText q.parameters.zeroPoint),
     ("mode", q.mode.label),
     ("grad_scaling", q.gradientScaling.label),
     ("qscheme", q.scheme.describe),
     ("dtype", q.dtype.label)]

namespace Event

/-- How serious an event is. -/
inductive Level where
  | info
  | warning
deriving DecidableEq, Repr

/-- The name of a level in a log. -/
def Level.name : Level → String
  | info => "INFO"
  | warning => "WARN"

/-- The level of an event. -/
def level : Event → Level
  | parameters _ => .info
  | suspiciousScale _ => .warning

/-- The wording of an event. -/
def message : Event → String
  | parameters _ => "learnable fake quantize parameters"
  | suspiciousScale _ => "observer produced a non-positive or non-finite scale"

/-- The fields of an event as they are logged. -/
def fields : Event → List String
  | parameters p =>
    ["scale=" ++ sliceText p.scale, "zero_point=" ++ sliceText p.zeroPoint]
  | suspiciousScale scale => ["scale=" ++ storedText scale]

end Event

end FakeQuant
