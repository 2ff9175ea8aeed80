import FakeQuant.Binary.Arithmetic
import FakeQuant.Error

/-!
# Integer grids

A `Grid` is a range of 32-bit codes with at least two points; the type holds the proof that its
bounds are in order. Codes are computed as `Single` numbers, so the grid clamps, tests and rounds
such numbers: `Grid.clamp` moves a number to the nearer bound when it lies outside, `Grid.contains`
tests the closed range, and `Grid.effectiveZeroPoint` turns a continuous zero point into the
integer that is applied, rounding halves upward. The not-a-number value is kept by the first and
last of them and refused by the test.
-/

namespace FakeQuant

/-- A range of codes with at least two points. -/
structure Grid where
  low : Int32
  high : Int32
  low_lt_high : low < high
deriving DecidableEq

namespace Grid

/-- The grid with the given bounds, if they are in order. -/
def ofBounds (low high : Int32) : Except Error Grid :=
  if h : low < high then .ok ⟨low, high, h⟩ else .error (.invalidRange low high)

/-- The grid of all unsigned numbers of the given width. -/
def unsigned (bits : Nat) : Except Error Grid :=
  if bits = 0 ∨ 31 < bits then .error (.configuration (.bitWidth bits 1 31))
  else ofBounds 0 (Int32.ofNat (Nat.pow 2 bits - 1))

/-- The grid of all two's complement numbers of the given width. -/
def signed (bits : Nat) : Except Error Grid :=
  if bits < 2 ∨ 32 < bits then .error (.configuration (.bitWidth bits 2 32))
  else
    let half : Int := (Nat.pow 2 (bits - 1) : Nat)
    ofBounds (Int32.ofInt (-half)) (Int32.ofInt (half - 1))

/-- The lower bound as a number. -/
def least (g : Grid) : Single :=
  Binary.ofInt g.low.toInt

/-- The upper bound as a number. -/
def greatest (g : Grid) : Single :=
  Binary.ofInt g.high.toInt

/-- The number of points. The bounds are widened to 64 bits, where their distance has room. -/
def levels (g : Grid) : UInt64 :=
  (g.high.toInt64 - g.low.toInt64 + 1).toUInt64

/-- The number of whole bits that the points fill. -/
def bitwidth (g : Grid) : Nat :=
  g.levels.toNat.log2

/-- The number moved into the grid's range. -/
def clamp (g : Grid) (code : Single) : Single :=
  if code < g.least then g.least
  else if g.greatest < code then g.greatest
  else code

/-- Whether the number lies in the grid's range. -/
def contains (g : Grid) (code : Single) : Bool :=
  decide (g.least ≤ code) && decide (code ≤ g.greatest)

/-- The zero point that is applied for a continuous one: the nearest integer, halves upward, moved
into the grid's range. -/
def effectiveZeroPoint (g : Grid) (zeroPoint : Single) : Single :=
  g.clamp (zeroPoint + Binary.ofRat false (1 / 2)).floor

/-- The bounds in brackets. -/
def text (g : Grid) : String :=
  "[" ++ integerText g.low.toInt ++ ", " ++ integerText g.high.toInt ++ "]"

end Grid

/-- Succeeds when every code of the grid can be stored. -/
def Dtype.check (dtype : Dtype) (g : Grid) : Except Error Unit :=
  if g.low.toInt < dtype.min ∨ dtype.max < g.high.toInt then
    .error (.rangeOutOfBounds g.low g.high dtype)
  else .ok ()

end FakeQuant
