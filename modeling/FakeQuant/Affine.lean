import FakeQuant.Grid
import FakeQuant.Tensor.View

/-!
# Affine quantization

A real number `x` has the code `x / scale + zero point`, rounded to an integer; a code goes back to
`(code - zero point) · scale`. Fake quantization does both, with the code moved into the grid in
between, so that a tensor shows the error it will have once it is stored as integers.

The whole-tensor operations use one scale and zero point. The operations along an axis use the pair
of an element's position on that axis: `channelView` lays a row of values out along the axis, if
the axis exists, has one value for each position, and the values stand one right behind the other;
`broadcastTo` repeats the values along the other axes, so that they stand beside the elements they
are for.
-/

namespace FakeQuant

/-! ### One element -/

/-- The code of a number, not yet moved into a grid: the nearest integer, halves to even. The
division by the scale is a product with its inverse. -/
def quantizeValue (x inverseScale zeroPoint : Single) : Single :=
  (x * inverseScale + zeroPoint).roundEven

/-- The number that a code stands for. -/
def dequantizeValue (code scale zeroPoint : Single) : Single :=
  (code - zeroPoint) * scale

/-- The number that the grid's code of `x` stands for. -/
def fakeQuantizeValue (g : Grid) (x scale inverseScale zeroPoint : Single) : Single :=
  dequantizeValue (g.clamp (quantizeValue x inverseScale zeroPoint)) scale zeroPoint

/-! ### Whole tensors -/

variable {s : Shape}

/-- The codes of a tensor, moved into the grid if `clamped`. -/
def quantize (g : Grid) (clamped : Bool) (x : Tensor Single s) (scale zeroPoint : Single) :
    Tensor Single s :=
  let inverse := 1 / scale
  x.map fun v =>
    let code := quantizeValue v inverse zeroPoint
    if clamped then g.clamp code else code

/-- The numbers that a tensor of codes stands for. -/
def dequantize (codes : Tensor Single s) (scale zeroPoint : Single) : Tensor Single s :=
  codes.map fun code => dequantizeValue code scale zeroPoint

/-- A tensor as it is after quantization to the grid. -/
def fakeQuantize (g : Grid) (x : Tensor Single s) (scale zeroPoint : Single) : Tensor Single s :=
  let inverse := 1 / scale
  x.map fun v => fakeQuantizeValue g v scale inverse zeroPoint

/-! ### Along an axis -/

/-- The axis of a shape with this number, if the shape has that many axes. -/
def channelAxis (s : Shape) (axis : Nat) : Except Error (Fin s.length) :=
  if h : axis < s.length then .ok ⟨axis, h⟩ else .error (.invalidAxis axis s.length)

/-- Values for the positions of an axis, laid out along that axis. The axis is checked first, then
the number of values, then how they are stored. -/
def channelView {α : Type} (what : String) (r : Row α) (s : Shape) (axis : Nat) :
    Except Error (View α (s.unit axis)) := do
  let channels := s.get (← channelAxis s axis)
  if r.length ≠ channels then throw (.shapeMismatch what [channels] [r.length])
  match View.ofRow? (s.unit axis) r with
  | some view => return view
  | none => throw (.shapeMismatch what (s.unit axis) [r.length])

/-- A view repeated to fill a shape. -/
def broadcastTo {α : Type} {u : Shape} (v : View α u) (s : Shape) : Except Error (View α s) :=
  match v.broadcast? s with
  | some view => .ok view
  | none => .error (.shapeMismatch "broadcast" s u)

/-- A function of every element and of the two values at its position on an axis. -/
def zipAlong (f : Single → Single → Single → Single) (x : Tensor Single s)
    (scale zeroPoint : Row Single) (axis : Nat) : Except Error (Tensor Single s) := do
  let scaleUnit ← channelView "scale" scale s axis
  let zeroPointUnit ← channelView "zero_point" zeroPoint s axis
  let scale ← broadcastTo scaleUnit s
  let zeroPoint ← broadcastTo zeroPointUnit s
  return .ofFn fun i => f (x.get i) (scale.get i) (zeroPoint.get i)

/-- `quantize` with the scale and zero point of each position of an axis. -/
def quantizePerChannel (g : Grid) (clamped : Bool) (x : Tensor Single s)
    (scale zeroPoint : Row Single) (axis : Nat) : Except Error (Tensor Single s) :=
  let inverse := scale.map fun scale => 1 / scale
  zipAlong (fun v inverse zeroPoint =>
    let code := quantizeValue v inverse zeroPoint
    if clamped then g.clamp code else code) x inverse zeroPoint axis

/-- `dequantize` with the scale and zero point of each position of an axis. -/
def dequantizePerChannel (codes : Tensor Single s) (scale zeroPoint : Row Single) (axis : Nat) :
    Except Error (Tensor Single s) :=
  zipAlong dequantizeValue codes scale zeroPoint axis

/-- `fakeQuantize` with the scale and zero point of each position of an axis. -/
def fakeQuantizePerChannel (g : Grid) (x : Tensor Single s) (scale zeroPoint : Row Single)
    (axis : Nat) : Except Error (Tensor Single s) := do
  let inverse := scale.map fun scale => 1 / scale
  let scaleUnit ← channelView "scale" scale s axis
  let inverseUnit ← channelView "scale" inverse s axis
  let zeroPointUnit ← channelView "zero_point" zeroPoint s axis
  let scale ← broadcastTo scaleUnit s
  let inverse ← broadcastTo inverseUnit s
  let zeroPoint ← broadcastTo zeroPointUnit s
  return .ofFn fun i =>
    fakeQuantizeValue g (x.get i) (scale.get i) (inverse.get i) (zeroPoint.get i)

end FakeQuant
