import FakeQuant.Kernel.Gradient
import FakeQuant.Trace

/-!
# Learnable kernels

A forward pass of a learnable kernel returns a *call*: the output together with all that the
backward pass needs. The zero point that is learned is continuous; forward and backward apply the
integer that the grid makes of it. Backward takes the gradient by the output and returns those by
the input, the scales and the zero points; the parameter gradients are sums over the elements in
row-major order, multiplied by the gradient factor at the end. The per-channel kernel keeps the
axis and the parameters as it got them and lays them out along the axis once more in backward; it
sums over the elements at each position of the axis.
-/

namespace FakeQuant

/-- What both kernels are set up with. -/
structure Kernel where
  grid : Grid
  /-- Multiplies the parameter gradients, and nothing else. -/
  gradientFactor : Single

variable {s : Shape}

/-! ### One scale and zero point for a whole tensor -/

/-- A forward pass over a whole tensor that awaits its backward pass. -/
structure TensorCall (s : Shape) where
  kernel : Kernel
  input : Tensor Single s
  scale : Single
  /-- The continuous zero point. -/
  zeroPoint : Single
  output : Tensor Single s

/-- Fake-quantizes a tensor. -/
def Kernel.forwardTensor (k : Kernel) (x : Tensor Single s) (scale zeroPoint : Single) :
    Traced (TensorCall s) := do
  let output ← span .forward "per_tensor" <|
    pure (fakeQuantize k.grid x scale (k.grid.effectiveZeroPoint zeroPoint))
  return { kernel := k, input := x, scale, zeroPoint, output }

namespace TensorCall

/-- The shape of input and output. -/
def shape (_ : TensorCall s) : Shape := s

/-- The zero point that was applied. -/
def effectiveZeroPoint (c : TensorCall s) : Single :=
  c.kernel.grid.effectiveZeroPoint c.zeroPoint

/-- The codes of the input, not moved into the grid. -/
def codes (c : TensorCall s) : Tensor Single s :=
  quantize c.kernel.grid false c.input c.scale c.effectiveZeroPoint

/-- What the elements contribute to the parameter gradients, for an input gradient `dx`. -/
def terms (c : TensorCall s) (dx : Tensor Single s) : Tensor (Single × Single) s :=
  let codes := c.codes
  let zeroPoint := c.effectiveZeroPoint
  Tensor.ofFn fun i =>
    parameterTerms c.kernel.grid (c.input.get i) (c.output.get i) (codes.get i) (dx.get i) c.scale
      zeroPoint

/-- The gradients for an output gradient of the input's shape. -/
def gradients (c : TensorCall s) (dy : Tensor Single s) : Gradients :=
  let dx := straightThrough c.kernel.grid dy c.codes
  let sums := sumTerms (c.terms dx).toList
  { input := ⟨s, dx⟩
    scale := [sums.1 * c.kernel.gradientFactor]
    zeroPoint := [sums.2 * c.kernel.gradientFactor] }

end TensorCall

/-! ### One scale and zero point per position of an axis -/

/-- A forward pass along an axis that awaits its backward pass. -/
structure ChannelCall (s : Shape) where
  kernel : Kernel
  input : Tensor Single s
  axis : Nat
  scale : Row Single
  /-- The continuous zero points. -/
  zeroPoint : Row Single
  output : Tensor Single s

/-- Fake-quantizes a tensor along an axis. The axis and the rows of parameters are checked inside
the span. -/
def Kernel.forwardChannels (k : Kernel) (x : Tensor Single s) (axis : Nat)
    (scale zeroPoint : Row Single) : Traced (Except Error (ChannelCall s)) := do
  let effective := zeroPoint.map k.grid.effectiveZeroPoint
  let output ← span .forward "per_channel" <|
    pure (fakeQuantizePerChannel k.grid x scale effective axis)
  return output.map fun output =>
    { kernel := k, input := x, axis, scale, zeroPoint, output }

/-- What the elements at one position of the axis are quantized with. -/
structure Channel where
  scale : Single
  inverse : Single
  /-- The zero point that is applied. -/
  zeroPoint : Single

namespace ChannelCall

/-- The shape of input and output. -/
def shape (_ : ChannelCall s) : Shape := s

/-- The zero points that were applied. -/
def effectiveZeroPoint (c : ChannelCall s) : Row Single :=
  c.zeroPoint.map c.kernel.grid.effectiveZeroPoint

/-- The channels in the order of their positions, in a row of their own. -/
def channels (c : ChannelCall s) : Row Channel :=
  .ofList <| List.zipWith (fun scale zeroPoint => { scale, inverse := 1 / scale, zeroPoint })
    c.scale.values c.effectiveZeroPoint.values

/-- The codes of the input, not moved into the grid, for the channel of every element. -/
def codes (c : ChannelCall s) (channel : View Channel s) : Tensor Single s :=
  Tensor.ofFn fun i =>
    quantizeValue (c.input.get i) (channel.get i).inverse (channel.get i).zeroPoint

/-- What the elements contribute to the parameter gradients, for an input gradient `dx`. -/
def terms (c : ChannelCall s) (channel : View Channel s) (codes dx : Tensor Single s) :
    Tensor (Single × Single) s :=
  Tensor.ofFn fun i =>
    parameterTerms c.kernel.grid (c.input.get i) (c.output.get i) (codes.get i) (dx.get i)
      (channel.get i).scale (channel.get i).zeroPoint

/-- The gradients for an output gradient of the input's shape. The contributions of all elements
are stored first and then summed over the elements at each position of the axis. -/
def gradients (c : ChannelCall s) (dy : Tensor Single s) : Except Error Gradients := do
  let axis ← channelAxis s c.axis
  if c.zeroPoint.length ≠ c.scale.length then
    throw (.shapeMismatch "zero_point" [c.scale.length] [c.zeroPoint.length])
  let unit ← channelView "scale" c.channels s c.axis
  let channel ← broadcastTo unit s
  let codes := c.codes channel
  let dx := straightThrough c.kernel.grid dy codes
  let terms := (c.terms channel codes dx).view
  let sums := List.ofFn fun position => sumTerms (terms.indexAxis axis position).toList
  return { input := ⟨s, dx⟩
           scale := sums.map fun sum => sum.1 * c.kernel.gradientFactor
           zeroPoint := sums.map fun sum => sum.2 * c.kernel.gradientFactor }

end ChannelCall

/-! ### Either kernel -/

/-- A forward pass of either kernel. -/
inductive Call where
  | tensor {s : Shape} (call : TensorCall s)
  | channels {s : Shape} (call : ChannelCall s)

/-- The output gradient in the shape of the input, if it has that shape. -/
def outputGradient (shape : Shape) (dy : AnyTensor Single) : Except Error (Tensor Single shape) :=
  if h : dy.shape = shape then .ok (h ▸ dy.tensor)
  else .error (.shapeMismatch "grad_output" shape dy.shape)

/-- The backward pass over a whole tensor. The shape is checked before the span is entered. -/
def TensorCall.backward (c : TensorCall s) (dy : AnyTensor Single) :
    Traced (Except Error Gradients) := do
  match outputGradient s dy with
  | .error e => return .error e
  | .ok g => span .backward "per_tensor" <| pure (.ok (c.gradients g))

/-- The backward pass along an axis. The shape is checked before the span is entered. -/
def ChannelCall.backward (c : ChannelCall s) (dy : AnyTensor Single) :
    Traced (Except Error Gradients) := do
  match outputGradient s dy with
  | .error e => return .error e
  | .ok g => span .backward "per_channel" <| pure (c.gradients g)

namespace Call

/-- The fake-quantized tensor. -/
def output : Call → AnyTensor Single
  | tensor c => ⟨_, c.output⟩
  | channels c => ⟨_, c.output⟩

/-- The channel axis of a per-channel pass. -/
def axis? : Call → Option Nat
  | tensor _ => none
  | channels c => some c.axis

/-- The matching backward pass. -/
def backward (c : Call) (dy : AnyTensor Single) : Traced (Except Error Gradients) :=
  match c with
  | tensor c => c.backward dy
  | channels c => c.backward dy

end Call

/-! ### Entry points with unchecked grid bounds -/

/-- A forward pass over a whole tensor on the grid with these bounds. -/
def learnPerTensor (x : Tensor Single s) (scale zeroPoint : Single) (low high : Int32)
    (gradientFactor : Single) : Traced (Except Error (TensorCall s)) := do
  match Grid.ofBounds low high with
  | .error e => return .error e
  | .ok grid => return .ok (← Kernel.forwardTensor { grid, gradientFactor } x scale zeroPoint)

/-- A forward pass along an axis on the grid with these bounds. -/
def learnPerChannel (x : Tensor Single s) (scale zeroPoint : Row Single) (axis : Nat)
    (low high : Int32) (gradientFactor : Single) : Traced (Except Error (ChannelCall s)) := do
  match Grid.ofBounds low high with
  | .error e => return .error e
  | .ok grid => Kernel.forwardChannels { grid, gradientFactor } x axis scale zeroPoint

end FakeQuant
