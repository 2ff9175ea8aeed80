import FakeQuant.Kernel.Call
import FakeQuant.Quantizer.Basic

/-!
# The forward pass of a quantizer

A forward pass shows the tensor to the observer, copies the observer's proposal if the mode says
so, and then does what the mode asks for: nothing, fake quantization with the current parameters,
or a pass of the learnable kernel. The observer has seen the tensor whatever happens later; the
parameters are written before the quantization that may fail.
-/

namespace FakeQuant

/-- What a forward pass gives. -/
inductive Output where
  /-- The input itself. -/
  | passthrough (x : AnyTensor Single)
  /-- The input fake-quantized with fixed parameters. -/
  | quantized (y : AnyTensor Single)
  /-- A pass of the learnable kernel that awaits its backward pass. -/
  | learnable (call : Call)

namespace Output

/-- The resulting tensor. -/
def tensor : Output → AnyTensor Single
  | passthrough x => x
  | quantized y => y
  | learnable call => call.output

/-- The kernel call, if there is one. -/
def call? : Output → Option Call
  | learnable call => some call
  | passthrough _ | quantized _ => none

end Output

/-- A finished forward pass: the quantizer afterwards, what it reported, and the output. -/
structure Pass (σ : Type) where
  quantizer : Quantizer σ
  events : List Event
  result : Except Error Output

/-- The first scale and zero point, which whole-tensor schemes use. -/
def Parameters.first (p : Parameters) : Except Error (Single × Single) :=
  match p.scale.values, p.zeroPoint.values with
  | scale :: _, zeroPoint :: _ => .ok (scale, zeroPoint)
  | _, _ => .error .noParameter

/-- The parameters with the zero points that are applied. -/
def Parameters.effective (p : Parameters) (g : Grid) : Parameters :=
  { p with zeroPoint := p.zeroPoint.map g.effectiveZeroPoint }

/-- Fake quantization under a scheme, with the zero points as they are given. -/
def Scheme.fakeQuantize (scheme : Scheme) (g : Grid) (x : AnyTensor Single) (p : Parameters) :
    Except Error (AnyTensor Single) := do
  match scheme.axis? with
  | some axis =>
    let y ← fakeQuantizePerChannel g x.tensor p.scale p.zeroPoint axis
    return ⟨x.shape, y⟩
  | none =>
    let (scale, zeroPoint) ← p.first
    return ⟨x.shape, FakeQuant.fakeQuantize g x.tensor scale zeroPoint⟩

/-- A pass of the learnable kernel under a scheme. -/
def Scheme.learn (scheme : Scheme) (k : Kernel) (x : AnyTensor Single) (p : Parameters) :
    Traced (Except Error Call) := do
  match scheme.axis? with
  | some axis => return .channels <$> (← k.forwardChannels x.tensor axis p.scale p.zeroPoint)
  | none =>
    match p.first with
    | .ok (scale, zeroPoint) => return .ok (.tensor (← k.forwardTensor x.tensor scale zeroPoint))
    | .error e => return .error e

namespace Quantizer

variable {σ : Type} [Observer σ]

/-- The quantizer after it has shown a tensor to its observer. -/
def observe (q : Quantizer σ) (x : AnyTensor Single) : Traced (Quantizer σ) :=
  span .observe "observer" <| pure { q with observer := Observer.observe q.observer x }

/-- The quantizer with the observer's proposal, if the mode copies it. -/
def refresh (q : Quantizer σ) : Except Error (Quantizer σ × List Event) :=
  if q.mode.copiesParameters then q.setParameters q.proposal else .ok (q, [])

/-- The kernel for an input with so many elements. -/
def kernel (q : Quantizer σ) (elements : Nat) : Kernel where
  grid := q.grid
  gradientFactor := q.gradientScaling.factor elements q.grid.high

/-- The output that the mode asks for, with the current parameters. -/
def produce (q : Quantizer σ) (x : AnyTensor Single) : Traced (Except Error Output) := do
  if q.mode.quantizes = false then return .ok (.passthrough x)
  else if q.mode.isLearning then
    return .learnable <$> (← q.scheme.learn (q.kernel x.size) x q.parameters)
  else
    return .quantized <$> (← span .forward "static" <|
      pure (q.scheme.fakeQuantize q.grid x (q.parameters.effective q.grid)))

/-- One forward pass. -/
def forward (q : Quantizer σ) (x : AnyTensor Single) : Traced (Pass σ) := do
  let q ← q.observe x
  match q.refresh with
  | .error e => return { quantizer := q, events := [], result := .error e }
  | .ok (q, events) => return { quantizer := q, events, result := ← q.produce x }

end Quantizer

end FakeQuant
