import FakeQuant.Error
import FakeQuant.Tensor.Basic
import FakeQuant.Tensor.Row

/-!
# Observers

An observer watches the tensors that pass through a quantizer and proposes scales and zero points
for them. `Observer σ` says what a state of type `σ` has to offer for that; a quantizer works with
any such type. A `ConstantObserver` proposes fixed parameters whatever it sees, for ranges that are
known beforehand.
-/

namespace FakeQuant

/-- Proposed scales and zero points; whole-tensor schemes use one of each. -/
structure Parameters where
  scale : Row Single
  zeroPoint : Row Single
deriving DecidableEq

namespace Parameters

/-- One scale and zero point. -/
def single (scale zeroPoint : Single) : Parameters :=
  { scale := .ofList [scale], zeroPoint := .ofList [zeroPoint] }

/-- The number of scales. -/
def length (p : Parameters) : Nat :=
  p.scale.length

/-- Whether there is no scale. -/
def isEmpty (p : Parameters) : Bool :=
  p.scale.values.isEmpty

end Parameters

/-- A source of quantization parameters. -/
class Observer (σ : Type) where
  /-- Takes note of a tensor. -/
  observe : σ → AnyTensor Single → σ
  /-- The current best parameters. -/
  proposal : σ → Parameters
  /-- The storage type that the parameters are for. -/
  dtype : σ → Dtype
  /-- How the parameters map onto a tensor. -/
  scheme : σ → Scheme

/-- An observer whose proposal does not depend on what it sees. -/
structure ConstantObserver where
  parameters : Parameters
  dtype : Dtype
  scheme : Scheme
  /-- How many tensors were seen. -/
  batches : Nat
deriving DecidableEq

namespace ConstantObserver

/-- An observer of these parameters, which must not be empty, must have as many zero points as
scales, and only one of each for a whole-tensor scheme. -/
def ofParameters (parameters : Parameters) (dtype : Dtype) (scheme : Scheme) :
    Except Error ConstantObserver :=
  if parameters.isEmpty then .error (.invalidChannelLength 0)
  else if parameters.zeroPoint.length ≠ parameters.scale.length then
    .error (.shapeMismatch "zero_point" [parameters.scale.length] [parameters.zeroPoint.length])
  else if scheme.isPerChannel = false ∧ parameters.length ≠ 1 then
    .error (.schemeMismatch (.takesOneScale scheme parameters.length))
  else .ok { parameters, dtype, scheme, batches := 0 }

/-- An affine observer of one scale and zero point. -/
def perTensor (scale zeroPoint : Single) (dtype : Dtype) : ConstantObserver where
  parameters := .single scale zeroPoint
  dtype := dtype
  scheme := .perTensorAffine
  batches := 0

/-- An affine observer of one pair per position of an axis. -/
def perChannel (parameters : Parameters) (axis : Nat) (dtype : Dtype) :
    Except Error ConstantObserver :=
  ofParameters parameters dtype (.perChannelAffine axis)

instance : Observer ConstantObserver where
  observe o _ := { o with batches := o.batches + 1 }
  proposal o := o.parameters
  dtype o := o.dtype
  scheme o := o.scheme

end ConstantObserver

end FakeQuant
