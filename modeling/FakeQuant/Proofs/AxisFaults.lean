import FakeQuant.Proofs.Calls

/-!
# What can be wrong with an axis

The operations along an axis have their errors in common (`Shape.axisFault?`): the axis is not
there, it has another number of positions than there are scales, the row of scales cannot be laid
out along it because its values do not stand one right behind the other, or one of the last two
holds for the zero points. They fail with the first of these. They differ in what they lay out:
quantization lays out the inverses of the scales, and the forward pass of a kernel the zero points
that are applied, which are new rows. What has been laid out can always be repeated to fill the
shape.

A call therefore holds parameters that fit its own input, and of all that its backward pass checks
only the shape of the output gradient can be wrong (`outputGradientFault?`). `errors_along_axis`
says both, for tensors of every shape.
-/

namespace FakeQuant

variable {s : Shape}

/-! ### Faults -/

/-- What is wrong with the shape of an output gradient. -/
def outputGradientFault? (shape given : Shape) : Option Error :=
  if given = shape then none else some (.shapeMismatch "grad_output" shape given)

/-! ### Backward -/

/-- An output gradient is taken if it has the right shape. -/
theorem failsWith_outputGradient (shape : Shape) (dy : AnyTensor Single) :
    FailsWith (outputGradient shape dy) (outputGradientFault? shape dy.shape) := by
  unfold outputGradient outputGradientFault?
  split
  · exact ⟨_, rfl⟩
  · rfl

/-- Gradients by an input of this shape and by so many scales and zero points. -/
structure Gradients.IsFor (g : Gradients) (shape : Shape) (channels : Nat) : Prop where
  input : g.input.shape = shape
  scale : g.scale.length = channels
  zeroPoint : g.zeroPoint.length = channels

/-- The checks of a backward pass along an axis that look at the call alone succeed. -/
structure ChannelCall.PassesChecks (call : ChannelCall s) (axis : Fin s.length) : Prop where
  axis : channelAxis s call.axis = .ok axis
  numbers : call.zeroPoint.length = call.scale.length
  /-- The channels can be laid out along the axis and repeated to fill the shape. -/
  layout : ∃ channel, call.layout = .ok channel

theorem passesChecks_channelCall (k : Kernel) (x : Tensor Single s) (p : ChannelParameters s) :
    (k.channelCall x p).PassesChecks p.axis := by
  obtain ⟨channel, hlayout, -, -⟩ := layout_channelCall k x p
  refine ⟨dif_pos p.axis.isLt, ?_, channel, hlayout⟩
  rw [Kernel.channelCall, p.length_scaleRow, p.length_zeroPointRow]

/-- Backward over a whole tensor gives one gradient by the scale and one by the zero point. -/
theorem TensorCall.failsWith_backward (call : TensorCall s) (dy : AnyTensor Single) (t : Tracer) :
    FailsWith ((call.backward dy).run t).1 (outputGradientFault? s dy.shape) ∧
      ∀ g, ((call.backward dy).run t).1 = .ok g → g.IsFor s 1 := by
  rw [backward_eq]
  refine ⟨(failsWith_outputGradient s dy).map _, fun g hg => ?_⟩
  obtain ⟨dy', -, rfl⟩ := map_eq_ok.mp hg
  exact ⟨rfl, rfl, rfl⟩

/-- Backward along an axis gives one gradient by the scale and one by the zero point for every
position. -/
theorem failsWith_backward_channelCall (k : Kernel) (x : Tensor Single s) (p : ChannelParameters s)
    (dy : AnyTensor Single) (t : Tracer) :
    FailsWith (((k.channelCall x p).backward dy).run t).1 (outputGradientFault? s dy.shape) ∧
      ∀ g, (((k.channelCall x p).backward dy).run t).1 = .ok g → g.IsFor s (s.get p.axis) := by
  rw [ChannelCall.backward_eq]
  constructor
  · exact (failsWith_outputGradient s dy).bind fun dy' _ =>
      ⟨_, gradients_channelCall k x p dy'⟩
  · intro g hg
    obtain ⟨dy', -, hgradients⟩ := bind_eq_ok.mp hg
    rw [gradients_channelCall] at hgradients
    cases hgradients
    exact ⟨rfl, List.length_ofFn, List.length_ofFn⟩

/-! ### All operations along an axis -/

/-- **Errors along an axis**, for tensors of every shape, every axis and rows of every length,
however they are stored. Quantizing, dequantizing, fake quantization and the kernel's forward pass
fail with the fault of the rows that they lay out and succeed without one. Backward, of a call that
such a forward pass has returned as well as of a call over a whole tensor, fails exactly when the
output gradient has another shape than the input: the checks that it makes of the call itself
succeed. -/
theorem errors_along_axis (k : Kernel) (x : Tensor Single s) (axis : Nat)
    (scale zeroPoint : Row Single) (t : Tracer) :
    let fault (scaleFits zeroPointFits : Bool) :=
      s.axisFault? axis scale.length scaleFits zeroPoint.length zeroPointFits
    let forward := ((k.forwardChannels x axis scale zeroPoint).run t).1
    (∀ clamped, FailsWith (quantizePerChannel k.grid clamped x scale zeroPoint axis)
      (fault (!scale.isBackward) zeroPoint.isStandard)) ∧
    FailsWith (dequantizePerChannel x scale zeroPoint axis)
      (fault scale.isStandard zeroPoint.isStandard) ∧
    FailsWith (fakeQuantizePerChannel k.grid x scale zeroPoint axis)
      (fault scale.isStandard zeroPoint.isStandard) ∧
    FailsWith forward (fault scale.isStandard (!zeroPoint.isBackward)) ∧
    (∀ call, forward = .ok call →
      ∃ a : Fin s.length, axis = a ∧ call.PassesChecks a ∧ ∀ dy t',
        FailsWith ((call.backward dy).run t').1 (outputGradientFault? s dy.shape) ∧
        ∀ g, ((call.backward dy).run t').1 = .ok g → g.IsFor s (s.get a)) ∧
    ∀ (call : TensorCall s) dy t',
      FailsWith ((call.backward dy).run t').1 (outputGradientFault? s dy.shape) ∧
      ∀ g, ((call.backward dy).run t').1 = .ok g → g.IsFor s 1 := by
  intro fault forward
  have hcheck (scaleFits zeroPointFits : Bool) :
      FailsWith (ChannelParameters.check s axis scale zeroPoint scaleFits zeroPointFits)
        (fault scaleFits zeroPointFits) :=
    ChannelParameters.failsWith_check s axis scale zeroPoint scaleFits zeroPointFits
  refine ⟨fun clamped => ?_, ?_, ?_, ?_, fun call hcall => ?_,
    fun call dy t' => call.failsWith_backward dy t'⟩
  · rw [quantizePerChannel_eq]
    exact (hcheck _ _).map _
  · rw [dequantizePerChannel_eq]
    exact (hcheck _ _).map _
  · rw [fakeQuantizePerChannel_eq]
    exact (hcheck _ _).map _
  · have hforward : forward =
        k.channelCall x <$> ChannelParameters.callCheck s axis scale zeroPoint :=
      forwardChannels_fst k x axis scale zeroPoint t
    rw [hforward]
    exact (hcheck _ _).map _
  · -- the call holds parameters that forward has checked
    obtain ⟨p, ⟨haxis, -, -⟩, rfl⟩ := forwardChannels_ok hcall
    exact ⟨p.axis, haxis, passesChecks_channelCall k x p,
      fun dy t' => failsWith_backward_channelCall k x p dy t'⟩

/-- Along an axis without positions there is a call for no parameters at all. It takes an output
gradient of its own shape and refuses one that has as many elements in another shape. -/
theorem errors_along_empty_axis :
    let k : Kernel := { grid := ⟨0, 15, by decide⟩, gradientFactor := 1 }
    let x : Tensor Single [2, 0] := Tensor.ofFn fun _ => 1
    let dy : Tensor Single [0] := Tensor.ofFn fun _ => 1
    let none : Row Single := .ofList []
    ∃ call, ((k.forwardChannels x 1 none none).run Tracer.fresh).1 = .ok call ∧
      ((call.backward ⟨[0], dy⟩).run Tracer.fresh).1 =
        .error (.shapeMismatch "grad_output" [2, 0] [0]) ∧
      ∃ g, ((call.backward ⟨[2, 0], x⟩).run Tracer.fresh).1 = .ok g ∧ g.scale.length = 0 := by
  intro k x dy none
  obtain ⟨-, -, -, ⟨call, hcall⟩, hbackward, -⟩ := errors_along_axis k x 1 none none Tracer.fresh
  obtain ⟨a, ha, -, hgradients⟩ := hbackward call hcall
  obtain ⟨g, hg⟩ := (hgradients ⟨[2, 0], x⟩ Tracer.fresh).1
  have hfor := (hgradients ⟨[2, 0], x⟩ Tracer.fresh).2 g hg
  refine ⟨call, hcall, (hgradients ⟨[0], dy⟩ Tracer.fresh).1, g, hg, ?_⟩
  rw [hfor.scale, List.get_eq_getElem]
  simp only [← ha]
  rfl

/-- Two scales for two positions, stored backwards: the numbers fit, and all four operations
fail. -/
theorem errors_along_reversed_rows :
    let k : Kernel := { grid := ⟨0, 15, by decide⟩, gradientFactor := 1 }
    let x : Tensor Single [2, 3] := Tensor.ofFn fun _ => 1
    let scale : Row Single := { values := [2, 1], stride := -1 }
    let zeroPoint : Row Single := .ofList [0, 0]
    let e : Error := .shapeMismatch "scale" [2, 1] [2]
    [2, 3][0]? = some scale.length ∧ [2, 3][0]? = some zeroPoint.length ∧
      quantizePerChannel k.grid true x scale zeroPoint 0 = .error e ∧
      dequantizePerChannel x scale zeroPoint 0 = .error e ∧
      fakeQuantizePerChannel k.grid x scale zeroPoint 0 = .error e ∧
      ((k.forwardChannels x 0 scale zeroPoint).run Tracer.fresh).1 = .error e :=
  ⟨rfl, rfl, rfl, rfl, rfl, rfl⟩

end FakeQuant
