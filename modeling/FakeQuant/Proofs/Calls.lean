import FakeQuant.Kernel.Call
import FakeQuant.Proofs.Channels
import FakeQuant.Proofs.Outcomes

/-!
# Kernel calls

What forward and backward of the two kernels come to, whatever the tracer has recorded. A forward
pass along an axis gives a call exactly on parameters that pass the check
(`forwardChannels_fst`), so the call holds checked parameters. Backward copies them before it lays
them out, so the checks that it makes once more all succeed however the rows are stored, and
`gradients_channelCall` says what it returns.
-/

namespace FakeQuant

variable {s : Shape}

/-! ### Forward -/

/-- The call that a forward pass over a whole tensor returns. -/
def Kernel.tensorCall (k : Kernel) (x : Tensor Single s) (scale zeroPoint : Single) :
    TensorCall s where
  kernel := k
  input := x
  scale := scale
  zeroPoint := zeroPoint
  output := fakeQuantize k.grid x scale (k.grid.effectiveZeroPoint zeroPoint)

theorem forwardTensor_fst (k : Kernel) (x : Tensor Single s) (scale zeroPoint : Single)
    (t : Tracer) :
    ((k.forwardTensor x scale zeroPoint).run t).1 = k.tensorCall x scale zeroPoint := by
  rw [Kernel.forwardTensor, StateT.run_bind, run_span]
  rfl

/-- The parameters with the zero points that are applied. -/
def ChannelParameters.effective (p : ChannelParameters s) (g : Grid) : ChannelParameters s :=
  p.mapZeroPoint g.effectiveZeroPoint

theorem ChannelParameters.apply_effective (p : ChannelParameters s) (g : Grid)
    (f : Single → Single → Single → Single) (x : Tensor Single s) :
    (p.effective g).apply f x =
      p.apply (fun v scale zeroPoint => f v scale (g.effectiveZeroPoint zeroPoint)) x :=
  p.apply_mapZeroPoint _ _ _

/-- The check of a forward pass along an axis. It lays out the scales and the zero points that are
applied, which are a function of the given ones. -/
def ChannelParameters.callCheck (s : Shape) (axis : Nat) (scale zeroPoint : Row Single) :
    Except Error (ChannelParameters s) :=
  check s axis scale zeroPoint scale.isStandard (!zeroPoint.isBackward)

/-- Fake quantization with the zero points that are applied makes this check. -/
theorem fakeQuantizePerChannel_effective (g : Grid) (x : Tensor Single s)
    (scale zeroPoint : Row Single) (axis : Nat) :
    fakeQuantizePerChannel g x scale (zeroPoint.map g.effectiveZeroPoint) axis =
      (fun p => fakeQuantizeAlong g x (p.effective g)) <$>
        ChannelParameters.callCheck s axis scale zeroPoint := by
  rw [fakeQuantizePerChannel_eq, Row.isStandard_map, ChannelParameters.check_mapZeroPoint,
    ← comp_map]
  rfl

/-- The call that a forward pass along an axis returns for checked parameters. -/
def Kernel.channelCall (k : Kernel) (x : Tensor Single s) (p : ChannelParameters s) :
    ChannelCall s where
  kernel := k
  input := x
  axis := p.axis
  scale := p.scaleRow
  zeroPoint := p.zeroPointRow
  output := fakeQuantizeAlong k.grid x (p.effective k.grid)

/-- A forward pass along an axis gives a call for exactly the parameters that pass the check. -/
theorem forwardChannels_fst (k : Kernel) (x : Tensor Single s) (axis : Nat)
    (scale zeroPoint : Row Single) (t : Tracer) :
    ((k.forwardChannels x axis scale zeroPoint).run t).1 =
      k.channelCall x <$> ChannelParameters.callCheck s axis scale zeroPoint := by
  rw [Kernel.forwardChannels, StateT.run_bind, run_span]
  change Except.map _ (fakeQuantizePerChannel k.grid x scale _ axis) = _
  rw [fakeQuantizePerChannel_effective]
  cases hp : ChannelParameters.callCheck s axis scale zeroPoint with
  | error e => rfl
  | ok p =>
    obtain ⟨⟨rfl, rfl, rfl⟩, -⟩ := ChannelParameters.check_eq_ok.mp hp
    rfl

/-- The strides of a row of so many scales and a row of as many zero points with which a forward
pass along an axis succeeds: the scales are laid out themselves, and of the zero points a function
is. -/
structure CallStrides (n : Nat) where
  scale : Int
  zeroPoint : Int
  scale_standard : n ≤ 1 ∨ scale = 1
  zeroPoint_forward : n ≤ 1 ∨ zeroPoint ≠ -1

namespace CallStrides

variable {n : Nat}

/-- The strides of new rows. -/
def new (n : Nat) : CallStrides n where
  scale := 1
  zeroPoint := 1
  scale_standard := .inr rfl
  zeroPoint_forward := .inr (by decide)

/-- A row of scales. -/
def scaleRow (d : CallStrides n) (scale : Vector Single n) : Row Single :=
  .ofVector scale d.scale

/-- A row of zero points. -/
def zeroPointRow (d : CallStrides n) (zeroPoint : Vector Single n) : Row Single :=
  .ofVector zeroPoint d.zeroPoint

theorem isStandard_scaleRow (d : CallStrides n) (scale : Vector Single n) :
    (d.scaleRow scale).isStandard = true := by
  rw [scaleRow, Row.isStandard, Row.length_ofVector]
  exact decide_eq_true d.scale_standard

theorem isBackward_zeroPointRow (d : CallStrides n) (zeroPoint : Vector Single n) :
    (d.zeroPointRow zeroPoint).isBackward = false := by
  rw [zeroPointRow, Row.isBackward, Row.length_ofVector]
  have := d.zeroPoint_forward
  exact decide_eq_false fun h => by
    change 1 < n ∧ d.zeroPoint = -1 at h
    omega

end CallStrides

/-- A forward pass along an axis with one scale and one zero point for every position. -/
theorem forwardChannels_stored (k : Kernel) (x : Tensor Single s) (axis : Fin s.length)
    (scale zeroPoint : Vector Single (s.get axis)) (d : CallStrides (s.get axis)) (t : Tracer) :
    ((k.forwardChannels x axis (d.scaleRow scale) (d.zeroPointRow zeroPoint)).run t).1 =
      .ok (k.channelCall x ⟨axis, scale, zeroPoint, d.scale, d.zeroPoint⟩) := by
  rw [forwardChannels_fst, ChannelParameters.callCheck, d.isStandard_scaleRow,
    d.isBackward_zeroPointRow]
  let p : ChannelParameters s := ⟨axis, scale, zeroPoint, d.scale, d.zeroPoint⟩
  exact congrArg (k.channelCall x <$> ·) p.check_rows

/-- A call that a forward pass along an axis has returned holds parameters that passed the check. -/
theorem forwardChannels_ok {k : Kernel} {x : Tensor Single s} {axis : Nat}
    {scale zeroPoint : Row Single} {t : Tracer} {call : ChannelCall s}
    (h : ((k.forwardChannels x axis scale zeroPoint).run t).1 = .ok call) :
    ∃ p : ChannelParameters s,
      (axis = p.axis ∧ scale = p.scaleRow ∧ zeroPoint = p.zeroPointRow) ∧
      call = k.channelCall x p := by
  rw [forwardChannels_fst, map_eq_ok] at h
  obtain ⟨p, hp, rfl⟩ := h
  exact ⟨p, (ChannelParameters.check_eq_ok.mp hp).1, rfl⟩

/-! ### Backward -/

/-- An output gradient of the right shape is taken as it is. -/
theorem outputGradient_self (dy : Tensor Single s) : outputGradient s ⟨s, dy⟩ = .ok dy :=
  dif_pos rfl

/-- Backward over a whole tensor fails if the output gradient is not taken, and never otherwise. -/
theorem TensorCall.backward_eq (c : TensorCall s) (dy : AnyTensor Single) (t : Tracer) :
    ((c.backward dy).run t).1 = c.gradients <$> outputGradient s dy := by
  rw [backward]
  cases outputGradient s dy with
  | error e => rfl
  | ok g =>
    change ((span _ _ _).run t).1 = _
    rw [run_span]
    rfl

theorem ChannelCall.backward_eq (c : ChannelCall s) (dy : AnyTensor Single) (t : Tracer) :
    ((c.backward dy).run t).1 = outputGradient s dy >>= c.gradients := by
  rw [backward]
  cases outputGradient s dy with
  | error e => rfl
  | ok g =>
    change ((span _ _ _).run t).1 = _
    rw [run_span]
    rfl

theorem TensorCall.backward_fst (c : TensorCall s) (dy : Tensor Single s) (t : Tracer) :
    ((c.backward ⟨s, dy⟩).run t).1 = .ok (c.gradients dy) := by
  rw [backward_eq, outputGradient_self]
  rfl

theorem ChannelCall.backward_fst (c : ChannelCall s) (dy : Tensor Single s) (t : Tracer) :
    ((c.backward ⟨s, dy⟩).run t).1 = c.gradients dy := by
  rw [backward_eq, outputGradient_self]
  rfl

/-- Stored tensors and their views list the elements of a slice in the same order. -/
theorem toList_indexAxis_view {α : Type} (t : Tensor α s) (axis : Fin s.length)
    (c : Fin (s.get axis)) : (t.view.indexAxis axis c).toList = (t.slice axis c).toList := by
  simp only [View.toList, Tensor.toList, View.get_indexAxis, Tensor.get_view, Tensor.get_slice]

/-- The channel of every element of a call, laid out as the backward pass does it. -/
def ChannelCall.layout (c : ChannelCall s) : Except Error (View Channel s) := do
  broadcastTo (← channelView "scale" c.channels s c.axis) s

/-- The gradients of a call whose axis, numbers of parameters and layout are fine. -/
theorem ChannelCall.gradients_of_layout {c : ChannelCall s} {axis : Fin s.length}
    {channel : View Channel s} (haxis : channelAxis s c.axis = .ok axis)
    (hlength : c.zeroPoint.length = c.scale.length) (hlayout : c.layout = .ok channel)
    (dy : Tensor Single s) :
    c.gradients dy =
      let dx := straightThrough c.kernel.grid dy (c.codes channel)
      let terms := (c.terms channel (c.codes channel) dx).view
      let sums := List.ofFn fun position => sumTerms (terms.indexAxis axis position).toList
      .ok
        { input := ⟨s, dx⟩
          scale := sums.map fun sum => sum.1 * c.kernel.gradientFactor
          zeroPoint := sums.map fun sum => sum.2 * c.kernel.gradientFactor } := by
  obtain ⟨unit, hunit, hbroadcast⟩ := bind_eq_ok.1 hlayout
  rw [gradients, haxis]
  change (if _ ≠ _ then _ else _ : Except Error Gradients) = _
  rw [if_neg (not_not_intro hlength), hunit]
  change (broadcastTo unit s >>= _) = _
  rw [hbroadcast]
  rfl

section Checked

variable (k : Kernel) (x : Tensor Single s) (p : ChannelParameters s) (dy : Tensor Single s)

/-- What the elements at a position are quantized with. -/
def ChannelParameters.channel (g : Grid) (p : ChannelParameters s) (c : Fin (s.get p.axis)) :
    Channel where
  scale := p.scaleAt c
  inverse := 1 / p.scaleAt c
  zeroPoint := g.effectiveZeroPoint (p.zeroPointAt c)

/-- The input gradient of a call on checked parameters. -/
def Kernel.inputGradientAlong : Tensor Single s :=
  straightThrough k.grid dy (quantizeAlong k.grid false x (p.effective k.grid))

/-- What the elements of a call on checked parameters contribute to the parameter gradients. -/
def Kernel.termsAlong : Tensor (Single × Single) s :=
  Tensor.ofFn fun i =>
    let channel := p.channel k.grid (i.coordinate p.axis)
    parameterTerms k.grid (x.get i) ((fakeQuantizeAlong k.grid x (p.effective k.grid)).get i)
      ((quantizeAlong k.grid false x (p.effective k.grid)).get i)
      ((k.inputGradientAlong x p dy).get i) channel.scale channel.zeroPoint

/-- Both sums over the terms at one position of the axis. -/
def Kernel.sumsAlong (c : Fin (s.get p.axis)) : Single × Single :=
  sumTerms ((k.termsAlong x p dy).slice p.axis c).toList

/-- The channels of a call on checked parameters, one for each position of the axis. -/
theorem channels_channelCall :
    (k.channelCall x p).channels = .ofList (Vector.ofFn (p.channel k.grid)).toList := by
  refine congrArg Row.ofList (List.ext_getElem ?_ fun c hc hc' => ?_)
  · simp [ChannelCall.effectiveZeroPoint, Kernel.channelCall, ChannelParameters.scaleRow,
      ChannelParameters.zeroPointRow, Row.ofVector]
  · simp [ChannelCall.effectiveZeroPoint, Kernel.channelCall, ChannelParameters.scaleRow,
      ChannelParameters.zeroPointRow, Row.ofVector, ChannelParameters.channel,
      ChannelParameters.scaleAt, ChannelParameters.zeroPointAt]
    exact ⟨rfl, rfl, rfl⟩

/-- On checked parameters, every element stands beside the channel of its position. -/
theorem layout_channelCall :
    ∃ channel, (k.channelCall x p).layout = .ok channel ∧
      (∀ i, channel.get i = p.channel k.grid (i.coordinate p.axis)) ∧
      (k.channelCall x p).codes channel = quantizeAlong k.grid false x (p.effective k.grid) := by
  obtain ⟨u, w, hu, hw, hget⟩ :=
    channelView_ofVector "scale" p.axis (Vector.ofFn (p.channel k.grid))
      (Row.isStandard_ofList (Vector.ofFn (p.channel k.grid)).toList)
  have hchannel : ∀ i, w.get i = p.channel k.grid (i.coordinate p.axis) := fun i => by
    rw [hget, get_vectorOfFn]
  refine ⟨w, ?_, hchannel, ?_⟩
  · rw [ChannelCall.layout, channels_channelCall]
    exact bind_eq_ok.2 ⟨u, hu, hw⟩
  · rw [quantizeAlong, ChannelParameters.apply_effective]
    simp only [ChannelCall.codes, hchannel]
    rfl

/-- With the channels of the positions, the contributions of the elements are those of the call. -/
theorem terms_channelCall {channel : View Channel s}
    (hchannel : ∀ i, channel.get i = p.channel k.grid (i.coordinate p.axis))
    (hcodes : (k.channelCall x p).codes channel =
      quantizeAlong k.grid false x (p.effective k.grid)) :
    (k.channelCall x p).terms channel ((k.channelCall x p).codes channel)
      (k.inputGradientAlong x p dy) = k.termsAlong x p dy := by
  simp only [ChannelCall.terms, hcodes, hchannel]
  rfl

/-- On checked parameters every check of the backward pass along an axis succeeds. -/
theorem gradients_channelCall :
    (k.channelCall x p).gradients dy =
      .ok
        { input := ⟨s, k.inputGradientAlong x p dy⟩
          scale := List.ofFn fun c => (k.sumsAlong x p dy c).1 * k.gradientFactor
          zeroPoint := List.ofFn fun c => (k.sumsAlong x p dy c).2 * k.gradientFactor } := by
  obtain ⟨channel, hlayout, hchannel, hcodes⟩ := layout_channelCall k x p
  have haxis : channelAxis s (k.channelCall x p).axis = .ok p.axis := dif_pos p.axis.isLt
  have hlength : (k.channelCall x p).zeroPoint.length = (k.channelCall x p).scale.length := by
    rw [Kernel.channelCall, p.length_scaleRow, p.length_zeroPointRow]
  have hterms := terms_channelCall k x p dy hchannel hcodes
  have hdx : straightThrough (k.channelCall x p).kernel.grid dy
      ((k.channelCall x p).codes channel) = k.inputGradientAlong x p dy := by
    rw [hcodes]
    rfl
  rw [ChannelCall.gradients_of_layout haxis hlength hlayout]
  simp only [hdx, hterms, toList_indexAxis_view, List.map_ofFn]
  rfl

theorem backward_channelCall (t : Tracer) :
    (((k.channelCall x p).backward ⟨s, dy⟩).run t).1 =
      .ok
        { input := ⟨s, k.inputGradientAlong x p dy⟩
          scale := List.ofFn fun c => (k.sumsAlong x p dy c).1 * k.gradientFactor
          zeroPoint := List.ofFn fun c => (k.sumsAlong x p dy c).2 * k.gradientFactor } :=
  (ChannelCall.backward_fst _ dy t).trans (gradients_channelCall k x p dy)

end Checked

end FakeQuant
