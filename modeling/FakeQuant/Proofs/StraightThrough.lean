import FakeQuant.Proofs.GridCodes
import FakeQuant.Proofs.Slices

/-!
# Straight-through gradients

Backward computes the codes of a call once more, without moving them into the grid, and masks the
output gradient with them. `backward_sees_forward_codes` says that these are the codes behind the
output: with the scale and the applied zero point of an element, the output is the dequantized
clamped code, and the mask is open where the clamp changed nothing (`PassesThrough`).

What is masked has no influence (`masked_gradients_unused`): backward looks at an output gradient
through the mask only, so two output gradients that agree under the open mask give the same
gradients; and the parameter gradients of a channel are made of what belongs to the channel.
-/

namespace FakeQuant

open Binary

variable {s : Shape}

/-! ### One element -/

/-- What forward and backward make of an element with a code that is not yet moved into the grid:
the output `y` is the dequantized clamped code, and the input gradient `dx` is the output gradient
`dy` where the code lies on the grid and the positive zero elsewhere. -/
structure PassesThrough (g : Grid) (code scale zeroPoint y dy dx : Single) : Prop where
  output : y = dequantizeValue (g.clamp code) scale zeroPoint
  inside : g.least ≤ code ∧ code ≤ g.greatest →
    dx = dy ∧ y = dequantizeValue code scale zeroPoint
  outside : ¬ (g.least ≤ code ∧ code ≤ g.greatest) → dx = zero false
  below : code < g.least → dx = zero false ∧ y = dequantizeValue g.least scale zeroPoint
  above : g.greatest < code → dx = zero false ∧ y = dequantizeValue g.greatest scale zeroPoint
  /-- A number outside the grid lies on one side of it. -/
  sides : code.isNaN = false → ¬ (g.least ≤ code ∧ code ≤ g.greatest) →
    code < g.least ∨ g.greatest < code

theorem inputGradient_of_contains {g : Grid} {code : Single} (dy : Single)
    (h : g.contains code = true) : inputGradient g dy code = dy :=
  if_pos h

theorem inputGradient_of_not_contains {g : Grid} {code : Single} (dy : Single)
    (h : g.contains code = false) : inputGradient g dy code = zero false := by
  rw [inputGradient, h, if_neg Bool.false_ne_true]
  exact zero_eq

/-- Fake quantization and the mask use one code. -/
theorem passesThrough (g : Grid) (x scale inverse zeroPoint dy : Single) :
    PassesThrough g (quantizeValue x inverse zeroPoint) scale zeroPoint
      (fakeQuantizeValue g x scale inverse zeroPoint) dy
      (inputGradient g dy (quantizeValue x inverse zeroPoint)) := by
  rw [fakeQuantizeValue]
  -- nothing but the code connects the two passes
  generalize quantizeValue x inverse zeroPoint = code
  constructor
  case output => rfl
  case inside =>
    intro h
    have hin := g.contains_iff.2 h
    exact ⟨inputGradient_of_contains dy hin, by rw [g.clamp_of_contains hin]⟩
  case outside =>
    intro h
    exact inputGradient_of_not_contains dy (Bool.eq_false_iff.2 (mt g.contains_iff.1 h))
  case below =>
    intro h
    exact ⟨inputGradient_of_not_contains dy (g.contains_of_lt h), by rw [g.clamp_of_lt h]⟩
  case above =>
    intro h
    exact ⟨inputGradient_of_not_contains dy (g.contains_of_gt h), by rw [g.clamp_of_gt h]⟩
  case sides =>
    intro hcode h
    rcases g.cases_code hcode with hlt | hin | hgt
    · exact .inl hlt
    · exact absurd (g.contains_iff.1 hin) h
    · exact .inr hgt

/-! ### Whole calls -/

theorem TensorCall.get_codes (c : TensorCall s) (i : Index s) :
    c.codes.get i = quantizeValue (c.input.get i) (1 / c.scale) c.effectiveZeroPoint :=
  Tensor.get_map _ _ i

theorem TensorCall.get_output (k : Kernel) (x : Tensor Single s) (scale zeroPoint : Single)
    (i : Index s) :
    (k.tensorCall x scale zeroPoint).output.get i =
      fakeQuantizeValue k.grid (x.get i) scale (1 / scale) (k.grid.effectiveZeroPoint zeroPoint) :=
  Tensor.get_map _ _ i

/-- The codes of a call along an axis, with the parameters of each element's position. -/
theorem get_codesAlong (g : Grid) (x : Tensor Single s) (p : ChannelParameters s) (i : Index s) :
    (quantizeAlong g false x (p.effective g)).get i =
      quantizeValue (x.get i) (1 / p.scaleAt (i.coordinate p.axis))
        (g.effectiveZeroPoint (p.zeroPointAt (i.coordinate p.axis))) := by
  rw [quantizeAlong, ChannelParameters.apply_effective]
  exact p.get_apply _ _ i

theorem get_outputAlong (g : Grid) (x : Tensor Single s) (p : ChannelParameters s) (i : Index s) :
    (fakeQuantizeAlong g x (p.effective g)).get i =
      fakeQuantizeValue g (x.get i) (p.scaleAt (i.coordinate p.axis))
        (1 / p.scaleAt (i.coordinate p.axis))
        (g.effectiveZeroPoint (p.zeroPointAt (i.coordinate p.axis))) := by
  rw [fakeQuantizeAlong, ChannelParameters.apply_effective]
  exact p.get_apply _ _ i

theorem get_straightThrough (g : Grid) (dy codes : Tensor Single s) (i : Index s) :
    (straightThrough g dy codes).get i = inputGradient g (dy.get i) (codes.get i) :=
  Tensor.get_zipWith _ _ _ i

theorem get_inputGradientAlong (k : Kernel) (x dy : Tensor Single s) (p : ChannelParameters s)
    (i : Index s) :
    (k.inputGradientAlong x p dy).get i =
      inputGradient k.grid (dy.get i)
        (quantizeValue (x.get i) (1 / p.scaleAt (i.coordinate p.axis))
          (k.grid.effectiveZeroPoint (p.zeroPointAt (i.coordinate p.axis)))) := by
  rw [Kernel.inputGradientAlong, get_straightThrough, get_codesAlong]

/-- **Backward sees the codes that forward used**, for both kernels and every output gradient of the
shape of the input. The codes are those that backward computes, for a call along an axis with the
channels as it lays them out; the element's scale and zero point are those of its position. -/
theorem backward_sees_forward_codes (k : Kernel) (x dy : Tensor Single s) (t t' : Tracer) :
    (∀ scale zeroPoint,
      let call := ((k.forwardTensor x scale zeroPoint).run t).1
      ∃ g dx, ((call.backward ⟨s, dy⟩).run t').1 = .ok g ∧ g.input = ⟨s, dx⟩ ∧
        ∀ i, PassesThrough k.grid (call.codes.get i) scale (k.grid.effectiveZeroPoint zeroPoint)
          (call.output.get i) (dy.get i) (dx.get i)) ∧
    (∀ axis scale zeroPoint call,
      ((k.forwardChannels x axis scale zeroPoint).run t).1 = .ok call →
      ∃ p : ChannelParameters s,
        (axis = p.axis ∧ scale = p.scaleRow ∧ zeroPoint = p.zeroPointRow) ∧
        ∃ channel g dx, call.layout = .ok channel ∧
          ((call.backward ⟨s, dy⟩).run t').1 = .ok g ∧ g.input = ⟨s, dx⟩ ∧
          ∀ i, PassesThrough k.grid ((call.codes channel).get i)
            (p.scaleAt (i.coordinate p.axis))
            (k.grid.effectiveZeroPoint (p.zeroPointAt (i.coordinate p.axis)))
            (call.output.get i) (dy.get i) (dx.get i)) := by
  constructor
  · intro scale zeroPoint
    simp only [forwardTensor_fst]
    refine ⟨_, _, TensorCall.backward_fst _ dy t', rfl, fun i => ?_⟩
    rw [straightThrough, Tensor.get_zipWith, TensorCall.get_codes, TensorCall.get_output]
    exact passesThrough _ _ _ _ _ _
  · intro axis scale zeroPoint call h
    obtain ⟨p, hp, rfl⟩ := forwardChannels_ok h
    obtain ⟨channel, hlayout, -, hcodes⟩ := layout_channelCall k x p
    refine ⟨p, hp, channel, _, _, hlayout, backward_channelCall k x p dy t', rfl, fun i => ?_⟩
    rw [hcodes, Kernel.inputGradientAlong, straightThrough, Tensor.get_zipWith, get_codesAlong,
      Kernel.channelCall, get_outputAlong]
    exact passesThrough _ _ _ _ _ _

/-- The gradient passes an element on the grid and stops at one above it, and a call along an axis
has a backward pass with the channels of all elements. -/
theorem backward_sees_codes_of_outlier :
    let k : Kernel := { grid := ⟨0, 15, by decide⟩, gradientFactor := 1 }
    let x : Tensor Single [2] := Tensor.ofFn fun i => if i.1 = 0 then 3 else 40
    let call := ((k.forwardTensor x 1 0).run Tracer.fresh).1
    (∃ (g : Gradients) (dx : Tensor Single [2]),
        ((call.backward ⟨[2], x⟩).run Tracer.fresh).1 = .ok g ∧ g.input = ⟨[2], dx⟩ ∧
          ∀ i, (i.1 = 0 → dx.get i = x.get i) ∧ (i.1 ≠ 0 → dx.get i = zero false)) ∧
      ∃ call,
        ((k.forwardChannels x 0 (.ofList [1, 2]) (.ofList [0, 3])).run Tracer.fresh).1 =
          .ok call ∧
        ∃ channel g, call.layout = .ok channel ∧
          ((call.backward ⟨[2], x⟩).run Tracer.fresh).1 = .ok g := by
  intro k x call
  obtain ⟨htensor, hchannels⟩ := backward_sees_forward_codes k x x Tracer.fresh Tracer.fresh
  constructor
  · obtain ⟨g, dx, hbackward, hinput, hpass⟩ := htensor 1 0
    have hcode (i : Index [2]) : ((k.forwardTensor x 1 0).run Tracer.fresh).1.codes.get i =
        quantizeValue (if i.1 = 0 then 3 else 40) (1 / 1) (k.grid.effectiveZeroPoint 0) := by
      rw [forwardTensor_fst, TensorCall.get_codes, Kernel.tensorCall, Tensor.get_ofFn]
      rfl
    refine ⟨g, dx, hbackward, hinput, fun i => ⟨fun hi => ?_, fun hi => ?_⟩⟩
    · refine ((hpass i).inside ?_).1
      rw [hcode, if_pos hi]
      decide +kernel
    · refine (hpass i).outside ?_
      rw [hcode, if_neg hi]
      decide +kernel
  · have hcall : ((k.forwardChannels x 0 (.ofList [1, 2]) (.ofList [0, 3])).run Tracer.fresh).1 =
        .ok (k.channelCall x ⟨0, #v[1, 2], #v[0, 3], 1, 1⟩) := forwardChannels_fst _ _ _ _ _ _
    obtain ⟨p, -, channel, g, dx, hlayout, hbackward, -⟩ :=
      hchannels 0 (.ofList [1, 2]) (.ofList [0, 3]) _ hcall
    exact ⟨_, hcall, channel, g, hlayout, hbackward⟩

/-! ### What the mask hides -/

/-- Two output gradients that agree where the codes lie on the grid have one input gradient. -/
theorem straightThrough_congr {g : Grid} {dy dy' codes : Tensor Single s}
    (h : ∀ i, g.contains (codes.get i) = true → dy.get i = dy'.get i) :
    straightThrough g dy codes = straightThrough g dy' codes := by
  rw [straightThrough, straightThrough, Tensor.zipWith, Tensor.zipWith]
  refine congrArg Tensor.ofFn (funext fun i => ?_)
  cases hin : g.contains (codes.get i) with
  | true => rw [h i hin]
  | false => rw [inputGradient_of_not_contains _ hin, inputGradient_of_not_contains _ hin]

/-- Backward over a whole tensor looks at the output gradient through the mask only. -/
theorem TensorCall.gradients_congr {c : TensorCall s} {dy dy' : Tensor Single s}
    (h : ∀ i, c.kernel.grid.contains (c.codes.get i) = true → dy.get i = dy'.get i) :
    c.gradients dy = c.gradients dy' := by
  rw [gradients, gradients, straightThrough_congr h]

theorem gradients_channelCall_congr {k : Kernel} {x dy dy' : Tensor Single s}
    {p : ChannelParameters s}
    (h : ∀ i, k.grid.contains ((quantizeAlong k.grid false x (p.effective k.grid)).get i) = true →
      dy.get i = dy'.get i) :
    (k.channelCall x p).gradients dy = (k.channelCall x p).gradients dy' := by
  have hdx : k.inputGradientAlong x p dy = k.inputGradientAlong x p dy' :=
    straightThrough_congr h
  have hterms : k.termsAlong x p dy = k.termsAlong x p dy' := by
    rw [Kernel.termsAlong, Kernel.termsAlong, hdx]
  simp only [gradients_channelCall, Kernel.sumsAlong, hdx, hterms]

theorem Tensor.slice_congr {α : Type} {x x' : Tensor α s} {axis : Fin s.length}
    {c : Fin (s.get axis)} (h : ∀ i, i.coordinate axis = c → x.get i = x'.get i) :
    x.slice axis c = x'.slice axis c :=
  congrArg Tensor.ofFn (funext fun i => h _ (Index.coordinate_insert axis c i))

/-- The sums of a position are made of its slices and its parameters. -/
theorem sumsAlong_congr (k : Kernel) {x x' dy dy' : Tensor Single s} {axis : Fin s.length}
    {scale scale' zeroPoint zeroPoint' : Vector Single (s.get axis)}
    {d d' : CallStrides (s.get axis)} {c : Fin (s.get axis)}
    (hscale : scale.get c = scale'.get c) (hzero : zeroPoint.get c = zeroPoint'.get c)
    (hx : x.slice axis c = x'.slice axis c) (hdy : dy.slice axis c = dy'.slice axis c) :
    k.sumsAlong x ⟨axis, scale, zeroPoint, d.scale, d.zeroPoint⟩ dy c =
      k.sumsAlong x' ⟨axis, scale', zeroPoint', d'.scale, d'.zeroPoint⟩ dy' c := by
  -- the passes over the slices are the same pass
  have hcall : k.sliceCall x ⟨axis, scale, zeroPoint, d.scale, d.zeroPoint⟩ c =
      k.sliceCall x' ⟨axis, scale', zeroPoint', d'.scale, d'.zeroPoint⟩ c := by
    simp only [Kernel.sliceCall, ChannelParameters.scaleAt,
      ChannelParameters.zeroPointAt, hscale, hzero, hx]
  rw [Kernel.sumsAlong, Kernel.sumsAlong, slice_termsAlong, slice_termsAlong,
    slice_inputGradientAlong, slice_inputGradientAlong, hcall, hdy]

theorem getElem?_listOfFn {α : Type} {n : Nat} (f : Fin n → α) (c : Fin n) :
    (List.ofFn f)[c.val]? = some (f c) := by
  rw [List.getElem?_ofFn, dif_pos c.isLt]

/-- Two gradients have the same parameter gradients at a position. -/
def Gradients.AgreeAt (g g' : Gradients) (c : Nat) : Prop :=
  ∃ dscale dzero, g.scale[c]? = some dscale ∧ g'.scale[c]? = some dscale ∧
    g.zeroPoint[c]? = some dzero ∧ g'.zeroPoint[c]? = some dzero

/-- **Masked output gradients are not used.** A call of either kernel returns the same gradients for
two output gradients that agree at every element whose code lies on the grid. In a pass along an
axis the parameter gradients of a position are the same for any two passes that agree in the
parameters of the position and in the elements there, whatever stands at the other positions. -/
theorem masked_gradients_unused (k : Kernel) (x dy dy' : Tensor Single s) (t t' : Tracer) :
    (∀ scale zeroPoint,
      let call := ((k.forwardTensor x scale zeroPoint).run t).1
      (∀ i, k.grid.contains (call.codes.get i) = true → dy.get i = dy'.get i) →
      ∃ g, ((call.backward ⟨s, dy⟩).run t').1 = .ok g ∧
        ((call.backward ⟨s, dy'⟩).run t').1 = .ok g) ∧
    (∀ axis scale zeroPoint call,
      ((k.forwardChannels x axis scale zeroPoint).run t).1 = .ok call →
      ∃ channel, call.layout = .ok channel ∧
        ((∀ i, k.grid.contains ((call.codes channel).get i) = true → dy.get i = dy'.get i) →
          ∃ g, ((call.backward ⟨s, dy⟩).run t').1 = .ok g ∧
            ((call.backward ⟨s, dy'⟩).run t').1 = .ok g)) ∧
    (∀ (axis : Fin s.length) (scale scale' zeroPoint zeroPoint' : Vector Single (s.get axis))
      (d d' : CallStrides (s.get axis)) (x' : Tensor Single s) (c : Fin (s.get axis)),
      scale.get c = scale'.get c → zeroPoint.get c = zeroPoint'.get c →
      (∀ i, i.coordinate axis = c → x.get i = x'.get i ∧ dy.get i = dy'.get i) →
      ∃ call call' g g',
        ((k.forwardChannels x axis (d.scaleRow scale) (d.zeroPointRow zeroPoint)).run t).1 =
          .ok call ∧
        ((k.forwardChannels x' axis (d'.scaleRow scale') (d'.zeroPointRow zeroPoint')).run t).1 =
          .ok call' ∧
        ((call.backward ⟨s, dy⟩).run t').1 = .ok g ∧
        ((call'.backward ⟨s, dy'⟩).run t').1 = .ok g' ∧ g.AgreeAt g' c) := by
  refine ⟨?tensor, ?channels, ?independence⟩
  case tensor =>
    intro scale zeroPoint
    simp only [forwardTensor_fst]
    intro h
    refine ⟨_, TensorCall.backward_fst _ dy t', ?_⟩
    have hgradients : (k.tensorCall x scale zeroPoint).gradients dy =
        (k.tensorCall x scale zeroPoint).gradients dy' := TensorCall.gradients_congr h
    rw [TensorCall.backward_fst, hgradients]
  case channels =>
    intro axis scale zeroPoint call h
    obtain ⟨p, -, rfl⟩ := forwardChannels_ok h
    obtain ⟨channel, hlayout, -, hcodes⟩ := layout_channelCall k x p
    refine ⟨channel, hlayout, fun hagree => ?_⟩
    rw [hcodes] at hagree
    refine ⟨_, backward_channelCall k x p dy t', ?_⟩
    rw [ChannelCall.backward_fst, ← gradients_channelCall_congr hagree, gradients_channelCall]
  case independence =>
    intro axis scale scale' zeroPoint zeroPoint' d d' x' c hscale hzero hagree
    have hsums : k.sumsAlong x ⟨axis, scale, zeroPoint, d.scale, d.zeroPoint⟩ dy c =
        k.sumsAlong x' ⟨axis, scale', zeroPoint', d'.scale, d'.zeroPoint⟩ dy' c :=
      sumsAlong_congr k hscale hzero (Tensor.slice_congr fun i hi => (hagree i hi).1)
        (Tensor.slice_congr fun i hi => (hagree i hi).2)
    refine ⟨_, _, _, _, forwardChannels_stored k x axis scale zeroPoint d t,
      forwardChannels_stored k x' axis scale' zeroPoint' d' t,
      backward_channelCall k x ⟨axis, scale, zeroPoint, d.scale, d.zeroPoint⟩ dy t',
      backward_channelCall k x' ⟨axis, scale', zeroPoint', d'.scale, d'.zeroPoint⟩ dy' t', ?_⟩
    refine ⟨_, _, getElem?_listOfFn _ c, ?_, getElem?_listOfFn _ c, ?_⟩
    · rw [getElem?_listOfFn, hsums]
    · rw [getElem?_listOfFn, hsums]

/-- An output gradient without value does no harm at elements above the grid, and changed elements
of the second position leave the parameter gradients of the first. -/
theorem masked_gradients_unused_by_outliers :
    let k : Kernel := { grid := ⟨0, 15, by decide⟩, gradientFactor := 1 }
    let x : Tensor Single [2] := Tensor.ofFn fun _ => 40
    let dy : Tensor Single [2] := Tensor.ofFn fun _ => nan
    let x' : Tensor Single [2] := Tensor.ofFn fun i => if i.1 = 0 then 40 else nan
    let call := ((k.forwardTensor x 1 0).run Tracer.fresh).1
    (∃ g, ((call.backward ⟨[2], x⟩).run Tracer.fresh).1 = .ok g ∧
        ((call.backward ⟨[2], dy⟩).run Tracer.fresh).1 = .ok g) ∧
      (∃ call channel,
        ((k.forwardChannels x 0 (.ofList [1, 2]) (.ofList [0, 3])).run Tracer.fresh).1 =
          .ok call ∧
        call.layout = .ok channel) ∧
      ∃ call call' g g',
        ((k.forwardChannels x 0 (.ofList [1, 2]) (.ofList [0, 3])).run Tracer.fresh).1 = .ok call ∧
        ((k.forwardChannels x' 0 (.ofList [1, nan]) (.ofList [0, nan])).run Tracer.fresh).1 =
          .ok call' ∧
        ((call.backward ⟨[2], x⟩).run Tracer.fresh).1 = .ok g ∧
        ((call'.backward ⟨[2], x'⟩).run Tracer.fresh).1 = .ok g' ∧ g.AgreeAt g' 0 := by
  intro k x dy x' call
  obtain ⟨htensor, hchannels, -⟩ := masked_gradients_unused k x x dy Tracer.fresh Tracer.fresh
  obtain ⟨-, -, hindependence⟩ := masked_gradients_unused k x x x' Tracer.fresh Tracer.fresh
  refine ⟨htensor 1 0 fun i hin => ?_, ?_, ?_⟩
  · have hcode : k.grid.contains (quantizeValue 40 (1 / 1) (k.grid.effectiveZeroPoint 0)) = false :=
      by decide +kernel
    rw [forwardTensor_fst, TensorCall.get_codes, Kernel.tensorCall, Tensor.get_ofFn] at hin
    exact absurd (hcode.symm.trans hin) Bool.false_ne_true
  · have hcall : ((k.forwardChannels x 0 (.ofList [1, 2]) (.ofList [0, 3])).run Tracer.fresh).1 =
        .ok (k.channelCall x ⟨0, #v[1, 2], #v[0, 3], 1, 1⟩) := forwardChannels_fst _ _ _ _ _ _
    obtain ⟨channel, hlayout, -⟩ := hchannels 0 (.ofList [1, 2]) (.ofList [0, 3]) _ hcall
    exact ⟨_, channel, hcall, hlayout⟩
  · refine hindependence 0 #v[1, 2] #v[1, nan] #v[0, 3] #v[0, nan] (.new 2) (.new 2) x'
      (0 : Fin 2) rfl rfl ?_
    intro i hi
    have hfirst : i.1 = 0 := hi
    have helement : x.get i = x'.get i := by
      rw [Tensor.get_ofFn, Tensor.get_ofFn, if_pos hfirst]
    exact ⟨helement, helement⟩

end FakeQuant
