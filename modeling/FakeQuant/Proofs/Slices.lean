import FakeQuant.Proofs.Calls

/-!
# Slice by slice

An operation along an axis is the whole-tensor operation on every slice, with the parameters of the
slice's position: forward (`forward_along_slices`) and backward (`backward_along_slices`), on
tensors of every shape and parameters of every value. The elements that a parameter gradient sums
over are those of the slice, in the row-major order of the slice.
-/

namespace FakeQuant

variable {s : Shape}

/-! ### Forward -/

/-- A result along an axis fails with a fault if one is given. Else it succeeds, and at every
position it is the given tensor. -/
def SlicesTo (axis : Fin s.length) (fault : Option Error) (result : Except Error (Tensor Single s))
    (slices : Fin (s.get axis) → Tensor Single (s.eraseIdx axis)) : Prop :=
  match fault with
  | some e => result = .error e
  | none => ∃ y, result = .ok y ∧ ∀ c, y.slice axis c = slices c

/-- What is wrong with rows that have one value for every position of an axis: if anything, that a
row cannot be laid out. -/
def Shape.layoutFault? (s : Shape) (axis : Fin s.length) (scaleFits zeroPointFits : Bool) :
    Option Error :=
  if scaleFits = false then some (.shapeMismatch "scale" (s.unit axis) [s.get axis])
  else if zeroPointFits = false then some (.shapeMismatch "zero_point" (s.unit axis) [s.get axis])
  else none

theorem Shape.axisFault?_eq_layoutFault? (axis : Fin s.length) (scaleFits zeroPointFits : Bool) :
    s.axisFault? axis (s.get axis) scaleFits (s.get axis) zeroPointFits =
      s.layoutFault? axis scaleFits zeroPointFits := by
  rw [axisFault?, rowFault?_val, rowFault?_val, if_neg (not_not_intro rfl),
    if_neg (not_not_intro rfl)]
  cases scaleFits with
  | false => rfl
  | true => cases zeroPointFits <;> rfl

theorem ChannelParameters.slicesTo (p : ChannelParameters s) {scaleFits zeroPointFits : Bool}
    {f : ChannelParameters s → Tensor Single s} {result : Except Error (Tensor Single s)}
    {slices : Fin (s.get p.axis) → Tensor Single (s.eraseIdx p.axis)}
    (h : result = f <$> check s p.axis p.scaleRow p.zeroPointRow scaleFits zeroPointFits)
    (hslice : ∀ c, (f p).slice p.axis c = slices c) :
    SlicesTo p.axis (s.layoutFault? p.axis scaleFits zeroPointFits) result slices := by
  rw [← Shape.axisFault?_eq_layoutFault?]
  rcases check_cases s p.axis p.scaleRow p.zeroPointRow scaleFits zeroPointFits with
    ⟨e, he, hc⟩ | ⟨-, -, rfl, rfl⟩
  · rw [p.length_scaleRow, p.length_zeroPointRow] at he
    rw [he, h, hc]
    rfl
  · rw [check_rows] at h
    rw [Shape.axisFault?_eq_layoutFault?]
    exact ⟨f p, h, hslice⟩

/-- The slices of a kernel's output along an axis. -/
theorem slice_channelCall (k : Kernel) (x : Tensor Single s) (p : ChannelParameters s)
    (c : Fin (s.get p.axis)) :
    (k.channelCall x p).output.slice p.axis c =
      (k.tensorCall (x.slice p.axis c) (p.scaleAt c) (p.zeroPointAt c)).output := by
  rw [Kernel.channelCall, fakeQuantizeAlong, ChannelParameters.apply_effective]
  exact p.slice_apply _ _ _

/-- **Forward, slice by slice**: with one scale and one zero point for every position of an axis, in
rows stored at any strides, fake quantization, the kernels' forward passes, quantization and
dequantization along the axis can fail with the layout of a row only. Without that they succeed, and
the slice of each result is the whole-tensor result on the slice of the input. -/
theorem forward_along_slices (g : Grid) (x : Tensor Single s) (axis : Fin s.length)
    (scale zeroPoint : Vector Single (s.get axis)) (stride stride' : Int) :
    let r := Row.ofVector scale stride
    let r' := Row.ofVector zeroPoint stride'
    SlicesTo axis (s.layoutFault? axis r.isStandard r'.isStandard)
        (fakeQuantizePerChannel g x r r' axis)
        (fun c => fakeQuantize g (x.slice axis c) (scale.get c) (zeroPoint.get c)) ∧
      (∀ gradientFactor t t',
        SlicesTo axis (s.layoutFault? axis r.isStandard (!r'.isBackward))
          (ChannelCall.output <$>
            ((Kernel.forwardChannels { grid := g, gradientFactor } x axis r r').run t).1)
          fun c => ((Kernel.forwardTensor { grid := g, gradientFactor } (x.slice axis c)
            (scale.get c) (zeroPoint.get c)).run t').1.output) ∧
      (∀ clamped,
        SlicesTo axis (s.layoutFault? axis (!r.isBackward) r'.isStandard)
          (quantizePerChannel g clamped x r r' axis)
          fun c => quantize g clamped (x.slice axis c) (scale.get c) (zeroPoint.get c)) ∧
      SlicesTo axis (s.layoutFault? axis r.isStandard r'.isStandard)
        (dequantizePerChannel x r r' axis)
        (fun c => dequantize (x.slice axis c) (scale.get c) (zeroPoint.get c)) := by
  intro r r'
  let p : ChannelParameters s := ⟨axis, scale, zeroPoint, stride, stride'⟩
  refine ⟨?_, fun gradientFactor t t' => ?_, fun clamped => ?_, ?_⟩
  · exact p.slicesTo (fakeQuantizePerChannel_eq _ _ _ _ _) (slice_fakeQuantizeAlong g x p)
  · rw [forwardChannels_fst, ← comp_map]
    refine p.slicesTo rfl fun c => ?_
    rw [forwardTensor_fst]
    exact slice_channelCall _ x p c
  · exact p.slicesTo (quantizePerChannel_eq _ _ _ _ _ _) (slice_quantizeAlong g clamped x p)
  · exact p.slicesTo (dequantizePerChannel_eq _ _ _ _) (slice_dequantizeAlong x p)

/-- Two scales for two positions that stand apart in storage: fake quantization and the kernel's
forward pass fail. -/
theorem forward_along_slices_apart :
    let k : Kernel := { grid := ⟨0, 15, by decide⟩, gradientFactor := 1 }
    let x : Tensor Single [2, 3] := Tensor.ofFn fun _ => 1
    let scale : Row Single := .ofVector (#v[1, 2] : Vector Single 2) 2
    let zeroPoint : Row Single := .ofVector (#v[0, 0] : Vector Single 2) 1
    fakeQuantizePerChannel k.grid x scale zeroPoint 0 =
        .error (.shapeMismatch "scale" [2, 1] [2]) ∧
      ((k.forwardChannels x 0 scale zeroPoint).run Tracer.fresh).1 =
        .error (.shapeMismatch "scale" [2, 1] [2]) :=
  ⟨rfl, rfl⟩

/-! ### Backward -/

/-- The two sums of a list of pairs are the sums of the first and of the second parts, each from
left to right. -/
theorem sumTerms_eq (terms : List (Single × Single)) :
    sumTerms terms =
      ((terms.map Prod.fst).foldl (· + ·) 0, (terms.map Prod.snd).foldl (· + ·) 0) := by
  suffices ∀ sums : Single × Single,
      terms.foldl (fun sums term => (sums.1 + term.1, sums.2 + term.2)) sums =
        ((terms.map Prod.fst).foldl (· + ·) sums.1, (terms.map Prod.snd).foldl (· + ·) sums.2) from
    this (0, 0)
  induction terms with
  | nil => exact fun _ => rfl
  | cons term terms ih => exact fun sums => ih _

section Checked

variable (k : Kernel) (x dy : Tensor Single s) (p : ChannelParameters s)

/-- The call of a forward pass over the slice at a position. -/
def Kernel.sliceCall (c : Fin (s.get p.axis)) : TensorCall (s.eraseIdx p.axis) :=
  k.tensorCall (x.slice p.axis c) (p.scaleAt c) (p.zeroPointAt c)

theorem slice_codesAlong (c : Fin (s.get p.axis)) :
    (quantizeAlong k.grid false x (p.effective k.grid)).slice p.axis c =
      (k.sliceCall x p c).codes := by
  rw [quantizeAlong, ChannelParameters.apply_effective]
  exact p.slice_apply _ _ _

theorem slice_inputGradientAlong (c : Fin (s.get p.axis)) :
    (k.inputGradientAlong x p dy).slice p.axis c =
      straightThrough k.grid (dy.slice p.axis c) (k.sliceCall x p c).codes := by
  rw [Kernel.inputGradientAlong, straightThrough, Tensor.slice_zipWith, slice_codesAlong]
  rfl

/-- The contributions to the parameter gradients of a position are those of the call over the
slice, in the order of the slice. -/
theorem slice_termsAlong (c : Fin (s.get p.axis)) :
    (k.termsAlong x p dy).slice p.axis c =
      (k.sliceCall x p c).terms ((k.inputGradientAlong x p dy).slice p.axis c) := by
  -- at an element of the slice, every tensor that the terms are made of is its own slice
  have hx : ∀ i, x.get (i.insert p.axis c) = (k.sliceCall x p c).input.get i := fun i =>
    (Tensor.get_slice _ _ _ _).symm
  have hy : ∀ i, (k.channelCall x p).output.get (i.insert p.axis c) =
      (k.sliceCall x p c).output.get i := fun i => by
    rw [← Tensor.get_slice, slice_channelCall]
    rfl
  have hcode : ∀ i, (quantizeAlong k.grid false x (p.effective k.grid)).get (i.insert p.axis c) =
      (k.sliceCall x p c).codes.get i := fun i => by
    rw [← Tensor.get_slice, slice_codesAlong]
  rw [Tensor.slice, TensorCall.terms]
  refine congrArg Tensor.ofFn (funext fun i => ?_)
  rw [Kernel.termsAlong, Tensor.get_ofFn, Index.coordinate_insert, hx, hcode, Tensor.get_slice]
  change parameterTerms _ _ ((k.channelCall x p).output.get _) _ _ _ _ = _
  rw [hy]
  rfl

/-- The gradients of the call over the slice at a position, in terms of those along the axis. -/
theorem gradients_sliceCall (c : Fin (s.get p.axis)) :
    (k.sliceCall x p c).gradients (dy.slice p.axis c) =
      { input := ⟨_, (k.inputGradientAlong x p dy).slice p.axis c⟩
        scale := [(k.sumsAlong x p dy c).1 * k.gradientFactor]
        zeroPoint := [(k.sumsAlong x p dy c).2 * k.gradientFactor] } := by
  rw [Kernel.sumsAlong, slice_termsAlong, slice_inputGradientAlong]
  rfl

/-- Both sums of a position run over the contributions of its slice from left to right. -/
theorem sumsAlong_eq (c : Fin (s.get p.axis)) :
    let terms :=
      ((k.sliceCall x p c).terms ((k.inputGradientAlong x p dy).slice p.axis c)).toList
    k.sumsAlong x p dy c =
      ((terms.map Prod.fst).foldl (· + ·) 0, (terms.map Prod.snd).foldl (· + ·) 0) := by
  rw [Kernel.sumsAlong, slice_termsAlong, sumTerms_eq]

end Checked

/-- **Backward, slice by slice**: a call that a forward pass along an axis has returned gives, for
every output gradient of its shape, one gradient per position for the scales and for the zero
points. At every position they are the gradients of the whole-tensor kernel, run forward and
backward on the slices with the parameters of the position: the sums of the contributions of the
slice's elements from left to right, multiplied by the gradient factor at the end. -/
theorem backward_along_slices {k : Kernel} {x : Tensor Single s} {axis : Nat}
    {scale zeroPoint : Row Single} {t : Tracer} {call : ChannelCall s}
    (h : ((k.forwardChannels x axis scale zeroPoint).run t).1 = .ok call) (dy : Tensor Single s)
    (t' : Tracer) :
    ∃ p : ChannelParameters s,
      (axis = p.axis ∧ scale = p.scaleRow ∧ zeroPoint = p.zeroPointRow) ∧
      ∃ (dx : Tensor Single s) (dscale dzero : Vector Single (s.get p.axis)),
        ((call.backward ⟨s, dy⟩).run t').1 =
          .ok { input := ⟨s, dx⟩, scale := dscale.toList, zeroPoint := dzero.toList } ∧
        ∀ c t₁ t₂,
          let slice :=
            ((k.forwardTensor (x.slice p.axis c) (p.scaleAt c) (p.zeroPointAt c)).run t₁).1
          let terms := (slice.terms (dx.slice p.axis c)).toList
          ((slice.backward ⟨_, dy.slice p.axis c⟩).run t₂).1 =
            .ok
              { input := ⟨_, dx.slice p.axis c⟩
                scale := [dscale.get c]
                zeroPoint := [dzero.get c] } ∧
          dscale.get c = (terms.map Prod.fst).foldl (· + ·) 0 * k.gradientFactor ∧
          dzero.get c = (terms.map Prod.snd).foldl (· + ·) 0 * k.gradientFactor := by
  obtain ⟨p, hp, rfl⟩ := forwardChannels_ok h
  refine ⟨p, hp, k.inputGradientAlong x p dy,
    Vector.ofFn fun c => (k.sumsAlong x p dy c).1 * k.gradientFactor,
    Vector.ofFn fun c => (k.sumsAlong x p dy c).2 * k.gradientFactor, ?_, fun c t₁ t₂ => ?_⟩
  · rw [ChannelCall.backward_fst, gradients_channelCall, Vector.toList_ofFn, Vector.toList_ofFn]
  · have hsums := sumsAlong_eq k x dy p c
    simp only [forwardTensor_fst, get_vectorOfFn]
    refine ⟨?_, ?_, ?_⟩
    · rw [TensorCall.backward_fst]
      exact congrArg Except.ok (gradients_sliceCall k x dy p c)
    · exact congrArg (fun sums => sums.1 * k.gradientFactor) hsums
    · exact congrArg (fun sums => sums.2 * k.gradientFactor) hsums

/-- On the rows of a matrix of two rows, with the scales one and two. -/
theorem backward_along_two_rows :
    let k : Kernel := { grid := ⟨0, 15, by decide⟩, gradientFactor := 1 }
    let x : Tensor Single [2, 3] := Tensor.ofFn fun _ => 1
    let scale : Row Single := .ofList [1, 2]
    let zeroPoint : Row Single := .ofList [0, 3]
    ∃ call, ((k.forwardChannels x 0 scale zeroPoint).run Tracer.fresh).1 = .ok call ∧
      ∃ g, ((call.backward ⟨[2, 3], x⟩).run Tracer.fresh).1 = .ok g ∧
        g.scale.length = 2 ∧ g.zeroPoint.length = 2 := by
  intro k x scale zeroPoint
  have h : ((k.forwardChannels x 0 scale zeroPoint).run Tracer.fresh).1 =
      .ok (k.channelCall x ⟨0, #v[1, 2], #v[0, 3], 1, 1⟩) := forwardChannels_fst _ _ _ _ _ _
  obtain ⟨p, ⟨haxis, -, -⟩, dx, dscale, dzero, hbackward, -⟩ :=
    backward_along_slices h x Tracer.fresh
  have hrows : List.get [2, 3] p.axis = 2 := by
    rw [List.get_eq_getElem]
    simp only [← haxis]
    rfl
  refine ⟨_, h, _, hbackward, ?_, ?_⟩
  · rw [Vector.length_toList, hrows]
  · rw [Vector.length_toList, hrows]

end FakeQuant
