import FakeQuant.Proofs.Channels

/-!
# Fake quantization in two steps

Fake quantization is one pass over the elements; quantization followed by dequantization gives the
same numbers. Along an axis each of the two steps checks the parameters once more, and the first of
them lays out the inverses of the scales only. Inverses of scales that stand apart in storage are
stored side by side, so that such scales are noticed late (`Shape.FaultsApart`). With this
exception the two ways end alike (`fakeQuantize_in_two_steps`), errors included.
-/

namespace FakeQuant

variable {s : Shape}

/-- Quantizing with and without the move into the grid. -/
theorem map_clamp_quantizeAlong (g : Grid) (x : Tensor Single s) (p : ChannelParameters s) :
    (quantizeAlong g false x p).map g.clamp = quantizeAlong g true x p :=
  p.map_apply _ _ _

theorem dequantizeAlong_quantizeAlong (g : Grid) (x : Tensor Single s) (p : ChannelParameters s) :
    dequantizeAlong (quantizeAlong g true x p) p = fakeQuantizeAlong g x p :=
  p.apply_apply _ _ _

/-- Quantization along an axis, and then dequantization of the codes with the same parameters. -/
def quantizeAndBack (g : Grid) (x : Tensor Single s) (scale zeroPoint : Row Single) (axis : Nat) :
    Except Error (Tensor Single s) := do
  let codes ← quantizePerChannel g true x scale zeroPoint axis
  dequantizePerChannel codes scale zeroPoint axis

/-- The scales have the right number but stand apart in storage, so that they cannot be laid out
while their inverses can, and something is wrong with the zero points as well. -/
structure Shape.FaultsApart (s : Shape) (axis : Nat) (scale zeroPoint : Row Single) : Prop where
  number : s[axis]? = some scale.length
  layout : scale.isStandard = false
  inverse : scale.isBackward = false
  other : s.rowFault? "zero_point" axis zeroPoint.length zeroPoint.isStandard ≠ none

section TwoSteps

variable (g : Grid) (x : Tensor Single s) {axis : Nat} {scale zeroPoint : Row Single}

/-- The first step checks the inverses of the scales, the second one the scales. -/
theorem quantizeAndBack_eq :
    quantizeAndBack g x scale zeroPoint axis =
      (do
        let p ← ChannelParameters.check s axis scale zeroPoint (!scale.isBackward)
          zeroPoint.isStandard
        dequantizeAlong (quantizeAlong g true x p) <$>
          ChannelParameters.check s axis scale zeroPoint scale.isStandard
            zeroPoint.isStandard) := by
  simp only [quantizeAndBack, quantizePerChannel_eq, dequantizePerChannel_eq]
  cases ChannelParameters.check s axis scale zeroPoint (!scale.isBackward) zeroPoint.isStandard with
  | error e => rfl
  | ok p => rfl

/-- Unless the faults come apart, the two ways end alike. -/
theorem fakeQuantize_eq_quantizeAndBack (h : ¬ s.FaultsApart axis scale zeroPoint) :
    fakeQuantizePerChannel g x scale zeroPoint axis =
      quantizeAndBack g x scale zeroPoint axis := by
  rw [quantizeAndBack_eq, fakeQuantizePerChannel_eq]
  rcases ChannelParameters.check_cases s axis scale zeroPoint (!scale.isBackward)
    zeroPoint.isStandard with ⟨e, he, hc⟩ | ⟨p, ⟨rfl, rfl, rfl⟩, hfits, hzero⟩
  · -- what stops the first step is wrong for fake quantization, too
    have hfused : ChannelParameters.check s axis scale zeroPoint scale.isStandard
        zeroPoint.isStandard = .error e := by
      rw [ChannelParameters.check_eq_error]
      cases hstandard : scale.isStandard with
      | true => rwa [Row.isBackward_of_isStandard hstandard] at he
      | false =>
        cases hback : scale.isBackward with
        | true => rwa [hback] at he
        | false =>
          rw [hback] at he
          rcases Option.or_eq_some_iff.mp he with hscale | ⟨hscale, hzero⟩
          · rw [Shape.axisFault?, Shape.rowFault?_of_fits hscale]
            rfl
          · exact absurd ⟨(Shape.rowFault?_eq_none.mp hscale).1, hstandard, hback,
              fun hnone => Option.some_ne_none e (hzero.symm.trans hnone)⟩ h
    rw [hc, hfused]
    rfl
  · rw [hfits, hzero, ChannelParameters.check_rows]
    -- the second step makes the check of fake quantization
    rcases ChannelParameters.check_cases s p.axis p.scaleRow p.zeroPointRow p.scaleRow.isStandard
      true with ⟨e, -, hc⟩ | ⟨p', -, hstandard, -⟩
    · rw [hc]
      rfl
    · rw [hstandard, ChannelParameters.check_rows]
      exact congrArg Except.ok (dequantizeAlong_quantizeAlong g x p).symm

/-- Where the faults come apart, fake quantization looks at the scales before the zero points, and
the two steps do not. -/
theorem fakeQuantize_of_faultsApart (h : s.FaultsApart axis scale zeroPoint) :
    fakeQuantizePerChannel g x scale zeroPoint axis =
        .error (.shapeMismatch "scale" (s.unit axis) [scale.length]) ∧
      ∃ e, s.rowFault? "zero_point" axis zeroPoint.length zeroPoint.isStandard = some e ∧
        quantizeAndBack g x scale zeroPoint axis = .error e := by
  obtain ⟨e, he⟩ := Option.ne_none_iff_exists'.mp h.other
  have hfused : ChannelParameters.check s axis scale zeroPoint scale.isStandard
      zeroPoint.isStandard = .error (.shapeMismatch "scale" (s.unit axis) [scale.length]) := by
    rw [ChannelParameters.check_eq_error, h.layout, Shape.axisFault?,
      Shape.rowFault?_of_length h.number]
    rfl
  have hfirst : ChannelParameters.check s axis scale zeroPoint (!scale.isBackward)
      zeroPoint.isStandard = .error e := by
    rw [ChannelParameters.check_eq_error, h.inverse, Bool.not_false, Shape.axisFault?, he,
      Shape.rowFault?_eq_none.mpr ⟨h.number, rfl⟩]
    rfl
  rw [quantizeAndBack_eq, fakeQuantizePerChannel_eq, hfused, hfirst]
  exact ⟨rfl, e, he, rfl⟩

end TwoSteps

/-- **Fake quantization is quantization and then dequantization**, for all numbers and all
parameters, and quantization onto the grid is the clamp of every code. Along an axis the two ways
succeed together. Where they fail it is with the same error, unless the scales stand apart in
storage and something is wrong with the zero points as well: fake quantization then fails with the
layout of the scales, and the first of two steps with the fault of the zero points. -/
theorem fakeQuantize_in_two_steps (g : Grid) (x : Tensor Single s) :
    (∀ scale zeroPoint,
      fakeQuantize g x scale zeroPoint =
          dequantize (quantize g true x scale zeroPoint) scale zeroPoint ∧
        quantize g true x scale zeroPoint = (quantize g false x scale zeroPoint).map g.clamp) ∧
    (∀ scale zeroPoint axis,
      let fused := fakeQuantizePerChannel g x scale zeroPoint axis
      let steps := quantizeAndBack g x scale zeroPoint axis
      ((¬ s.FaultsApart axis scale zeroPoint ∧ fused = steps) ∨
        (s.FaultsApart axis scale zeroPoint ∧
          fused = .error (.shapeMismatch "scale" (s.unit axis) [scale.length]) ∧
          ∃ e, s.rowFault? "zero_point" axis zeroPoint.length zeroPoint.isStandard = some e ∧
            steps = .error e)) ∧
      quantizePerChannel g true x scale zeroPoint axis =
        (fun codes => codes.map g.clamp) <$>
          quantizePerChannel g false x scale zeroPoint axis) := by
  refine ⟨fun scale zeroPoint => ⟨?_, ?_⟩, fun scale zeroPoint axis => ⟨?_, ?_⟩⟩
  · rw [dequantize, quantize, Tensor.map_map]
    rfl
  · rw [quantize, quantize, Tensor.map_map]
    rfl
  · by_cases h : s.FaultsApart axis scale zeroPoint
    · exact .inr ⟨h, fakeQuantize_of_faultsApart g x h⟩
    · exact .inl ⟨h, fakeQuantize_eq_quantizeAndBack g x h⟩
  · rw [quantizePerChannel_eq, quantizePerChannel_eq, ← comp_map]
    refine congrArg (· <$> _) (funext fun p => ?_)
    exact (map_clamp_quantizeAlong g x p).symm

/-- With two scales that stand apart and a single zero point for the two rows of a matrix, the two
ways fail with different errors. -/
theorem two_steps_miss_layout :
    let g : Grid := ⟨0, 15, by decide⟩
    let x : Tensor Single [2, 3] := Tensor.ofFn fun _ => 1
    let scale : Row Single := { values := [1, 2], stride := 2 }
    let zeroPoint : Row Single := .ofList [0]
    fakeQuantizePerChannel g x scale zeroPoint 0 =
        .error (.shapeMismatch "scale" [2, 1] [2]) ∧
      quantizeAndBack g x scale zeroPoint 0 = .error (.shapeMismatch "zero_point" [2] [1]) :=
  ⟨rfl, rfl⟩

end FakeQuant
