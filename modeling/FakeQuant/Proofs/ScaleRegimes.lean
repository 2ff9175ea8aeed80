import FakeQuant.Proofs.Saturation

/-!
# The derivative by the scale in its regimes

The derivative of an element by the scale has three regimes: on either bound of the grid it is the
distance of the bound from the zero point, and elsewhere it is the interior term. The kernels do not
branch. They weight the three terms with zeros and ones and add them up. With a finite interior term
that is the same number (`scaleDerivative_eq_regimes`): the terms of the bounds are finite for every
finite zero point, a term with the weight zero is a zero, and a zero that is added does not change
the value of a number, though it can change the sign of a zero.

The sums over the elements do not see that sign, because they start from the positive zero. So the
gradient by the scale is the sum over the regimes, from left to right, in both kernels
(`scale_gradient_by_regimes`), and the gradient factor is a factor at the end.
-/

namespace FakeQuant

open Binary

variable {s : Shape}

/-! ### One element -/

/-- The derivative of the output `y` by the scale, regime by regime, for an input `x` with a code
moved into the grid. -/
def regimeDerivative (g : Grid) (x y code scale zeroPoint : Single) : Single :=
  if code.numEq g.least then g.least - zeroPoint
  else if code.numEq g.greatest then g.greatest - zeroPoint
  else (y - x) / scale

section Element

variable {g : Grid} {x y code scale zeroPoint : Single}

theorem regimeDerivative_of_least (h : code.numEq g.least = true) (x y scale zeroPoint : Single) :
    regimeDerivative g x y code scale zeroPoint = g.least - zeroPoint :=
  if_pos h

theorem regimeDerivative_of_greatest (h : code.numEq g.least = false)
    (h' : code.numEq g.greatest = true) (x y scale zeroPoint : Single) :
    regimeDerivative g x y code scale zeroPoint = g.greatest - zeroPoint := by
  rw [regimeDerivative, h, if_neg Bool.false_ne_true, if_pos h']

theorem regimeDerivative_of_interior (h : code.numEq g.least = false)
    (h' : code.numEq g.greatest = false) (x y scale zeroPoint : Single) :
    regimeDerivative g x y code scale zeroPoint = (y - x) / scale := by
  rw [regimeDerivative, h, h', if_neg Bool.false_ne_true, if_neg Bool.false_ne_true]

/-- The weighted sum of the three terms is the term of the code's regime: both are finite, and worth
the same. -/
theorem scaleDerivative_eq_regimes (hlt : g.least < g.greatest)
    (hzero : zeroPoint.isFinite = true) (hinterior : ((y - x) / scale).isFinite = true)
    (code : Single) :
    (scaleDerivative g x y code scale zeroPoint).isFinite = true ∧
      (regimeDerivative g x y code scale zeroPoint).isFinite = true ∧
      (scaleDerivative g x y code scale zeroPoint).value =
        (regimeDerivative g x y code scale zeroPoint).value := by
  have hleast := g.isFinite_least_sub hzero
  have hgreatest := g.isFinite_greatest_sub hzero
  cases hcode : code.numEq g.least with
  | true =>
    have hbounds := isFinite_add_zero hleast (false ^^ (g.greatest - zeroPoint).isNegative)
    rw [scaleDerivative_of_least hlt hcode, regimeDerivative_of_least hcode,
      one_mul_of_finite hleast, zero_mul_of_finite hgreatest, zero_mul_of_finite hinterior]
    exact ⟨isFinite_add_zero hbounds _, hleast,
      (value_add_zero hbounds _).trans (value_add_zero hleast _)⟩
  | false =>
    cases hcode' : code.numEq g.greatest with
    | true =>
      have hbounds := isFinite_zero_add hgreatest (false ^^ (g.least - zeroPoint).isNegative)
      rw [scaleDerivative_of_greatest hcode hcode', regimeDerivative_of_greatest hcode hcode',
        one_mul_of_finite hgreatest, zero_mul_of_finite hleast, zero_mul_of_finite hinterior]
      exact ⟨isFinite_add_zero hbounds _, hgreatest,
        (value_add_zero hbounds _).trans (value_zero_add hgreatest _)⟩
    | false =>
      have hzeros (a b : Bool) : ∃ c, (zero a + zero b : Single) = zero c := by
        cases a <;> cases b <;> decide +kernel
      obtain ⟨c, hbounds⟩ := hzeros (false ^^ (g.least - zeroPoint).isNegative)
        (false ^^ (g.greatest - zeroPoint).isNegative)
      rw [scaleDerivative_of_interior hcode hcode', regimeDerivative_of_interior hcode hcode',
        one_mul_of_finite hinterior, zero_mul_of_finite hleast, zero_mul_of_finite hgreatest,
        hbounds]
      exact ⟨isFinite_zero_add hinterior _, hinterior, value_zero_add hinterior _⟩

end Element

/-! ### Sums over elements -/

/-- The derivatives regime by regime, each times the input gradient `dx`, summed over some indices
from left to right. The codes are those of the input with the given parameters. -/
def regimeSum (g : Grid) (x y dx : Tensor Single s) (scale zeroPoint : Single)
    (indices : List (Index s)) : Single :=
  (indices.map fun i =>
    let code := g.clamp (quantizeValue (x.get i) (1 / scale) zeroPoint)
    regimeDerivative g (x.get i) (y.get i) code scale zeroPoint * dx.get i).foldl (· + ·) 0

/-- With finite interior terms the sum of the contributions to the gradient by the scale is the sum
over the regimes. -/
theorem foldl_parameterTerms_fst {g : Grid} (hlt : g.least < g.greatest) {scale zeroPoint : Single}
    (hzero : zeroPoint.isFinite = true) {x y : Tensor Single s} (dx : Tensor Single s)
    {indices : List (Index s)}
    (hinterior : ∀ i ∈ indices, ((y.get i - x.get i) / scale).isFinite = true) :
    (indices.map fun i =>
      (parameterTerms g (x.get i) (y.get i) (quantizeValue (x.get i) (1 / scale) zeroPoint)
        (dx.get i) scale zeroPoint).1).foldl (· + ·) 0 =
      regimeSum g x y dx scale zeroPoint indices := by
  refine foldl_add_congr (fun i hi start hstart => ?_) zero_ne_negativeZero
  obtain ⟨hfinite, hfinite', hvalue⟩ := scaleDerivative_eq_regimes hlt hzero (hinterior i hi)
    (g.clamp (quantizeValue (x.get i) (1 / scale) zeroPoint))
  exact add_mul_eq_of_numEq hstart hfinite hfinite' ((numEq_iff_value hfinite hfinite').2 hvalue) _

/-! ### Kernels -/

/-- The sum behind the gradient by the scale of a whole tensor. -/
theorem sumTerms_terms_fst (k : Kernel) (x : Tensor Single s) (scale zeroPoint : Single)
    (dx : Tensor Single s) :
    let c := k.tensorCall x scale zeroPoint
    let applied := k.grid.effectiveZeroPoint zeroPoint
    (sumTerms (c.terms dx).toList).1 =
      ((List.ofFn Index.ofRank).map fun i =>
        (parameterTerms k.grid (x.get i) (c.output.get i)
          (quantizeValue (x.get i) (1 / scale) applied) (dx.get i) scale applied).1).foldl
        (· + ·) 0 := by
  intro c applied
  rw [sumTerms_terms, sumTerms_map]

/-- The sum behind the gradient by the scale of a position of an axis. -/
theorem sumsAlong_fst (k : Kernel) (x dy : Tensor Single s) (p : ChannelParameters s)
    (c : Fin (s.get p.axis)) :
    let applied := k.grid.effectiveZeroPoint (p.zeroPointAt c)
    (k.sumsAlong x p dy c).1 =
      ((Index.along p.axis c).map fun i =>
        (parameterTerms k.grid (x.get i) ((k.channelCall x p).output.get i)
          (quantizeValue (x.get i) (1 / p.scaleAt c) applied)
          ((k.inputGradientAlong x p dy).get i) (p.scaleAt c) applied).1).foldl (· + ·) 0 := by
  intro applied
  rw [sumsAlong_eq_sumTerms, sumTerms_map]

/-- **The gradient by the scale, regime by regime.** On a grid with two different bounds, with a
finite zero point and a finite interior term, the weighted derivative of an element is equal to that
of its regime. So the sum behind the gradient by a scale is the one over the regimes, for every call
of the whole-tensor kernel with such elements, and at every position with such elements for every
call along an axis. The gradient factor multiplies the sums at the end; outputs, input gradients and
sums are the same for all factors. -/
theorem scale_gradient_by_regimes (g : Grid) (hlt : g.least < g.greatest) :
    (∀ x y code scale zeroPoint : Single, zeroPoint.isFinite = true →
      ((y - x) / scale).isFinite = true →
      (scaleDerivative g x y code scale zeroPoint).numEq
        (regimeDerivative g x y code scale zeroPoint) = true) ∧
    (∀ (x dy : Tensor Single s) (scale zeroPoint : Single),
      let applied := g.effectiveZeroPoint zeroPoint
      ∃ (y dx : Tensor Single s) (dscale dzero : Single),
        (∀ gradientFactor t t',
          let call := ((Kernel.forwardTensor ⟨g, gradientFactor⟩ x scale zeroPoint).run t).1
          call.output = y ∧
          ((call.backward ⟨s, dy⟩).run t').1 =
            .ok
              { input := ⟨s, dx⟩
                scale := [dscale * gradientFactor]
                zeroPoint := [dzero * gradientFactor] }) ∧
        (applied.isFinite = true → (∀ i, ((y.get i - x.get i) / scale).isFinite = true) →
          dscale = regimeSum g x y dx scale applied (List.ofFn Index.ofRank))) ∧
    (∀ (x dy : Tensor Single s) (axis : Fin s.length)
      (scale zeroPoint : Vector Single (s.get axis)) (d : CallStrides (s.get axis)),
      ∃ (y dx : Tensor Single s) (dscale dzero : Fin (s.get axis) → Single),
        (∀ gradientFactor t t', ∃ call,
          ((Kernel.forwardChannels ⟨g, gradientFactor⟩ x axis (d.scaleRow scale)
            (d.zeroPointRow zeroPoint)).run t).1 = .ok call ∧
          call.output = y ∧
          ((call.backward ⟨s, dy⟩).run t').1 =
            .ok
              { input := ⟨s, dx⟩
                scale := List.ofFn fun c => dscale c * gradientFactor
                zeroPoint := List.ofFn fun c => dzero c * gradientFactor }) ∧
        ∀ c,
          let applied := g.effectiveZeroPoint (zeroPoint.get c)
          applied.isFinite = true →
          (∀ i, i.coordinate axis = c → ((y.get i - x.get i) / scale.get c).isFinite = true) →
          dscale c = regimeSum g x y dx (scale.get c) applied (Index.along axis c)) := by
  refine ⟨?element, ?tensor, ?channels⟩
  case element =>
    intro x y code scale zeroPoint hzero hinterior
    obtain ⟨hfinite, hfinite', hvalue⟩ := scaleDerivative_eq_regimes hlt hzero hinterior code
    exact (numEq_iff_value hfinite hfinite').2 hvalue
  case tensor =>
    intro x dy scale zeroPoint applied
    -- nothing but the grid of the kernel enters the sums, so any factor serves to name them
    let c := Kernel.tensorCall ⟨g, 1⟩ x scale zeroPoint
    let dx := straightThrough g dy c.codes
    refine ⟨c.output, dx, (sumTerms (c.terms dx).toList).1, (sumTerms (c.terms dx).toList).2,
      fun gradientFactor t t' => ?_, fun hzero hinterior => ?_⟩
    · rw [forwardTensor_fst]
      exact ⟨rfl, TensorCall.backward_fst _ dy t'⟩
    · rw [sumTerms_terms_fst]
      exact foldl_parameterTerms_fst hlt hzero dx fun i _ => hinterior i
  case channels =>
    intro x dy axis scale zeroPoint d
    let p : ChannelParameters s := ⟨axis, scale, zeroPoint, d.scale, d.zeroPoint⟩
    let k : Kernel := ⟨g, 1⟩
    refine ⟨(k.channelCall x p).output, k.inputGradientAlong x p dy,
      fun c => (k.sumsAlong x p dy c).1, fun c => (k.sumsAlong x p dy c).2,
      fun gradientFactor t t' => ?_, fun c => ?_⟩
    · exact ⟨_, forwardChannels_stored _ x axis scale zeroPoint d t, rfl,
        backward_channelCall _ x p dy t'⟩
    · intro applied hzero hinterior
      refine (sumsAlong_fst k x dy p c).trans (foldl_parameterTerms_fst hlt hzero _ fun i hi => ?_)
      exact hinterior i (Index.coordinate_of_mem_along hi)

/-- An element inside the grid and one above it, for the whole tensor and along its axis: the
distance of the greatest code counts for the second one. -/
theorem scale_gradient_by_regimes_above_grid :
    let g : Grid := ⟨0, 15, by decide⟩
    let x : Tensor Single [2] := Tensor.ofFn fun i => if i.1 = 0 then 3 else 40
    g.least < g.greatest ∧
      (∃ (y dx : Tensor Single [2]) (dscale : Single),
        (∀ gradientFactor, ∃ dzero : Single,
          let call := ((Kernel.forwardTensor ⟨g, gradientFactor⟩ x 1 0).run Tracer.fresh).1
          call.output = y ∧
          ((call.backward ⟨[2], x⟩).run Tracer.fresh).1 =
            .ok { input := ⟨[2], dx⟩, scale := [dscale * gradientFactor], zeroPoint := [dzero] }) ∧
        dscale = regimeSum g x y dx 1 (g.effectiveZeroPoint 0) (List.ofFn Index.ofRank)) ∧
      ∃ (y dx : Tensor Single [2]) (dscale : Fin 2 → Single),
        (∀ gradientFactor, ∃ dzero call,
          ((Kernel.forwardChannels ⟨g, gradientFactor⟩ x 0 (.ofList [1, 1])
            (.ofList [0, 0])).run Tracer.fresh).1 = .ok call ∧
          call.output = y ∧
          ((call.backward ⟨[2], x⟩).run Tracer.fresh).1 =
            .ok
              { input := ⟨[2], dx⟩
                scale := List.ofFn fun c => dscale c * gradientFactor
                zeroPoint := dzero }) ∧
        ∀ c, dscale c = regimeSum g x y dx 1 (g.effectiveZeroPoint 0) (Index.along 0 c) := by
  intro g x
  have hlt : g.least < g.greatest := by decide +kernel
  have happlied : (g.effectiveZeroPoint 0).isFinite = true := by decide +kernel
  have hinterior (i : Index [2]) :
      ((fakeQuantizeValue g (x.get i) 1 (1 / 1) (g.effectiveZeroPoint 0) - x.get i) / 1).isFinite =
        true := by
    rw [Tensor.get_ofFn]
    split
    · decide +kernel
    · decide +kernel
  obtain ⟨-, htensor, hchannels⟩ := scale_gradient_by_regimes (s := [2]) g hlt
  refine ⟨hlt, ?_, ?_⟩
  · obtain ⟨y, dx, dscale, dzero, hcalls, hsum⟩ := htensor x x 1 0
    refine ⟨y, dx, dscale, fun gradientFactor => ⟨_, hcalls gradientFactor _ _⟩,
      hsum happlied fun i => ?_⟩
    rw [← (hcalls 1 Tracer.fresh Tracer.fresh).1, forwardTensor_fst, TensorCall.get_output]
    exact hinterior i
  · obtain ⟨y, dx, dscale, dzero, hcalls, hsum⟩ := hchannels x x 0 #v[1, 1] #v[0, 0] (.new 2)
    have hone : ∀ c : Fin 2, (#v[1, 1] : Vector Single 2).get c = 1 := by decide +kernel
    have hnull : ∀ c : Fin 2, (#v[0, 0] : Vector Single 2).get c = 0 := by decide +kernel
    refine ⟨y, dx, dscale, fun gradientFactor => ⟨_, hcalls gradientFactor _ _⟩, fun c => ?_⟩
    have hc := hsum c
    rw [hone c, hnull c] at hc
    refine hc happlied fun i _ => ?_
    obtain ⟨call, hcall, hy, -⟩ := hcalls 1 Tracer.fresh Tracer.fresh
    let p : ChannelParameters [2] := ⟨0, #v[1, 1], #v[0, 0], 1, 1⟩
    have hcall' : call = Kernel.channelCall ⟨g, 1⟩ x p :=
      Except.ok.inj (hcall.symm.trans (forwardChannels_stored _ x 0 _ _ (.new 2) _))
    rw [← hy, hcall', Kernel.channelCall, get_outputAlong, ChannelParameters.scaleAt,
      ChannelParameters.zeroPointAt, hone, hnull]
    exact hinterior i

end FakeQuant
