import FakeQuant.Proofs.ParameterSums

/-!
# Saturated elements and the parameter gradients

The input gradient of a saturated element is the positive zero, and the parameter gradients multiply
local derivatives by it. On a bound of the grid the derivative by the zero point is finite. That by
the scale is a finite number plus the interior term with the weight zero
(`scaleDerivative_of_bound`), so it is finite exactly if the interior term is.

A finite number times zero is a zero, which leaves a sum from left to right as it is. So the
parameter gradients are those of the elements on the grid (`saturated_contribute_nothing`). But the
interior term of a far outlier over a small scale can overflow, and an infinity times zero is not a
number: then neither is the gradient by the scale, although the derivative on a bound has no
interior term (`scale_gradient_of_far_outlier`). This is the price of weighting the regimes instead
of branching on them.
-/

namespace FakeQuant

open Binary

variable {s : Shape}

/-! ### One element -/

theorem boundaryWeight_of_numEq {bound code : Single} (h : code.numEq bound = true) :
    boundaryWeight bound code = 1 :=
  if_pos h

theorem boundaryWeight_of_ne {bound code : Single} (h : code.numEq bound = false) :
    boundaryWeight bound code = zero false := by
  rw [boundaryWeight, h, if_neg Bool.false_ne_true]
  exact zero_eq

section Element

variable {g : Grid} {code zeroPoint : Single}

/-- A code on the lower bound is not on the upper bound. -/
theorem not_numEq_greatest (hlt : g.least < g.greatest) (hcode : code.numEq g.least = true) :
    code.numEq g.greatest = false := by
  rw [Bool.eq_false_iff]
  intro hcode'
  obtain ⟨hnumber, hleast⟩ := isNaN_of_numEq hcode
  obtain ⟨-, hgreatest⟩ := isNaN_of_numEq hcode'
  have hsame := ((numEq_iff_extended hnumber hleast).1 hcode).symm.trans
    ((numEq_iff_extended hnumber hgreatest).1 hcode')
  exact ((lt_iff_extended hleast hgreatest).1 hlt).ne hsame

/-! The three regimes with their weights: what is left of one for the interior is the positive zero
on either bound. -/

theorem scaleDerivative_of_least (hlt : g.least < g.greatest) (hcode : code.numEq g.least = true)
    (x y scale zeroPoint : Single) :
    scaleDerivative g x y code scale zeroPoint =
      1 * (g.least - zeroPoint) + zero false * (g.greatest - zeroPoint)
        + zero false * ((y - x) / scale) := by
  have hrest : (1 : Single) - 1 - zero false = zero false := by decide +kernel
  simp only [scaleDerivative, boundaryWeight_of_numEq hcode,
    boundaryWeight_of_ne (not_numEq_greatest hlt hcode), hrest]

theorem scaleDerivative_of_greatest (hleast : code.numEq g.least = false)
    (hcode : code.numEq g.greatest = true) (x y scale zeroPoint : Single) :
    scaleDerivative g x y code scale zeroPoint =
      zero false * (g.least - zeroPoint) + 1 * (g.greatest - zeroPoint)
        + zero false * ((y - x) / scale) := by
  have hrest : (1 : Single) - zero false - 1 = zero false := by decide +kernel
  simp only [scaleDerivative, boundaryWeight_of_ne hleast, boundaryWeight_of_numEq hcode, hrest]

theorem scaleDerivative_of_interior (hleast : code.numEq g.least = false)
    (hgreatest : code.numEq g.greatest = false) (x y scale zeroPoint : Single) :
    scaleDerivative g x y code scale zeroPoint =
      zero false * (g.least - zeroPoint) + zero false * (g.greatest - zeroPoint)
        + 1 * ((y - x) / scale) := by
  have hrest : (1 : Single) - zero false - zero false = 1 := by decide +kernel
  simp only [scaleDerivative, boundaryWeight_of_ne hleast, boundaryWeight_of_ne hgreatest, hrest]

/-- On a bound, the two regimes of the bounds give a finite number, and the regime of the interior
is added to it with the weight zero. -/
theorem scaleDerivative_of_bound (hlt : g.least < g.greatest) (hzero : zeroPoint.isFinite = true)
    (hcode : code = g.least ∨ code = g.greatest) (x y scale : Single) :
    ∃ d : Single, d.isFinite = true ∧
      scaleDerivative g x y code scale zeroPoint = d + zero false * ((y - x) / scale) := by
  have hleast := g.isFinite_least_sub hzero
  have hgreatest := g.isFinite_greatest_sub hzero
  rcases hcode with rfl | rfl
  · have hself := numEq_self (isNaN_of_isFinite g.isFinite_least)
    refine ⟨_, ?_, scaleDerivative_of_least hlt hself x y scale zeroPoint⟩
    rw [one_mul_of_finite hleast, zero_mul_of_finite hgreatest]
    exact isFinite_add_zero hleast _
  · have hself := numEq_self (isNaN_of_isFinite g.isFinite_greatest)
    have hne := not_numEq_of_lt hlt
    rw [numEq_comm] at hne
    refine ⟨_, ?_, scaleDerivative_of_greatest hne hself x y scale zeroPoint⟩
    rw [one_mul_of_finite hgreatest, zero_mul_of_finite hleast]
    exact isFinite_zero_add hgreatest _

/-- Whether a code is one of the bounds. -/
def Grid.isBound (g : Grid) (code : Single) : Bool :=
  code.numEq g.least || code.numEq g.greatest

/-- The derivative by the zero point on the bounds: minus the scale, and twice as much if the bounds
are the same number, because then a code is on both of them. -/
def Grid.boundDerivative (g : Grid) (scale : Single) : Single :=
  if g.least < g.greatest then -scale else 2 * -scale

/-- Bounds that are the same number cannot be told apart. -/
theorem numEq_least_eq_numEq_greatest (h : ¬ g.least < g.greatest) (code : Single) :
    code.numEq g.least = code.numEq g.greatest := by
  have hleast := isNaN_of_isFinite g.isFinite_least
  have hgreatest := isNaN_of_isFinite g.isFinite_greatest
  rw [lt_iff_extended hleast hgreatest, not_lt] at h
  have hsame := ((le_iff_extended hleast hgreatest).1 g.least_le_greatest).antisymm h
  rw [Bool.eq_iff_iff]
  constructor
  · intro hcode
    obtain ⟨hnumber, -⟩ := isNaN_of_numEq hcode
    exact (numEq_iff_extended hnumber hgreatest).2
      (((numEq_iff_extended hnumber hleast).1 hcode).trans hsame)
  · intro hcode
    obtain ⟨hnumber, -⟩ := isNaN_of_numEq hcode
    exact (numEq_iff_extended hnumber hleast).2
      (((numEq_iff_extended hnumber hgreatest).1 hcode).trans hsame.symm)

theorem zeroPointDerivative_of_least (hlt : g.least < g.greatest)
    (hcode : code.numEq g.least = true) {scale : Single} (hscale : scale.isFinite = true) :
    zeroPointDerivative g code scale = -scale := by
  have hweights : (1 : Single) + zero false = 1 := by decide +kernel
  rw [zeroPointDerivative, boundaryWeight_of_numEq hcode,
    boundaryWeight_of_ne (not_numEq_greatest hlt hcode), hweights,
    one_mul_of_finite ((isFinite_neg scale).trans hscale)]

theorem zeroPointDerivative_of_greatest (hlt : g.least < g.greatest)
    (hcode : code.numEq g.greatest = true) {scale : Single} (hscale : scale.isFinite = true) :
    zeroPointDerivative g code scale = -scale := by
  have hweights : zero false + (1 : Single) = 1 := by decide +kernel
  have hleast : code.numEq g.least = false := by
    rw [Bool.eq_false_iff]
    intro hleast
    exact absurd hcode (Bool.eq_false_iff.1 (not_numEq_greatest hlt hleast))
  rw [zeroPointDerivative, boundaryWeight_of_ne hleast, boundaryWeight_of_numEq hcode, hweights,
    one_mul_of_finite ((isFinite_neg scale).trans hscale)]

/-- Both weights are one, and they are added. -/
theorem zeroPointDerivative_of_both (hleast : code.numEq g.least = true)
    (hgreatest : code.numEq g.greatest = true) (scale : Single) :
    zeroPointDerivative g code scale = 2 * -scale := by
  have hweights : (1 : Single) + 1 = 2 := by decide +kernel
  rw [zeroPointDerivative, boundaryWeight_of_numEq hleast, boundaryWeight_of_numEq hgreatest,
    hweights]

theorem zeroPointDerivative_of_isBound {scale : Single} (hscale : scale.isFinite = true)
    (hcode : g.isBound code = true) :
    zeroPointDerivative g code scale = g.boundDerivative scale := by
  rw [Grid.isBound, Bool.or_eq_true] at hcode
  rw [Grid.boundDerivative]
  split_ifs with hlt
  · rcases hcode with hleast | hgreatest
    · exact zeroPointDerivative_of_least hlt hleast hscale
    · exact zeroPointDerivative_of_greatest hlt hgreatest hscale
  · have hsame := numEq_least_eq_numEq_greatest hlt code
    have hleast : code.numEq g.least = true := hcode.elim id hsame.trans
    exact zeroPointDerivative_of_both hleast (hsame.symm.trans hleast) scale

theorem zeroPointDerivative_of_not_isBound {scale : Single} (hscale : scale.isFinite = true)
    (hcode : g.isBound code = false) :
    ∃ negative, zeroPointDerivative g code scale = zero negative := by
  have hweights : (zero false : Single) + zero false = zero false := by decide +kernel
  obtain ⟨hleast, hgreatest⟩ := Bool.or_eq_false_iff.1 hcode
  rw [zeroPointDerivative, boundaryWeight_of_ne hleast, boundaryWeight_of_ne hgreatest, hweights,
    zero_mul_of_finite ((isFinite_neg scale).trans hscale)]
  exact ⟨_, rfl⟩

theorem isFinite_boundDerivative (hlt : g.least < g.greatest) {scale : Single}
    (hscale : scale.isFinite = true) : (g.boundDerivative scale).isFinite = true := by
  rw [Grid.boundDerivative, if_pos hlt, isFinite_neg, hscale]

theorem isBound_of_eq (h : code = g.least ∨ code = g.greatest) : g.isBound code = true := by
  rw [Grid.isBound, Bool.or_eq_true]
  rcases h with rfl | rfl
  · exact .inl (numEq_self (isNaN_of_isFinite g.isFinite_least))
  · exact .inr (numEq_self (isNaN_of_isFinite g.isFinite_greatest))

/-- A number outside the grid is moved to a bound. -/
theorem clamp_eq_bound (hcode : code.isNaN = false) (hout : g.contains code = false) :
    g.clamp code = g.least ∨ g.clamp code = g.greatest := by
  rcases g.cases_code hcode with hlt | hin | hgt
  · exact .inl (g.clamp_of_lt hlt)
  · exact absurd (hout.symm.trans hin) Bool.false_ne_true
  · exact .inr (g.clamp_of_gt hgt)

/-- What a saturated element contributes: a zero to the gradient of the zero point, and to that of
the scale a zero if the interior term is finite, and no number if it is not. -/
theorem parameterTerms_of_saturated (hlt : g.least < g.greatest) (hcode : code.isNaN = false)
    (hout : g.contains code = false) (hzero : zeroPoint.isFinite = true) {scale : Single}
    (hscale : scale.isFinite = true) (x y : Single) :
    let terms := parameterTerms g x y code (zero false) scale zeroPoint
    (((y - x) / scale).isFinite = true → ∃ negative, terms.1 = zero negative) ∧
      (((y - x) / scale).isFinite = false → terms.1 = nan) ∧
      ∃ negative, terms.2 = zero negative := by
  have hbound := clamp_eq_bound hcode hout
  obtain ⟨d, hd, hderivative⟩ := scaleDerivative_of_bound hlt hzero hbound x y scale
  simp only [parameterTerms, hderivative]
  refine ⟨fun hterm => ?_, fun hterm => ?_, ?_⟩
  · rw [zero_mul_of_finite hterm]
    exact ⟨_, mul_zero_of_finite (isFinite_add_zero hd _) false⟩
  · rw [zero_mul_of_not_finite hterm, add_nan]
    rfl
  · rw [zeroPointDerivative_of_isBound hscale (isBound_of_eq hbound)]
    exact ⟨_, mul_zero_of_finite (isFinite_boundDerivative hlt hscale) false⟩

end Element

/-! ### Whole tensors -/

namespace TensorCall

/-- The indices of the elements whose codes lie on the grid, in row-major order. -/
def onGrid (c : TensorCall s) : List (Index s) :=
  (List.ofFn Index.ofRank).filter fun i => c.kernel.grid.contains (c.codes.get i)

/-- Both sums of the contributions to the parameter gradients over the elements on the grid only,
from left to right, for an input gradient `dx`. -/
def onGridSums (c : TensorCall s) (dx : Tensor Single s) : Single × Single :=
  sumTerms (c.onGrid.map (c.terms dx).get)

/-- The term of the interior that the derivative by the scale has for an element. -/
def interior (c : TensorCall s) (i : Index s) : Single :=
  (c.output.get i - c.input.get i) / c.scale

/-- The parameter gradients of a call are those of the elements on the grid. Only a saturated
element whose interior term is not finite has an influence: then the gradient by the scale is not a
number. -/
structure SumsOverGrid (c : TensorCall s) (dx : Tensor Single s) (dscale dzero : Single) :
    Prop where
  zeroPoint : dzero = (c.onGridSums dx).2 * c.kernel.gradientFactor
  scale : (∀ i, c.kernel.grid.contains (c.codes.get i) = false → (c.interior i).isFinite = true) →
    dscale = (c.onGridSums dx).1 * c.kernel.gradientFactor
  scale_nan : (∃ i, c.kernel.grid.contains (c.codes.get i) = false ∧
    (c.interior i).isFinite = false) → dscale = nan

end TensorCall

/-- A finite scale with a finite inverse, and a finite zero point. -/
structure FiniteParameters (scale zeroPoint : Single) : Prop where
  isFinite_scale : scale.isFinite = true
  isFinite_inverse : (1 / scale).isFinite = true
  isFinite_zeroPoint : zeroPoint.isFinite = true

/-- The gradients of a call with finite numbers. -/
theorem sumsOverGrid (k : Kernel) (hgrid : k.grid.least < k.grid.greatest) {x : Tensor Single s}
    (hx : ∀ i, (x.get i).isFinite = true) {scale zeroPoint : Single}
    (hparameters : FiniteParameters scale zeroPoint) (dy : Tensor Single s) :
    let c := k.tensorCall x scale zeroPoint
    let dx := straightThrough k.grid dy c.codes
    let sums := sumTerms (c.terms dx).toList
    c.SumsOverGrid dx (sums.1 * k.gradientFactor) (sums.2 * k.gradientFactor) := by
  intro c dx sums
  have happlied :=
    k.grid.isFinite_effectiveZeroPoint (isNaN_of_isFinite hparameters.isFinite_zeroPoint)
  have hterms (i : Index s) (hout : k.grid.contains (c.codes.get i) = false) :
      ((c.interior i).isFinite = true → ∃ negative, ((c.terms dx).get i).1 = zero negative) ∧
        ((c.interior i).isFinite = false → ((c.terms dx).get i).1 = nan) ∧
        ∃ negative, ((c.terms dx).get i).2 = zero negative := by
    have hcode : (c.codes.get i).isNaN = false := by
      rw [TensorCall.get_codes]
      exact isNaN_quantizeValue (hx i) hparameters.isFinite_inverse happlied
    have hdx : dx.get i = zero false :=
      (Tensor.get_zipWith _ _ _ i).trans (inputGradient_of_not_contains _ hout)
    rw [TensorCall.terms, Tensor.get_ofFn, hdx]
    exact parameterTerms_of_saturated hgrid hcode hout happlied hparameters.isFinite_scale _ _
  -- the sums start from the positive zero, so zeros of either sign can be left out
  have hsums : sums = _ := (sumTerms_toList _).trans (sumTerms_map _ (c.terms dx).get)
  constructor
  case zeroPoint =>
    rw [TensorCall.onGridSums, sumTerms_map, hsums]
    refine congrArg (· * k.gradientFactor) ?_
    exact foldl_add_filter _ _ (fun i _ hout => (hterms i hout).2.2)
      zero_ne_negativeZero
  case scale =>
    intro hinterior
    rw [TensorCall.onGridSums, sumTerms_map, hsums]
    refine congrArg (· * k.gradientFactor) ?_
    exact foldl_add_filter _ _ (fun i _ hout => (hterms i hout).1 (hinterior i hout))
      zero_ne_negativeZero
  case scale_nan =>
    rintro ⟨i, hout, hinterior⟩
    have hnan := foldl_add_nan (fun i => ((c.terms dx).get i).1)
      ⟨i, mem_indices i, (hterms i hout).2.1 hinterior⟩ 0
    rw [hsums]
    exact congrArg (· * k.gradientFactor) hnan

/-- **Saturated elements and parameter gradients**: on a grid with two different bounds, with finite
inputs, parameters and inverses of scales, the gradient by a zero point is summed over the elements
on the grid, and so is the gradient by a scale if the interior term of every saturated element is
finite; otherwise it is not a number. In a pass along an axis this holds at every position with such
parameters, for the elements of its slice. -/
theorem saturated_contribute_nothing (k : Kernel) (hgrid : k.grid.least < k.grid.greatest)
    (x dy : Tensor Single s) (hx : ∀ i, (x.get i).isFinite = true) (t t' : Tracer) :
    (∀ scale zeroPoint, FiniteParameters scale zeroPoint →
      let call := ((k.forwardTensor x scale zeroPoint).run t).1
      ∃ dx dscale dzero,
        ((call.backward ⟨s, dy⟩).run t').1 =
          .ok { input := ⟨s, dx⟩, scale := [dscale], zeroPoint := [dzero] } ∧
        call.SumsOverGrid dx dscale dzero) ∧
    (∀ axis scale zeroPoint call,
      ((k.forwardChannels x axis scale zeroPoint).run t).1 = .ok call →
      ∃ p : ChannelParameters s,
        (axis = p.axis ∧ scale = p.scaleRow ∧ zeroPoint = p.zeroPointRow) ∧
        ∃ (dx : Tensor Single s) (dscale dzero : Vector Single (s.get p.axis)),
          ((call.backward ⟨s, dy⟩).run t').1 =
            .ok { input := ⟨s, dx⟩, scale := dscale.toList, zeroPoint := dzero.toList } ∧
          ∀ c, FiniteParameters (p.scaleAt c) (p.zeroPointAt c) →
            let slice :=
              ((k.forwardTensor (x.slice p.axis c) (p.scaleAt c) (p.zeroPointAt c)).run t).1
            slice.SumsOverGrid (dx.slice p.axis c) (dscale.get c) (dzero.get c)) := by
  constructor
  · intro scale zeroPoint hparameters
    simp only [forwardTensor_fst]
    exact ⟨_, _, _, TensorCall.backward_fst _ dy t', sumsOverGrid k hgrid hx hparameters dy⟩
  · intro axis scale zeroPoint call h
    obtain ⟨p, hp, rfl⟩ := forwardChannels_ok h
    refine ⟨p, hp, k.inputGradientAlong x p dy,
      Vector.ofFn fun c => (k.sumsAlong x p dy c).1 * k.gradientFactor,
      Vector.ofFn fun c => (k.sumsAlong x p dy c).2 * k.gradientFactor, ?_, fun c hparameters => ?_⟩
    · rw [backward_channelCall, Vector.toList_ofFn, Vector.toList_ofFn]
    · have hslice (i : Index (s.eraseIdx p.axis)) : ((x.slice p.axis c).get i).isFinite = true := by
        rw [Tensor.get_slice]
        exact hx _
      rw [forwardTensor_fst, get_vectorOfFn, get_vectorOfFn, Kernel.sumsAlong, slice_termsAlong,
        slice_inputGradientAlong]
      exact sumsOverGrid k hgrid hslice hparameters (dy.slice p.axis c)

/-- An element on the grid and one above it with a finite interior term, for the whole tensor and
along its axis. -/
theorem saturated_contribute_nothing_above_grid :
    let k : Kernel := { grid := ⟨0, 15, by decide⟩, gradientFactor := 1 }
    let x : Tensor Single [2] := Tensor.ofFn fun i => if i.1 = 0 then 3 else 40
    let call := ((k.forwardTensor x 1 0).run Tracer.fresh).1
    (∃ (dx : Tensor Single [2]) (dscale dzero : Single),
        ((call.backward ⟨[2], x⟩).run Tracer.fresh).1 =
          .ok { input := ⟨[2], dx⟩, scale := [dscale], zeroPoint := [dzero] } ∧
        dscale = (call.onGridSums dx).1 * 1 ∧ dzero = (call.onGridSums dx).2 * 1) ∧
      ∃ call,
        ((k.forwardChannels x 0 (.ofList [1, 1]) (.ofList [0, 0])).run Tracer.fresh).1 =
          .ok call ∧
        ∃ (p : ChannelParameters [2]) (dx : Tensor Single [2])
          (dscale dzero : Vector Single (List.get [2] p.axis)),
          ((call.backward ⟨[2], x⟩).run Tracer.fresh).1 =
            .ok { input := ⟨[2], dx⟩, scale := dscale.toList, zeroPoint := dzero.toList } ∧
          ∀ c, dzero.get c = ((k.sliceCall x p c).onGridSums (dx.slice p.axis c)).2 * 1 := by
  intro k x call
  have hx (i : Index [2]) : (x.get i).isFinite = true := by
    rw [Tensor.get_ofFn]
    split
    · decide +kernel
    · decide +kernel
  have hparameters : FiniteParameters 1 0 :=
    ⟨by decide +kernel, by decide +kernel, by decide +kernel⟩
  obtain ⟨htensor, hchannels⟩ := saturated_contribute_nothing k (by decide +kernel) x x hx
    Tracer.fresh Tracer.fresh
  constructor
  · obtain ⟨dx, dscale, dzero, hbackward, hsums⟩ := htensor 1 0 hparameters
    refine ⟨dx, dscale, dzero, hbackward, hsums.scale fun i _ => ?_, hsums.zeroPoint⟩
    rw [forwardTensor_fst, TensorCall.interior, TensorCall.get_output, Kernel.tensorCall,
      Tensor.get_ofFn]
    split
    · decide +kernel
    · decide +kernel
  · have hcall : ((k.forwardChannels x 0 (.ofList [1, 1]) (.ofList [0, 0])).run Tracer.fresh).1 =
        .ok (k.channelCall x ⟨0, #v[1, 1], #v[0, 0], 1, 1⟩) := forwardChannels_fst _ _ _ _ _ _
    obtain ⟨p, ⟨-, hscale, hzero⟩, dx, dscale, dzero, hbackward, hsums⟩ :=
      hchannels 0 (.ofList [1, 1]) (.ofList [0, 0]) _ hcall
    refine ⟨_, hcall, p, dx, dscale, dzero, hbackward, fun c => ?_⟩
    have hone : p.scaleAt c ∈ p.scaleRow.values :=
      Vector.mem_toList_iff.2 (Vector.getElem_mem c.isLt)
    have hzero' : p.zeroPointAt c ∈ p.zeroPointRow.values :=
      Vector.mem_toList_iff.2 (Vector.getElem_mem c.isLt)
    rw [← hscale] at hone
    rw [← hzero] at hzero'
    have hat : p.scaleAt c = 1 ∧ p.zeroPointAt c = 0 := by
      simp only [Row.ofList, List.mem_cons, List.not_mem_nil, or_false, or_self] at hone hzero'
      exact ⟨hone, hzero'⟩
    have hslice := (hsums c (by rw [hat.1, hat.2]; exact hparameters)).zeroPoint
    rwa [forwardTensor_fst] at hslice

/-- A finite element far above the grid, with a small scale: the distance between the element and
its output is finite, but over the scale it is not, and the gradient by the scale is not a number.
There is no element on the grid, so the sum over those is zero. -/
theorem scale_gradient_of_far_outlier :
    let k : Kernel := { grid := ⟨0, 255, by decide⟩, gradientFactor := 1 }
    let x : Tensor Single [1] := Tensor.ofFn fun _ => ofRat false (3 * 10 ^ 38)
    let dy : Tensor Single [1] := Tensor.ofFn fun _ => 1
    let scale : Single := ofRat false (1 / 10 ^ 10)
    let call := ((k.forwardTensor x scale 0).run Tracer.fresh).1
    (k.grid.least < k.grid.greatest ∧ 0 < scale ∧ FiniteParameters scale 0 ∧
        ∀ i, (x.get i).isFinite = true ∧ (dy.get i).isFinite = true) ∧
      ∃ dx, ((call.backward ⟨[1], dy⟩).run Tracer.fresh).1 =
          .ok { input := ⟨[1], dx⟩, scale := [nan], zeroPoint := [0] } ∧
        (call.onGridSums dx).1 * k.gradientFactor = 0 := by
  intro k x dy scale call
  have hfinite (i : Index [1]) : (x.get i).isFinite = true ∧ (dy.get i).isFinite = true := by
    rw [Tensor.get_ofFn, Tensor.get_ofFn]
    decide +kernel
  refine ⟨⟨by decide +kernel, by decide +kernel,
    ⟨by decide +kernel, by decide +kernel, by decide +kernel⟩, hfinite⟩,
    straightThrough k.grid dy call.codes, ?_, by decide +kernel⟩
  have hscale : (call.gradients dy).scale = [nan] := by decide +kernel
  have hzero : (call.gradients dy).zeroPoint = [0] := by decide +kernel
  rw [TensorCall.backward_fst, ← hscale, ← hzero]
  rfl

end FakeQuant
