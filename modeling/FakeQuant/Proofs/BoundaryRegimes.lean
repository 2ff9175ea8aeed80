import FakeQuant.Proofs.Clamping
import FakeQuant.Proofs.Saturation

/-!
# The derivative by the zero point on the bounds

On a bound of the grid the derivative of an element by the zero point is minus the scale. It is
computed with one weight for each bound, and the weights are added. That is right as long as no code
is on both bounds, which is the case exactly if the bounds are different numbers. The bounds of a
grid are different integers, but they are rounded to single precision first: only bounds beyond
24 bits that are at most 128 apart can be rounded to the same number (`Grid.bounds_of_not_lt`).

On every grid the derivative on the bounds is `Grid.boundDerivative`, and the gradient by a zero
point is the sum of its products with the input gradient over the elements on the bounds, from left
to right, in both kernels (`zero_point_gradient_over_bounds`). Where the bounds are the same number
it counts twice (`zero_point_gradient_doubled`).
-/

namespace FakeQuant

open Binary

variable {s : Shape}

/-! ### Bounds that are the same number -/

/-- A 32-bit integer is moved by 64 at most when it is rounded: the least one is a power of two, and
the others have a last place of 128 at most. -/
theorem abs_rounded_int32_sub_le (z : Int32) : |rounded .single z.toInt - z.toInt| ≤ 64 := by
  have hlow := Int32.le_toInt z
  have hhigh := Int32.toInt_lt z
  rcases hlow.eq_or_lt with hleast | hlow
  · have hpow : rounded .single ((-2 ^ 31 : Int) : Rat) = (-2 ^ 31 : Int) := by
      have hcast : ((-2 ^ 31 : Int) : Rat) = -(2 : Rat) ^ (31 : Int) := by norm_num
      rw [hcast, rounded_neg, rounded_two_pow (f := .single) (by decide)]
    rw [← hleast, hpow, sub_self, abs_zero]
    norm_num
  · have hbound : |(z.toInt : Rat)| < Format.single.limit * (2 : Rat) ^ (7 : Int) := by
      have hlimit : (Format.single.limit : Rat) * (2 : Rat) ^ (7 : Int) = 2 ^ 31 := by
        rw [limit_single]
        norm_num
      rw [hlimit, abs_lt]
      constructor
      · exact_mod_cast hlow
      · exact_mod_cast hhigh
    refine (abs_rounded_sub_le_of_lt (by decide) hbound).trans ?_
    norm_num

namespace Grid

variable {g : Grid}

theorem least_lt_greatest_iff :
    g.least < g.greatest ↔ rounded .single g.low.toInt < rounded .single g.high.toInt := by
  rw [lt_iff_value g.isFinite_least g.isFinite_greatest, g.value_least, g.value_greatest]

/-- Rounding makes the bounds equal only if both are beyond 24 bits, on the same side of zero, and
no further apart than two roundings can move them. -/
theorem bounds_of_not_lt (h : ¬ g.least < g.greatest) :
    (2 ^ 24 ≤ g.low.toInt ∨ g.high.toInt ≤ -2 ^ 24) ∧ g.high.toInt - g.low.toInt ≤ 128 := by
  rw [least_lt_greatest_iff, not_lt] at h
  have horder : g.low.toInt < g.high.toInt := Int32.lt_iff_toInt_lt.1 g.low_lt_high
  constructor
  · -- otherwise two neighbours of up to 24 bits, which are kept, lie between the bounds
    by_contra hnarrow
    rw [not_or, not_le, not_le] at hnarrow
    obtain ⟨hlow, hhigh⟩ := hnarrow
    let m := max g.low.toInt (-2 ^ 24)
    have hm : g.low.toInt ≤ m ∧ m + 1 ≤ g.high.toInt ∧ m.natAbs ≤ 2 ^ 24 ∧
        (m + 1).natAbs ≤ 2 ^ 24 := by
      omega
    obtain ⟨hleft, hright, hnat, hnat'⟩ := hm
    have hleast : rounded .single g.low.toInt ≤ m := by
      rw [← rounded_intCast (f := .single) (by decide) hnat]
      exact rounded_mono .single (Int.cast_le.2 hleft)
    have hgreatest : ((m + 1 : Int) : Rat) ≤ rounded .single g.high.toInt := by
      rw [← rounded_intCast (f := .single) (by decide) hnat']
      exact rounded_mono .single (Int.cast_le.2 hright)
    have hcross : m + 1 ≤ m := Int.cast_le.1 (hgreatest.trans (h.trans hleast))
    omega
  · have hlow := (abs_le.1 (abs_rounded_int32_sub_le g.low)).2
    have hhigh := (abs_le.1 (abs_rounded_int32_sub_le g.high)).1
    have hdistance : ((g.high.toInt - g.low.toInt : Int) : Rat) ≤ (128 : Int) := by
      rw [Int.cast_sub, Int.cast_ofNat]
      linarith
    exact Int.cast_le.1 hdistance

end Grid

/-! ### One element -/

section Element

variable {g : Grid}

/-- The least code is on both bounds if they are the same number. -/
theorem least_lt_greatest_iff_exclusive :
    g.least < g.greatest ↔
      ∀ code : Single, ¬ (code.numEq g.least = true ∧ code.numEq g.greatest = true) := by
  constructor
  · rintro hlt code ⟨hleast, hgreatest⟩
    exact absurd hgreatest (Bool.eq_false_iff.1 (not_numEq_greatest hlt hleast))
  · intro h
    by_contra hlt
    have hself := numEq_self (isNaN_of_isFinite g.isFinite_least)
    exact h g.least ⟨hself, (numEq_least_eq_numEq_greatest hlt g.least).symm.trans hself⟩

/-- The scale one tells minus the scale from twice as much. -/
theorem least_lt_greatest_iff_derivative :
    g.least < g.greatest ↔
      ∀ scale code : Single, scale.isFinite = true → g.isBound code = true →
        zeroPointDerivative g code scale = -scale := by
  constructor
  · intro hlt scale code hscale hcode
    rw [zeroPointDerivative_of_isBound hscale hcode, Grid.boundDerivative, if_pos hlt]
  · intro h
    by_contra hlt
    have hone : (1 : Single).isFinite = true := by decide +kernel
    have hbound := isBound_of_eq (g := g) (.inl rfl)
    have hsame := h 1 g.least hone hbound
    rw [zeroPointDerivative_of_isBound hone hbound, Grid.boundDerivative, if_neg hlt] at hsame
    have hdouble : (2 : Single) * -1 ≠ -1 := by decide +kernel
    exact hdouble hsame

theorem isFinite_inputGradient {dy : Single} (hdy : dy.isFinite = true) (code : Single) :
    (inputGradient g dy code).isFinite = true := by
  cases hin : g.contains code with
  | true => rwa [inputGradient_of_contains dy hin]
  | false =>
    rw [inputGradient_of_not_contains dy hin]
    rfl

end Element

/-! ### Sums over elements -/

/-- The derivative on the bounds times the input gradient `dx`, summed over those of some indices
whose codes are on a bound, from left to right. The codes are those of the input with the given
parameters. -/
def boundSum (g : Grid) (x dx : Tensor Single s) (scale zeroPoint : Single)
    (indices : List (Index s)) : Single :=
  let onBound := indices.filter fun i =>
    g.isBound (g.clamp (quantizeValue (x.get i) (1 / scale) zeroPoint))
  (onBound.map fun i => g.boundDerivative scale * dx.get i).foldl (· + ·) 0

/-- Elements that are on no bound contribute zeros, which the sum does not see. -/
theorem foldl_parameterTerms_snd (g : Grid) {scale : Single} (hscale : scale.isFinite = true)
    (zeroPoint : Single) (x y : Tensor Single s) {dx : Tensor Single s} {indices : List (Index s)}
    (hdx : ∀ i ∈ indices, (dx.get i).isFinite = true) :
    (indices.map fun i =>
      (parameterTerms g (x.get i) (y.get i) (quantizeValue (x.get i) (1 / scale) zeroPoint)
        (dx.get i) scale zeroPoint).2).foldl (· + ·) 0 =
      boundSum g x dx scale zeroPoint indices := by
  let onBound (i : Index s) : Bool :=
    g.isBound (g.clamp (quantizeValue (x.get i) (1 / scale) zeroPoint))
  have hzeros : ∀ i ∈ indices, onBound i = false → ∃ negative,
      (parameterTerms g (x.get i) (y.get i) (quantizeValue (x.get i) (1 / scale) zeroPoint)
        (dx.get i) scale zeroPoint).2 = zero negative := by
    intro i hi hbound
    obtain ⟨negative, hderivative⟩ := zeroPointDerivative_of_not_isBound hscale hbound
    rw [parameterTerms, hderivative, zero_mul_of_finite (hdx i hi)]
    exact ⟨_, rfl⟩
  rw [foldl_add_filter _ onBound hzeros zero_ne_negativeZero, boundSum]
  refine congrArg (List.foldl (· + ·) 0) (List.map_congr_left fun i hi => ?_)
  rw [parameterTerms, zeroPointDerivative_of_isBound hscale (List.mem_filter.1 hi).2]

/-! ### Kernels -/

/-- **The derivative by the zero point on the bounds.** The bounds of a grid exclude each other, and
the derivative there is minus the scale, exactly on the grids whose bounds are different numbers;
all grids are such but those with bounds beyond 24 bits that are at most 128 apart. On every grid
and for every finite scale the derivative on the bounds is `Grid.boundDerivative`, and a zero
elsewhere. So for finite output gradients the gradient by a zero point is its sum over the elements
on the bounds times the gradient factor: for every call of the whole-tensor kernel, and at every
position with a finite scale for every call along an axis. -/
theorem zero_point_gradient_over_bounds (k : Kernel) :
    let g := k.grid
    (g.least < g.greatest ↔
      ∀ code : Single, ¬ (code.numEq g.least = true ∧ code.numEq g.greatest = true)) ∧
    (g.least < g.greatest ↔
      ∀ scale code : Single, scale.isFinite = true → g.isBound code = true →
        zeroPointDerivative g code scale = -scale) ∧
    (¬ g.least < g.greatest →
      (2 ^ 24 ≤ g.low.toInt ∨ g.high.toInt ≤ -2 ^ 24) ∧ g.high.toInt - g.low.toInt ≤ 128) ∧
    (∀ scale code : Single, scale.isFinite = true →
      (g.isBound code = true → zeroPointDerivative g code scale = g.boundDerivative scale) ∧
      (g.isBound code = false → ∃ negative, zeroPointDerivative g code scale = zero negative)) ∧
    (∀ (x dy : Tensor Single s) (scale zeroPoint : Single) (t t' : Tracer),
      scale.isFinite = true → (∀ i, (dy.get i).isFinite = true) →
      let call := ((k.forwardTensor x scale zeroPoint).run t).1
      ∃ (dx : Tensor Single s) (dscale dzero : Single),
        ((call.backward ⟨s, dy⟩).run t').1 =
          .ok { input := ⟨s, dx⟩, scale := [dscale], zeroPoint := [dzero] } ∧
        dzero = boundSum g x dx scale (g.effectiveZeroPoint zeroPoint) (List.ofFn Index.ofRank) *
          k.gradientFactor) ∧
    (∀ (x dy : Tensor Single s) (axis : Fin s.length) (scale zeroPoint : Vector Single (s.get axis))
      (d : CallStrides (s.get axis)) (t t' : Tracer),
      ∃ call, ((k.forwardChannels x axis (d.scaleRow scale) (d.zeroPointRow zeroPoint)).run t).1 =
          .ok call ∧
        ∃ (dx : Tensor Single s) (dscale dzero : Fin (s.get axis) → Single),
          ((call.backward ⟨s, dy⟩).run t').1 =
            .ok
              { input := ⟨s, dx⟩
                scale := List.ofFn dscale
                zeroPoint := List.ofFn dzero } ∧
          ∀ c, (scale.get c).isFinite = true →
            (∀ i, i.coordinate axis = c → (dy.get i).isFinite = true) →
            dzero c = boundSum g x dx (scale.get c) (g.effectiveZeroPoint (zeroPoint.get c))
              (Index.along axis c) * k.gradientFactor) := by
  refine ⟨least_lt_greatest_iff_exclusive, least_lt_greatest_iff_derivative, Grid.bounds_of_not_lt,
    fun scale code hscale => ?element, ?tensor, ?channels⟩
  case element =>
    exact ⟨zeroPointDerivative_of_isBound hscale, zeroPointDerivative_of_not_isBound hscale⟩
  case tensor =>
    intro x dy scale zeroPoint t t' hscale hdy
    rw [forwardTensor_fst]
    refine ⟨_, _, _, TensorCall.backward_fst _ dy t', ?_⟩
    rw [sumTerms_terms, sumTerms_map]
    refine congrArg (· * k.gradientFactor) (foldl_parameterTerms_snd k.grid hscale _ x _ ?_)
    intro i _
    rw [get_straightThrough]
    exact isFinite_inputGradient (hdy i) _
  case channels =>
    intro x dy axis scale zeroPoint d t t'
    let p : ChannelParameters s := ⟨axis, scale, zeroPoint, d.scale, d.zeroPoint⟩
    refine ⟨_, forwardChannels_stored k x axis scale zeroPoint d t, _, _, _,
      backward_channelCall k x p dy t', ?_⟩
    intro c hscale hdy
    rw [sumsAlong_eq_sumTerms, sumTerms_map]
    refine congrArg (· * k.gradientFactor) (foldl_parameterTerms_snd k.grid hscale _ x _ ?_)
    intro i hi
    rw [get_inputGradientAlong]
    exact isFinite_inputGradient (hdy i (Index.coordinate_of_mem_along hi)) _

/-- An element on the greatest code, one inside the grid and one above it, for the whole tensor and
along its axis with two scales. -/
theorem zero_point_gradient_over_nibbles :
    let k : Kernel := { grid := ⟨0, 15, by decide⟩, gradientFactor := 1 }
    let x : Tensor Single [2] := Tensor.ofFn fun i => if i.1 = 0 then 3 else 40
    (¬ ((15 : Single).numEq k.grid.least = true ∧ (15 : Single).numEq k.grid.greatest = true) ∧
      zeroPointDerivative k.grid 15 2 = -2 ∧
      ∃ negative, zeroPointDerivative k.grid 3 2 = zero negative) ∧
    (∃ (dx : Tensor Single [2]) (dscale : Single),
      let call := ((k.forwardTensor x 2 0).run Tracer.fresh).1
      ((call.backward ⟨[2], x⟩).run Tracer.fresh).1 =
        .ok
          { input := ⟨[2], dx⟩
            scale := [dscale]
            zeroPoint :=
              [boundSum k.grid x dx 2 (k.grid.effectiveZeroPoint 0) (List.ofFn Index.ofRank) *
                k.gradientFactor] }) ∧
    ∃ call,
      ((k.forwardChannels x 0 (.ofList [2, 3]) (.ofList [0, 0])).run Tracer.fresh).1 = .ok call ∧
      ∃ (dx : Tensor Single [2]) (dscale dzero : Fin 2 → Single),
        ((call.backward ⟨[2], x⟩).run Tracer.fresh).1 =
          .ok { input := ⟨[2], dx⟩, scale := List.ofFn dscale, zeroPoint := List.ofFn dzero } ∧
        dzero 1 = boundSum k.grid x dx 3 (k.grid.effectiveZeroPoint 0) (Index.along 0 (1 : Fin 2)) *
          k.gradientFactor := by
  intro k x
  have hlt : k.grid.least < k.grid.greatest := by decide +kernel
  have hscale : (2 : Single).isFinite = true := by decide +kernel
  have hx (i : Index [2]) : (x.get i).isFinite = true := by
    rw [Tensor.get_ofFn]
    split
    · decide +kernel
    · decide +kernel
  obtain ⟨hexclusive, hderivative, -, helement, htensor, hchannels⟩ :=
    zero_point_gradient_over_bounds (s := [2]) k
  refine ⟨⟨hexclusive.1 hlt 15, hderivative.1 hlt 2 15 hscale (by decide +kernel),
    (helement 2 3 hscale).2 (by decide +kernel)⟩, ?_, ?_⟩
  · obtain ⟨dx, dscale, dzero, hbackward, hsum⟩ :=
      htensor x x 2 0 Tracer.fresh Tracer.fresh hscale hx
    rw [hsum] at hbackward
    exact ⟨dx, dscale, hbackward⟩
  · obtain ⟨call, hcall, dx, dscale, dzero, hbackward, hsum⟩ :=
      hchannels x x 0 #v[2, 3] #v[0, 0] (.new 2) Tracer.fresh Tracer.fresh
    refine ⟨call, hcall, dx, dscale, dzero, hbackward, ?_⟩
    exact hsum (1 : Fin 2) (by decide +kernel) fun i _ => hx i

/-- A grid of neighbours beyond 24 bits passes the check of the widest type. Its bounds are the same
number, so a code there is on both, the derivative is twice minus the scale, and so is the gradient
of an element there. -/
theorem zero_point_gradient_doubled :
    let g : Grid := ⟨16777216, 16777217, by decide⟩
    let code : Single := 16777216
    let x : Tensor Single [1] := Tensor.ofFn fun _ => 0
    let dy : Tensor Single [1] := Tensor.ofFn fun _ => 1
    let call := ((Kernel.forwardTensor ⟨g, 1⟩ x 1 0).run Tracer.fresh).1
    (Grid.ofBounds 16777216 16777217 = .ok g ∧ Dtype.check .qint32 g = .ok ()) ∧
      (code.numEq g.least = true ∧ code.numEq g.greatest = true) ∧
      zeroPointDerivative g code 1 = -2 ∧ zeroPointDerivative g code 1 ≠ -1 ∧
      ∃ dx, ((call.backward ⟨[1], dy⟩).run Tracer.fresh).1 =
        .ok { input := ⟨[1], dx⟩, scale := [0], zeroPoint := [-2] } := by
  intro g code x dy call
  refine ⟨⟨rfl, rfl⟩, by decide +kernel, by decide +kernel, by decide +kernel,
    straightThrough g dy call.codes, ?_⟩
  have hscale : (call.gradients dy).scale = [0] := by decide +kernel
  have hzero : (call.gradients dy).zeroPoint = [-2] := by decide +kernel
  rw [TensorCall.backward_fst, ← hscale, ← hzero]
  rfl

end FakeQuant
