import FakeQuant.Proofs.Saturation

/-!
# Missing values

The not-a-number value stands for what is missing in a tensor. A missing element has no code, the
move into the grid keeps that, and so the output is missing too. Nothing else loses its value on the
way: with a finite scale, the product with the inverse is a number unless a zero meets an infinite
inverse (`isNaN_quantizeValue_iff`), and what is moved into the grid is finite.

In backward the comparisons with the bounds refuse a missing code. So its input gradient is the
positive zero, both weights of the bounds are zero, and its contribution to the gradient by the zero
point is a zero, which the sum does not see; its interior term has no value, though, and neither has
the gradient by the scale (`missing_values_contained`). In a pass along an axis all of this stays
within the position of the missing element.
-/

namespace FakeQuant

variable {s : Shape}

/-! ### Arithmetic with missing operands -/

namespace Binary

variable {f : Format} {x : Binary f}

theorem isNaN_iff : x.isNaN = true ↔ x = nan := by
  cases x with
  | nan => exact iff_of_true rfl rfl
  | infinity => exact iff_of_false Bool.false_ne_true nofun
  | finite => exact iff_of_false Bool.false_ne_true nofun

theorem mul_nan (x : Binary f) : x * nan = nan := by
  cases x <;> rfl

/-- A product with an infinity has no value for the zeros. -/
theorem isNaN_mul_infinity (x : Binary f) (negative : Bool) :
    (x * infinity negative).isNaN = true ↔ x.isNaN = true ∨ x.numEq (zero false) = true := by
  cases x with
  | nan => exact iff_of_true rfl (.inl rfl)
  | infinity => exact iff_of_false Bool.false_ne_true (not_or_intro Bool.false_ne_true nofun)
  | finite a significand exponent h =>
    let x : Binary f := finite a significand exponent h
    rw [numEq_iff_value rfl rfl, value_zero]
    change (if x.value = 0 then nan else infinity (a ^^ negative)).isNaN = true ↔ _
    by_cases hzero : x.value = 0
    · rw [if_pos hzero]
      exact iff_of_true rfl (.inr hzero)
    · rw [if_neg hzero]
      exact iff_of_false Bool.false_ne_true (not_or_intro Bool.false_ne_true hzero)

end Binary

open Binary

/-! ### One element -/

section Element

variable {g : Grid} {code scale zeroPoint : Single}

/-- What has no code: a missing element, and a zero if the inverse of the scale is infinite. -/
theorem isNaN_quantizeValue_iff (hscale : scale.isFinite = true) (hzero : zeroPoint.isFinite = true)
    (x : Single) :
    (quantizeValue x (1 / scale) zeroPoint).isNaN = true ↔
      x.isNaN = true ∨ x.numEq 0 = true ∧ (1 / scale).isFinite = false := by
  rw [quantizeValue, isNaN_roundEven, isNaN_add _ hzero]
  rcases one_div_cases hscale with ⟨negative, hinverse⟩ | ⟨hinverse, -, hne⟩
  · rw [hinverse, isNaN_mul_infinity, zero_eq]
    exact or_congr_right (and_iff_left rfl).symm
  · rw [isNaN_mul _ hinverse hne, hinverse]
    exact (or_iff_left fun h => absurd h.2.symm Bool.false_ne_true).symm

theorem Grid.clamp_nan (g : Grid) : g.clamp nan = nan := by
  have hbelow : ¬ nan < g.least := fun h => nomatch (isNaN_of_lt h).1
  have habove : ¬ g.greatest < nan := fun h => nomatch (isNaN_of_lt h).2
  rw [clamp, if_neg hbelow, if_neg habove]

theorem Grid.contains_nan (g : Grid) : g.contains nan = false := by
  rw [Bool.eq_false_iff]
  intro h
  exact nomatch (isNaN_of_le (g.contains_iff.1 h).1).2

theorem Grid.isBound_nan (g : Grid) : g.isBound nan = false := rfl

/-- The distance of a number in the grid from a finite zero point is finite. -/
theorem isFinite_clamp_sub (g : Grid) (hcode : code.isNaN = false)
    (hzero : zeroPoint.isFinite = true) : (g.clamp code - zeroPoint).isFinite = true :=
  isFinite_sub_of_abs_le (g.clamp_between hcode).1 hzero (g.abs_clamp_le hcode)

/-- The output of a code is missing exactly if the code is. -/
theorem isNaN_dequantizeValue_clamp (g : Grid) (hscale : scale.isFinite = true)
    (hzero : zeroPoint.isFinite = true) (code : Single) :
    (dequantizeValue (g.clamp code) scale zeroPoint).isNaN = code.isNaN := by
  cases hcode : code.isNaN with
  | true =>
    rw [isNaN_iff.1 hcode, g.clamp_nan]
    rfl
  | false =>
    rw [dequantizeValue, mul_of_finite (isFinite_clamp_sub g hcode hzero) hscale]
    exact isNaN_ofRat _ _

/-- With finite parameters an element has an output exactly if it has a value. -/
theorem isNaN_fakeQuantizeValue (g : Grid) (hparameters : FiniteParameters scale zeroPoint)
    (x : Single) :
    (fakeQuantizeValue g x scale (1 / scale) (g.effectiveZeroPoint zeroPoint)).isNaN = x.isNaN := by
  have happlied := g.isFinite_effectiveZeroPoint (isNaN_of_isFinite hparameters.isFinite_zeroPoint)
  rw [fakeQuantizeValue, isNaN_dequantizeValue_clamp g hparameters.isFinite_scale happlied,
    Bool.eq_iff_iff, isNaN_quantizeValue_iff hparameters.isFinite_scale happlied,
    hparameters.isFinite_inverse]
  exact or_iff_left fun h => absurd h.2.symm Bool.false_ne_true

/-- A missing element has no influence on the gradient by the zero point, and spoils that by the
scale. -/
theorem parameterTerms_nan (g : Grid) (hscale : scale.isFinite = true) (x zeroPoint : Single) :
    ∃ negative,
      parameterTerms g x nan nan (zero false) scale zeroPoint = (nan, zero negative) := by
  obtain ⟨negative, hzero⟩ := zeroPointDerivative_of_not_isBound hscale g.isBound_nan
  have hinterior : ((nan : Single) - x) / scale = nan := rfl
  refine ⟨_, Prod.ext ?_ (?_ : _ = zero (negative ^^ false))⟩
  · rw [parameterTerms, g.clamp_nan, scaleDerivative, hinterior, mul_nan, add_nan]
    rfl
  · rw [parameterTerms, g.clamp_nan, hzero]
    exact mul_zero_of_finite rfl false

end Element

/-! ### Kernels -/

/-- What a pass makes of the missing elements among some indices: `y` and `dx` are the output and
the input gradient for the input `x`, and the gradients `dscale` and `dzero` of the parameters are
sums of the terms of the elements times a factor. -/
structure ReportsMissing (x y dx : Tensor Single s) (terms : Tensor (Single × Single) s)
    (dscale dzero factor : Single) (indices : List (Index s)) : Prop where
  output : ∀ i ∈ indices, (y.get i).isNaN = (x.get i).isNaN
  input : ∀ i ∈ indices, (x.get i).isNaN = true → dx.get i = zero false
  scale : (∃ i ∈ indices, (x.get i).isNaN = true) → dscale = nan
  zeroPoint_term : ∀ i ∈ indices, (x.get i).isNaN = true →
    ∃ negative, (terms.get i).2 = zero negative
  /-- The gradient by the zero point is that of the elements with a value. -/
  zeroPoint : dzero =
    ((indices.filter fun i => !(x.get i).isNaN).map fun i => (terms.get i).2).foldl (· + ·) 0 *
      factor

/-- A pass with finite parameters that contributes `parameterTerms` for each element reports the
missing ones. -/
theorem reportsMissing (g : Grid) {scale zeroPoint : Single}
    (hparameters : FiniteParameters scale zeroPoint) {x y dx : Tensor Single s}
    (dy : Tensor Single s) {terms : Tensor (Single × Single) s} {indices : List (Index s)}
    {sums : Single × Single}
    (hy : ∀ i ∈ indices, y.get i =
      fakeQuantizeValue g (x.get i) scale (1 / scale) (g.effectiveZeroPoint zeroPoint))
    (hdx : ∀ i ∈ indices, dx.get i = inputGradient g (dy.get i)
      (quantizeValue (x.get i) (1 / scale) (g.effectiveZeroPoint zeroPoint)))
    (hterms : ∀ i ∈ indices, terms.get i =
      parameterTerms g (x.get i) (y.get i)
        (quantizeValue (x.get i) (1 / scale) (g.effectiveZeroPoint zeroPoint)) (dx.get i) scale
        (g.effectiveZeroPoint zeroPoint))
    (hsums : sums = sumTerms (indices.map terms.get)) (factor : Single) :
    ReportsMissing x y dx terms (sums.1 * factor) (sums.2 * factor) factor indices := by
  have houtput : ∀ i ∈ indices, (y.get i).isNaN = (x.get i).isNaN := by
    intro i hi
    rw [hy i hi, isNaN_fakeQuantizeValue g hparameters]
  have hcode (i : Index s) (hx : (x.get i).isNaN = true) :
      quantizeValue (x.get i) (1 / scale) (g.effectiveZeroPoint zeroPoint) = nan := by
    rw [isNaN_iff.1 hx]
    rfl
  have hinput : ∀ i ∈ indices, (x.get i).isNaN = true → dx.get i = zero false := by
    intro i hi hx
    rw [hdx i hi, hcode i hx, inputGradient_of_not_contains _ g.contains_nan]
  have hterm : ∀ i ∈ indices, (x.get i).isNaN = true →
      ∃ negative, terms.get i = (nan, zero negative) := by
    intro i hi hx
    have hmissing : y.get i = nan := isNaN_iff.1 ((houtput i hi).trans hx)
    rw [hterms i hi, hinput i hi hx, hcode i hx, hmissing]
    exact parameterTerms_nan g hparameters.isFinite_scale _ _
  have hzero : ∀ i ∈ indices, (x.get i).isNaN = true →
      ∃ negative, (terms.get i).2 = zero negative := by
    intro i hi hx
    obtain ⟨negative, hpair⟩ := hterm i hi hx
    exact ⟨negative, congrArg Prod.snd hpair⟩
  rw [hsums, sumTerms_map]
  constructor
  case output => exact houtput
  case input => exact hinput
  case zeroPoint_term => exact hzero
  case scale =>
    rintro ⟨i, hi, hx⟩
    obtain ⟨negative, hpair⟩ := hterm i hi hx
    have hnan := foldl_add_nan (fun i => (terms.get i).1) ⟨i, hi, congrArg Prod.fst hpair⟩ 0
    exact congrArg (· * factor) hnan
  case zeroPoint =>
    refine congrArg (· * factor) (foldl_add_filter _ _ (fun i hi hx => ?_) zero_ne_negativeZero)
    rw [Bool.not_eq_false'] at hx
    exact hzero i hi hx

/-- **Missing values are reported and contained.** With finite parameters whose inverse scale is
finite, an output of either kernel is missing exactly if the element is. The input gradient there
is the positive zero; the gradient by the scale is missing too, and that by the zero point is the
sum over the elements with a value. In a pass along an axis this holds at every position for its own
elements, and a position without missing elements does not see those of the others: replaced by
anything, they leave its outputs, its input gradients and its parameter gradients as they are. -/
theorem missing_values_contained (k : Kernel) (x dy : Tensor Single s) (t t' : Tracer) :
    (∀ scale zeroPoint, FiniteParameters scale zeroPoint →
      let call := ((k.forwardTensor x scale zeroPoint).run t).1
      ∃ dx dscale dzero,
        ((call.backward ⟨s, dy⟩).run t').1 =
          .ok { input := ⟨s, dx⟩, scale := [dscale], zeroPoint := [dzero] } ∧
        ReportsMissing x call.output dx (call.terms dx) dscale dzero k.gradientFactor
          (List.ofFn Index.ofRank)) ∧
    (∀ (axis : Fin s.length) (scale zeroPoint : Vector Single (s.get axis))
      (d : CallStrides (s.get axis)),
      ∃ call channel,
        ((k.forwardChannels x axis (d.scaleRow scale) (d.zeroPointRow zeroPoint)).run t).1 =
          .ok call ∧
        call.layout = .ok channel ∧
        ∃ (dx : Tensor Single s) (dscale dzero : Fin (s.get axis) → Single),
          ((call.backward ⟨s, dy⟩).run t').1 =
            .ok
              { input := ⟨s, dx⟩
                scale := List.ofFn dscale
                zeroPoint := List.ofFn dzero } ∧
          ∀ c, FiniteParameters (scale.get c) (zeroPoint.get c) →
            ReportsMissing x call.output dx (call.terms channel (call.codes channel) dx) (dscale c)
              (dzero c) k.gradientFactor (Index.along axis c)) ∧
    (∀ (axis : Fin s.length) (scale zeroPoint : Vector Single (s.get axis))
      (d : CallStrides (s.get axis)) (x' : Tensor Single s),
      (∀ i, (x.get i).isNaN = false → x'.get i = x.get i) →
      ∃ call call',
        ((k.forwardChannels x axis (d.scaleRow scale) (d.zeroPointRow zeroPoint)).run t).1 =
          .ok call ∧
        ((k.forwardChannels x' axis (d.scaleRow scale) (d.zeroPointRow zeroPoint)).run t).1 =
          .ok call' ∧
        ∃ (dx dx' : Tensor Single s) (dscale dscale' dzero dzero' : Fin (s.get axis) → Single),
          ((call.backward ⟨s, dy⟩).run t').1 =
            .ok { input := ⟨s, dx⟩, scale := List.ofFn dscale, zeroPoint := List.ofFn dzero } ∧
          ((call'.backward ⟨s, dy⟩).run t').1 =
            .ok { input := ⟨s, dx'⟩, scale := List.ofFn dscale', zeroPoint := List.ofFn dzero' } ∧
          ∀ c, (∀ i, i.coordinate axis = c → (x.get i).isNaN = false) →
            (∀ i, i.coordinate axis = c →
              call'.output.get i = call.output.get i ∧ dx'.get i = dx.get i) ∧
            dscale' c = dscale c ∧ dzero' c = dzero c) := by
  refine ⟨?tensor, ?channels, ?independence⟩
  case tensor =>
    intro scale zeroPoint hparameters
    simp only [forwardTensor_fst]
    refine ⟨_, _, _, TensorCall.backward_fst _ dy t', ?_⟩
    refine reportsMissing k.grid hparameters dy (fun i _ => TensorCall.get_output k x _ _ i)
      (fun i _ => ?_) (fun i _ => TensorCall.get_terms k x _ _ _ i) (sumTerms_toList _) _
    rw [get_straightThrough, TensorCall.get_codes]
    rfl
  case channels =>
    intro axis scale zeroPoint d
    let p : ChannelParameters s := ⟨axis, scale, zeroPoint, d.scale, d.zeroPoint⟩
    obtain ⟨channel, hlayout, hchannel, hcodes⟩ := layout_channelCall k x p
    refine ⟨_, channel, forwardChannels_stored k x axis scale zeroPoint d t, hlayout, _, _, _,
      backward_channelCall k x p dy t', fun c hparameters => ?_⟩
    rw [terms_channelCall k x p dy hchannel hcodes]
    refine reportsMissing k.grid hparameters dy (fun i hi => ?_) (fun i hi => ?_) (fun i hi => ?_)
      (sumsAlong_eq_terms k x dy p c) _
    · rw [Kernel.channelCall, get_outputAlong, Index.coordinate_of_mem_along hi]
      rfl
    · rw [get_inputGradientAlong, Index.coordinate_of_mem_along hi]
      rfl
    · rw [get_termsAlong, Index.coordinate_of_mem_along hi]
      rfl
  case independence =>
    intro axis scale zeroPoint d x' hx'
    let p : ChannelParameters s := ⟨axis, scale, zeroPoint, d.scale, d.zeroPoint⟩
    refine ⟨_, _, forwardChannels_stored k x axis scale zeroPoint d t,
      forwardChannels_stored k x' axis scale zeroPoint d t, _, _, _, _, _, _,
      backward_channelCall k x p dy t', backward_channelCall k x' p dy t', fun c hc => ?_⟩
    have hsame (i : Index s) (hi : i.coordinate axis = c) : x'.get i = x.get i := hx' i (hc i hi)
    have hsums : k.sumsAlong x' p dy c = k.sumsAlong x p dy c :=
      sumsAlong_congr k rfl rfl (Tensor.slice_congr hsame) rfl
    refine ⟨fun i hi => ⟨?_, ?_⟩, ?_, ?_⟩
    · rw [Kernel.channelCall, get_outputAlong, hsame i hi, Kernel.channelCall, get_outputAlong]
    · rw [get_inputGradientAlong, get_inputGradientAlong, hsame i hi]
    · rw [hsums]
    · rw [hsums]

/-- A missing element beside one inside the grid, for the whole tensor and along its axis. With
another element in the place of the missing one, the second position has the same output. -/
theorem missing_values_contained_in_pair :
    let k : Kernel := { grid := ⟨0, 15, by decide⟩, gradientFactor := 1 }
    let x : Tensor Single [2] := Tensor.ofFn fun i => if i.1 = 0 then nan else 3
    let x' : Tensor Single [2] := Tensor.ofFn fun i => if i.1 = 0 then 7 else 3
    (∃ dx dzero,
      ((((k.forwardTensor x 1 0).run Tracer.fresh).1.backward ⟨[2], x⟩).run Tracer.fresh).1 =
        .ok { input := ⟨[2], dx⟩, scale := [nan], zeroPoint := [dzero] }) ∧
      (∃ call,
        ((k.forwardChannels x 0 (.ofList [1, 2]) (.ofList [0, 3])).run Tracer.fresh).1 =
          .ok call ∧
        ∀ i, (call.output.get i).isNaN = (x.get i).isNaN) ∧
      ∃ call call',
        ((k.forwardChannels x 0 (.ofList [1, 2]) (.ofList [0, 3])).run Tracer.fresh).1 =
          .ok call ∧
        ((k.forwardChannels x' 0 (.ofList [1, 2]) (.ofList [0, 3])).run Tracer.fresh).1 =
          .ok call' ∧
        ∀ i : Index [2], i.1 ≠ 0 → call'.output.get i = call.output.get i := by
  intro k x x'
  obtain ⟨htensor, hchannels, hindependence⟩ :=
    missing_values_contained k x x Tracer.fresh Tracer.fresh
  have hscales : ∀ c : Fin 2, FiniteParameters ((#v[1, 2] : Vector Single 2).get c)
      ((#v[0, 3] : Vector Single 2).get c) := by
    have hfinite : ∀ c : Fin 2, ((#v[1, 2] : Vector Single 2).get c).isFinite = true ∧
        (1 / (#v[1, 2] : Vector Single 2).get c).isFinite = true ∧
        ((#v[0, 3] : Vector Single 2).get c).isFinite = true := by decide +kernel
    intro c
    exact ⟨(hfinite c).1, (hfinite c).2.1, (hfinite c).2.2⟩
  have hmissing (i : Index [2]) : (x.get i).isNaN = true ↔ i.1 = 0 := by
    rw [Tensor.get_ofFn]
    split_ifs with hi
    · exact iff_of_true rfl hi
    · exact iff_of_false (by decide +kernel) hi
  refine ⟨?_, ?_, ?_⟩
  · obtain ⟨dx, dscale, dzero, hbackward, hreports⟩ := htensor 1 0 (hscales (0 : Fin 2))
    have hnan := hreports.scale ⟨((0 : Fin 2), ()), mem_indices _, (hmissing _).2 rfl⟩
    rw [hnan] at hbackward
    exact ⟨dx, dzero, hbackward⟩
  · obtain ⟨call, channel, hcall, -, dx, dscale, dzero, -, hreports⟩ :=
      hchannels 0 #v[1, 2] #v[0, 3] (.new 2)
    refine ⟨call, hcall, fun i => ?_⟩
    exact (hreports (i.coordinate _) (hscales _)).output i (Index.mem_along.2 rfl)
  · have hsame (i : Index [2]) (hi : (x.get i).isNaN = false) : x'.get i = x.get i := by
      have hne : ¬ i.1 = 0 := fun h => by
        rw [(hmissing i).2 h] at hi
        cases hi
      rw [Tensor.get_ofFn, Tensor.get_ofFn, if_neg hne, if_neg hne]
    obtain ⟨call, call', hcall, hcall', dx, dx', _, _, _, _, -, -, hagree⟩ :=
      hindependence 0 #v[1, 2] #v[0, 3] (.new 2) x' hsame
    refine ⟨call, call', hcall, hcall', fun i hi => ?_⟩
    refine ((hagree (i.coordinate _) fun j hj => ?_).1 i rfl).1
    have hj' : j.1 = i.1 := hj
    rw [Bool.eq_false_iff, Ne, hmissing, hj']
    exact hi

end FakeQuant
