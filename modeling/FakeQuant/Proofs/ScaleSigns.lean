import FakeQuant.Proofs.MissingValues

/-!
# Scales of every sign

No scale is refused, and none is noticed by its sign either. With the opposite scale, opposite
elements have the same codes and opposite outputs (`fakeQuantizeValue_neg`), because rounding and
all operations are symmetric. So a negative scale gives numbers wherever the positive scale of the
same magnitude does. A zero scale has an infinite inverse, which moves every code to a bound of the
grid, and the product with the scale brings that back to a zero.

What makes an output with a finite scale no number is that there is no code (`HasNoCode`): a missing
element, a missing zero point, or a zero that meets an infinite inverse. Otherwise only a product
past the largest number can make it infinite, which takes a scale beyond `2 ^ 95`
(`outputs_for_every_sign`).
-/

namespace FakeQuant

variable {s : Shape}

/-! ### Opposite numbers -/

namespace Binary

variable {f : Format}

theorem neg_ofMagnitude (negative : Bool) (q : Rat) :
    -(ofMagnitude negative q : Binary f) = ofMagnitude (!negative) q := by
  have hparts (significand : Nat) (exponent : Int) :
      -(ofParts negative significand exponent : Binary f) =
        ofParts (!negative) significand exponent := by
    rw [ofParts, ofParts]
    split_ifs
    · rfl
    · rfl
  rw [ofMagnitude, ofMagnitude]
  split_ifs
  · exact hparts _ _
  · exact hparts _ _

theorem neg_ofRat (negative : Bool) (q : Rat) :
    -(ofRat negative q : Binary f) = ofRat (!negative) (-q) := by
  rcases lt_trichotomy q 0 with hq | rfl | hq
  · rw [ofRat_of_neg negative hq, ofRat_of_pos _ (neg_pos.2 hq), neg_ofMagnitude]
    rfl
  · rw [neg_zero, ofRat_zero, ofRat_zero]
    rfl
  · rw [ofRat_of_pos negative hq, ofRat_of_neg _ (neg_neg_iff_pos.2 hq), neg_neg, neg_ofMagnitude]
    rfl

theorem isNegative_neg {x : Binary f} (hx : x.isFinite = true) :
    (-x).isNegative = !x.isNegative := by
  obtain ⟨_, _, _, _, rfl⟩ := exists_finite_eq hx
  rfl

protected theorem neg_neg (x : Binary f) : - -x = x := by
  cases x with
  | nan => rfl
  | infinity negative => exact congrArg infinity (Bool.not_not negative)
  | finite negative significand exponent h =>
    change finite (!!negative) significand exponent h = _
    rw [Bool.not_not]

theorem value_neg_eq_zero {x : Binary f} : (-x).value = 0 ↔ x.value = 0 := by
  rw [value_neg, neg_eq_zero]

protected theorem mul_comm (x y : Binary f) : x * y = y * x := by
  cases x with
  | nan => cases y <;> rfl
  | infinity a =>
    cases y with
    | nan => rfl
    | infinity b => exact congrArg infinity (Bool.xor_comm a b)
    | finite b significand exponent h =>
      change (if _ then _ else infinity (a ^^ b)) = if _ then _ else infinity (b ^^ a)
      rw [Bool.xor_comm]
  | finite a significand exponent h =>
    cases y with
    | nan => rfl
    | infinity b =>
      change (if _ then _ else infinity (a ^^ b)) = if _ then _ else infinity (b ^^ a)
      rw [Bool.xor_comm]
    | finite b => rw [mul_of_finite rfl rfl, mul_of_finite rfl rfl, Bool.xor_comm, mul_comm]

protected theorem mul_neg (x y : Binary f) : x * -y = -(x * y) := by
  cases x with
  | nan => rfl
  | infinity a =>
    cases y with
    | nan => rfl
    | infinity b => exact congrArg infinity (Bool.xor_not a b)
    | finite b significand exponent h =>
      let y : Binary f := finite b significand exponent h
      change (if (-y).value = 0 then nan else infinity (a ^^ !b)) =
        -if y.value = 0 then nan else infinity (a ^^ b)
      rw [apply_ite Neg.neg, Bool.xor_not, if_congr value_neg_eq_zero rfl rfl]
      rfl
  | finite a significand exponent h =>
    cases y with
    | nan => rfl
    | infinity b =>
      let x : Binary f := finite a significand exponent h
      change (if x.value = 0 then nan else infinity (a ^^ !b)) =
        -if x.value = 0 then nan else infinity (a ^^ b)
      rw [apply_ite Neg.neg, Bool.xor_not]
      rfl
    | finite b =>
      rw [mul_of_finite rfl rfl, mul_of_finite rfl rfl, value_neg, mul_neg, isNegative_neg rfl,
        Bool.xor_not, neg_ofRat]

protected theorem neg_mul_neg (x y : Binary f) : -x * -y = x * y := by
  calc -x * -y = -(y * -x) := by rw [Binary.mul_neg, Binary.mul_comm]
    _ = x * y := by rw [Binary.mul_neg, Binary.neg_neg, Binary.mul_comm]

protected theorem div_neg (x y : Binary f) : x / -y = -(x / y) := by
  cases x with
  | nan => rfl
  | infinity a =>
    cases y with
    | nan => rfl
    | infinity b => rfl
    | finite b => exact congrArg infinity (Bool.xor_not a b)
  | finite a significand exponent h =>
    cases y with
    | nan => rfl
    | infinity b => exact congrArg zero (Bool.xor_not a b)
    | finite b significand' exponent' h' =>
      let x : Binary f := finite a significand exponent h
      let y : Binary f := finite b significand' exponent' h'
      change x / -y = -(x / y)
      by_cases hzero : y.value = 0
      · rw [div_of_value_zero rfl rfl hzero, div_of_value_zero rfl rfl (value_neg_eq_zero.2 hzero),
          isNegative_neg rfl, Bool.xor_not, apply_ite Neg.neg]
        rfl
      · rw [div_of_finite rfl rfl (mt value_neg_eq_zero.1 hzero), div_of_finite rfl rfl hzero,
          value_neg, div_neg, isNegative_neg rfl, Bool.xor_not, neg_ofRat]

end Binary

open Binary

/-! ### One element -/

section Element

variable {x y scale zeroPoint : Single}

/-- An opposite element has the same code with the opposite scale. -/
theorem quantizeValue_neg (x scale zeroPoint : Single) :
    quantizeValue (-x) (1 / -scale) zeroPoint = quantizeValue x (1 / scale) zeroPoint := by
  rw [quantizeValue, quantizeValue, Binary.div_neg, Binary.neg_mul_neg]

/-- Fake quantization does not change under opposite signs of the element and the scale, but for
the sign of the output. -/
theorem fakeQuantizeValue_neg (g : Grid) (x scale zeroPoint : Single) :
    fakeQuantizeValue g (-x) (-scale) (1 / -scale) zeroPoint =
      -fakeQuantizeValue g x scale (1 / scale) zeroPoint := by
  rw [fakeQuantizeValue, fakeQuantizeValue, quantizeValue_neg, dequantizeValue, dequantizeValue,
    Binary.mul_neg]

/-- What has no code: a missing element, any element with a missing zero point, and a zero that
meets an infinite inverse. -/
def HasNoCode (x scale zeroPoint : Single) : Prop :=
  x.isNaN = true ∨ zeroPoint.isNaN = true ∨ x.numEq 0 = true ∧ (1 / scale).isFinite = false

instance (x scale zeroPoint : Single) : Decidable (HasNoCode x scale zeroPoint) :=
  inferInstanceAs (Decidable (_ ∨ _ ∨ _ ∧ _))

/-- The distance of an element's code, moved into the grid, from the zero point that is applied. -/
def codeDistance (g : Grid) (x scale zeroPoint : Single) : Single :=
  let applied := g.effectiveZeroPoint zeroPoint
  g.clamp (quantizeValue x (1 / scale) applied) - applied

theorem isNaN_code_iff (g : Grid) (hscale : scale.isFinite = true) (x zeroPoint : Single) :
    (quantizeValue x (1 / scale) (g.effectiveZeroPoint zeroPoint)).isNaN = true ↔
      HasNoCode x scale zeroPoint := by
  cases hzero : zeroPoint.isNaN with
  | true =>
    have hrounded : (nan + ofRat false (1 / 2) : Single).floor = nan := rfl
    rw [HasNoCode, isNaN_iff.1 hzero, Grid.effectiveZeroPoint, hrounded, g.clamp_nan, quantizeValue,
      add_nan]
    exact iff_of_true rfl (.inr (.inl rfl))
  | false =>
    rw [isNaN_quantizeValue_iff hscale (g.isFinite_effectiveZeroPoint hzero), HasNoCode, hzero]
    exact or_congr_right (or_iff_right Bool.false_ne_true).symm

/-- With a code, the distance from the applied zero point is a number of 32 bits and a sign. -/
theorem codeDistance_of_code (g : Grid) (hscale : scale.isFinite = true)
    (hcode : ¬ HasNoCode x scale zeroPoint) :
    (codeDistance g x scale zeroPoint).isFinite = true ∧
      |(codeDistance g x scale zeroPoint).value| ≤ 2 ^ 32 := by
  have hzero : zeroPoint.isNaN = false := by
    rw [Bool.eq_false_iff]
    exact fun h => hcode (.inr (.inl h))
  have hnumber : (quantizeValue x (1 / scale) (g.effectiveZeroPoint zeroPoint)).isNaN = false := by
    rw [Bool.eq_false_iff, Ne, isNaN_code_iff g hscale]
    exact hcode
  have happlied := g.isFinite_effectiveZeroPoint hzero
  have hfinite := isFinite_clamp_sub g hnumber happlied
  refine ⟨hfinite, ?_⟩
  rw [codeDistance]
  rw [sub_of_finite (g.clamp_between hnumber).1 happlied] at hfinite ⊢
  rw [value_ofRat hfinite]
  have hexact := (abs_sub _ _).trans
    (add_le_add (g.abs_clamp_le hnumber) (g.abs_effectiveZeroPoint_le hzero))
  exact_mod_cast abs_rounded_le (f := .single) (k := 32) (by decide)
    (hexact.trans (by norm_num))

/-- What the output `y` of an element is with a finite scale of any sign. -/
structure IsOutput (g : Grid) (x scale zeroPoint y : Single) : Prop where
  missing : y.isNaN = true ↔ HasNoCode x scale zeroPoint
  /-- The bound is half a unit above the largest number. -/
  finite : y.isFinite = true ↔ ¬ HasNoCode x scale zeroPoint ∧
    |(codeDistance g x scale zeroPoint).value * scale.value| < 2 ^ 128 - 2 ^ 103
  moderate : |scale.value| ≤ 2 ^ 95 → (y.isFinite = true ↔ ¬ HasNoCode x scale zeroPoint)
  vanishing : scale.value = 0 → ¬ HasNoCode x scale zeroPoint → ∃ negative, y = zero negative

/-- The output is the distance of the code times the scale, and has a value if there is a code. -/
theorem isOutput (g : Grid) (hscale : scale.isFinite = true) (x zeroPoint : Single) :
    IsOutput g x scale zeroPoint
      (fakeQuantizeValue g x scale (1 / scale) (g.effectiveZeroPoint zeroPoint)) := by
  let y := fakeQuantizeValue g x scale (1 / scale) (g.effectiveZeroPoint zeroPoint)
  have hy : y = codeDistance g x scale zeroPoint * scale := rfl
  have hmissing (h : HasNoCode x scale zeroPoint) : y = nan := by
    rw [hy, codeDistance, isNaN_iff.1 ((isNaN_code_iff g hscale x zeroPoint).2 h), g.clamp_nan]
    rfl
  have hnumber (h : ¬ HasNoCode x scale zeroPoint) : y.isNaN = false ∧
      (y.isFinite = true ↔
        |(codeDistance g x scale zeroPoint).value * scale.value| < 2 ^ 128 - 2 ^ 103) := by
    rw [hy, mul_of_finite (codeDistance_of_code g hscale h).1 hscale, isFinite_ofRat_iff,
      limit_single, maxExponent_single]
    refine ⟨isNaN_ofRat _ _, iff_of_eq (congrArg _ ?_)⟩
    norm_num
  have hfinite : y.isFinite = true ↔ ¬ HasNoCode x scale zeroPoint ∧
      |(codeDistance g x scale zeroPoint).value * scale.value| < 2 ^ 128 - 2 ^ 103 := by
    by_cases h : HasNoCode x scale zeroPoint
    · rw [hmissing h]
      exact iff_of_false Bool.false_ne_true fun h' => h'.1 h
    · rw [(hnumber h).2]
      exact (and_iff_right h).symm
  constructor
  case missing =>
    constructor
    · intro h
      by_contra hcode
      exact nomatch h.symm.trans (hnumber hcode).1
    · intro h
      exact isNaN_iff.2 (hmissing h)
  case finite => exact hfinite
  case moderate =>
    intro hmoderate
    rw [hfinite]
    refine and_iff_left_of_imp fun h => ?_
    calc |(codeDistance g x scale zeroPoint).value * scale.value|
        = |(codeDistance g x scale zeroPoint).value| * |scale.value| := abs_mul _ _
      _ ≤ 2 ^ 32 * 2 ^ 95 :=
        mul_le_mul (codeDistance_of_code g hscale h).2 hmoderate (abs_nonneg _) (by positivity)
      _ < 2 ^ 128 - 2 ^ 103 := by norm_num
  case vanishing =>
    intro hvanishing h
    have hzero : y = codeDistance g x scale zeroPoint * zero scale.isNegative :=
      congrArg (codeDistance g x scale zeroPoint * ·) (eq_zero_of_value hscale hvanishing)
    exact ⟨_, hzero.trans (mul_zero_of_finite (codeDistance_of_code g hscale h).1 _)⟩

end Element

/-! ### Kernels -/

/-- **Outputs for scales of every sign.** With a finite scale, negative, zero or positive, an output
of either kernel is not a number exactly if there is no code, and finite exactly if there is one and
the product with the scale stays below the overflow. With scales of up to `2 ^ 95` it always does,
and with a zero scale it is a zero. An opposite element with an opposite scale has the opposite
output. Along an axis all of this holds at every position, with the parameters there. -/
theorem outputs_for_every_sign (k : Kernel) (t : Tracer) :
    (∀ (x : Tensor Single s) (scale zeroPoint : Single), scale.isFinite = true → ∀ i,
      IsOutput k.grid (x.get i) scale zeroPoint
        (((k.forwardTensor x scale zeroPoint).run t).1.output.get i)) ∧
    (∀ (x x' : Tensor Single s) (scale zeroPoint : Single) (i : Index s), x'.get i = -x.get i →
      ((k.forwardTensor x' (-scale) zeroPoint).run t).1.output.get i =
        -((k.forwardTensor x scale zeroPoint).run t).1.output.get i) ∧
    (∀ (x : Tensor Single s) (axis : Fin s.length) (scale zeroPoint : Vector Single (s.get axis))
      (d : CallStrides (s.get axis)),
      ∃ call, ((k.forwardChannels x axis (d.scaleRow scale) (d.zeroPointRow zeroPoint)).run t).1 =
          .ok call ∧
        ∀ i, (scale.get (i.coordinate axis)).isFinite = true →
          IsOutput k.grid (x.get i) (scale.get (i.coordinate axis))
            (zeroPoint.get (i.coordinate axis)) (call.output.get i)) ∧
    (∀ (x x' : Tensor Single s) (axis : Fin s.length)
      (scale scale' zeroPoint zeroPoint' : Vector Single (s.get axis))
      (d d' : CallStrides (s.get axis)),
      ∃ call call',
        ((k.forwardChannels x axis (d.scaleRow scale) (d.zeroPointRow zeroPoint)).run t).1 =
          .ok call ∧
        ((k.forwardChannels x' axis (d'.scaleRow scale') (d'.zeroPointRow zeroPoint')).run t).1 =
          .ok call' ∧
        ∀ i, x'.get i = -x.get i →
          scale'.get (i.coordinate axis) = -scale.get (i.coordinate axis) →
          zeroPoint'.get (i.coordinate axis) = zeroPoint.get (i.coordinate axis) →
          call'.output.get i = -call.output.get i) := by
  refine ⟨?tensor, ?mirrored, ?channels, ?mirroredAlong⟩
  case tensor =>
    intro x scale zeroPoint hscale i
    rw [forwardTensor_fst, TensorCall.get_output]
    exact isOutput k.grid hscale _ _
  case mirrored =>
    intro x x' scale zeroPoint i hx
    rw [forwardTensor_fst, forwardTensor_fst, TensorCall.get_output, TensorCall.get_output, hx]
    exact fakeQuantizeValue_neg _ _ _ _
  case channels =>
    intro x axis scale zeroPoint d
    refine ⟨_, forwardChannels_stored k x axis scale zeroPoint d t, fun i hscale => ?_⟩
    rw [Kernel.channelCall, get_outputAlong]
    exact isOutput k.grid hscale _ _
  case mirroredAlong =>
    intro x x' axis scale scale' zeroPoint zeroPoint' d d'
    refine ⟨_, _, forwardChannels_stored k x axis scale zeroPoint d t,
      forwardChannels_stored k x' axis scale' zeroPoint' d' t, fun i hx hscale hzero => ?_⟩
    rw [Kernel.channelCall, Kernel.channelCall, get_outputAlong, get_outputAlong, hx]
    simp only [ChannelParameters.scaleAt, ChannelParameters.zeroPointAt,
      hscale, hzero]
    exact fakeQuantizeValue_neg _ _ _ _

/-- An element with a negative scale has a finite output, and so has one with a zero scale beside a
zero that has no code; the opposite element with the opposite scale has the opposite output. -/
theorem outputs_for_every_sign_of_pair :
    let k : Kernel := { grid := ⟨0, 255, by decide⟩, gradientFactor := 1 }
    let x : Tensor Single [2] := Tensor.ofFn fun i => if i.1 = 0 then -3 else 0
    let x' : Tensor Single [2] := Tensor.ofFn fun i => if i.1 = 0 then 3 else 0
    (∀ i, (((k.forwardTensor x (-1) 0).run Tracer.fresh).1.output.get i).isFinite = true) ∧
      ((k.forwardTensor x (-1) 0).run Tracer.fresh).1.output.get ((0 : Fin 2), ()) =
        -((k.forwardTensor x' 1 0).run Tracer.fresh).1.output.get ((0 : Fin 2), ()) ∧
      (∃ call,
        ((k.forwardChannels x 0 (.ofList [-1, 0]) (.ofList [0, 0])).run Tracer.fresh).1 =
          .ok call ∧
        (call.output.get ((0 : Fin 2), ())).isFinite = true ∧
        (call.output.get ((1 : Fin 2), ())).isNaN = true) ∧
      ∃ call call',
        ((k.forwardChannels x 0 (.ofList [-1, 0]) (.ofList [0, 0])).run Tracer.fresh).1 =
          .ok call ∧
        ((k.forwardChannels x' 0 (.ofList [1, 0]) (.ofList [0, 0])).run Tracer.fresh).1 =
          .ok call' ∧
        call'.output.get ((0 : Fin 2), ()) = -call.output.get ((0 : Fin 2), ()) := by
  intro k x x'
  obtain ⟨htensor, hmirrored, hchannels, hmirroredAlong⟩ :=
    outputs_for_every_sign (s := [2]) k Tracer.fresh
  have hcode : ∀ i : Fin 2, ¬ HasNoCode (if i = 0 then -3 else 0) (-1) 0 := by decide +kernel
  have hmoderate : |(-1 : Single).value| ≤ 2 ^ 95 := by decide +kernel
  refine ⟨fun i => ?_, ?_, ?_, ?_⟩
  · refine ((htensor x (-1) 0 (by decide +kernel) i).moderate hmoderate).2 ?_
    rw [Tensor.get_ofFn]
    exact hcode i.1
  · exact hmirrored x' x 1 0 ((0 : Fin 2), ()) (by decide +kernel)
  · obtain ⟨call, hcall, houtput⟩ := hchannels x 0 #v[-1, 0] #v[0, 0] (.new 2)
    refine ⟨call, hcall, ?_, ?_⟩
    · exact ((houtput ((0 : Fin 2), ()) (by decide +kernel)).moderate (by decide +kernel)).2
        (by decide +kernel)
    · exact (houtput ((1 : Fin 2), ()) (by decide +kernel)).missing.2 (by decide +kernel)
  · obtain ⟨call, call', hcall, hcall', houtput⟩ :=
      hmirroredAlong x x' 0 #v[-1, 0] #v[1, 0] #v[0, 0] #v[0, 0] (.new 2) (.new 2)
    exact ⟨call, call', hcall, hcall', houtput ((0 : Fin 2), ()) (by decide +kernel)
      (by decide +kernel) rfl⟩

/-- A negative scale and a zero scale with finite outputs, in both kernels. -/
theorem finite_outputs_of_nonpositive_scales :
    let k : Kernel := { grid := ⟨0, 255, by decide⟩, gradientFactor := 1 }
    let x : Tensor Single [2] := Tensor.ofFn fun i => if i.1 = 0 then -3 else 7
    (¬ (0 : Single) < -1 ∧ ∀ i,
        (((k.forwardTensor x (-1) 0).run Tracer.fresh).1.output.get i).isFinite = true) ∧
      (∀ i, ((k.forwardTensor x 0 0).run Tracer.fresh).1.output.get i = 0) ∧
      ∃ call,
        ((k.forwardChannels x 0 (.ofList [-1, 0]) (.ofList [0, 0])).run Tracer.fresh).1 =
          .ok call ∧
        ∀ i, (call.output.get i).isFinite = true := by
  intro k x
  have hindex (p : Index [2] → Prop) (hfirst : p ((0 : Fin 2), ())) (hsecond : p ((1 : Fin 2), ()))
      (i : Index [2]) : p i := by
    obtain ⟨c, ⟨⟩⟩ := i
    match c with
    | ⟨0, _⟩ => exact hfirst
    | ⟨1, _⟩ => exact hsecond
  refine ⟨⟨by decide +kernel, ?_⟩, ?_, _, forwardChannels_fst _ _ _ _ _ _, ?_⟩
  · exact hindex _ (by decide +kernel) (by decide +kernel)
  · exact hindex _ (by decide +kernel) (by decide +kernel)
  · exact hindex _ (by decide +kernel) (by decide +kernel)

end FakeQuant
