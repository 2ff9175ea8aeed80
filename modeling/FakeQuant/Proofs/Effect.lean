import FakeQuant.Proofs.Construction
import FakeQuant.Proofs.Dispatch

/-!
# The effect of a forward pass

A forward pass shows its tensor to the observer, once and whatever happens later. In the static
modes it then writes what the observer proposes at that moment, if that fits the channels
(`Quantizer.parametersAfter`), and last it produces an output with the parameters as they now are
(`Quantizer.Answers`). `forward_effect` says that this is all: mode, gradient scaling and grid stay,
and a pass that fails has left the same quantizer behind as one that succeeds.
-/

namespace FakeQuant

variable {s : Shape}

/-! ### Entry points with the bounds of a grid -/

theorem learnPerTensor_fst (g : Grid) (x : Tensor Single s)
    (scale zeroPoint gradientFactor : Single) (t : Tracer) :
    ((learnPerTensor x scale zeroPoint g.low g.high gradientFactor).run t).1 =
      .ok (Kernel.tensorCall { grid := g, gradientFactor } x scale zeroPoint) := by
  have hgrid : Grid.ofBounds g.low g.high = .ok g := Grid.ofBounds_eq_ok.mpr ⟨rfl, rfl⟩
  have hcall := forwardTensor_fst { grid := g, gradientFactor } x scale zeroPoint t
  rw [learnPerTensor, hgrid]
  exact congrArg Except.ok hcall

theorem learnPerChannel_fst (g : Grid) (x : Tensor Single s) (scale zeroPoint : Row Single)
    (axis : Nat) (gradientFactor : Single) (t : Tracer) :
    ((learnPerChannel x scale zeroPoint axis g.low g.high gradientFactor).run t).1 =
      Kernel.channelCall { grid := g, gradientFactor } x <$>
        ChannelParameters.callCheck s axis scale zeroPoint := by
  have hgrid : Grid.ofBounds g.low g.high = .ok g := Grid.ofBounds_eq_ok.mpr ⟨rfl, rfl⟩
  rw [learnPerChannel, hgrid]
  exact forwardChannels_fst { grid := g, gradientFactor } x axis scale zeroPoint t

/-- The first scale and zero point are there when both rows have a first value. -/
theorem Parameters.first_eq_ok {p : Parameters} {scale zeroPoint : Single} :
    p.first = .ok (scale, zeroPoint) ↔
      p.scale.values[0]? = some scale ∧ p.zeroPoint.values[0]? = some zeroPoint := by
  obtain ⟨⟨scales, _⟩, ⟨zeroPoints, _⟩⟩ := p
  cases scales with
  | nil => exact ⟨(nomatch ·), fun h => nomatch h.1⟩
  | cons scale' scales =>
    cases zeroPoints with
    | nil => exact ⟨(nomatch ·), fun h => nomatch h.2⟩
    | cons zeroPoint' zeroPoints => simp [first]

namespace Quantizer

variable {σ : Type} [Observer σ] {q q' : Quantizer σ} {x : AnyTensor Single}

/-! ### The parameters -/

/-- A refresh has nothing to do in modes that do not copy; in the others it writes a proposal that
fits, and refuses one that does not. -/
theorem refresh_cases (q : Quantizer σ) :
    (q.mode.copiesParameters = false ∧ q.refresh = .ok (q, [])) ∨
    (q.mode.copiesParameters = true ∧ q.proposal.Fits q.channels ∧
      q.refresh = .ok (q.replaceParameters (q.proposal.spread q.channels),
        warnings (q.proposal.spread q.channels).scale)) ∨
    (q.mode.copiesParameters = true ∧ ¬ q.proposal.Fits q.channels ∧
      ∃ e, q.refresh = .error e) := by
  cases hcopies : q.mode.copiesParameters with
  | false => exact .inl ⟨rfl, refresh_eq_ok.mpr (.inl ⟨hcopies, rfl, rfl⟩)⟩
  | true =>
    by_cases hfits : q.proposal.Fits q.channels
    · have hset := setParameters_eq_ok.mpr ⟨hfits, rfl, rfl⟩
      exact .inr (.inl ⟨rfl, hfits, refresh_eq_ok.mpr (.inr ⟨hcopies, hset⟩)⟩)
    · refine .inr (.inr ⟨rfl, hfits, ?_⟩)
      cases hrefresh : q.refresh with
      | error e => exact ⟨e, rfl⟩
      | ok written =>
        obtain ⟨hcopies', -, -⟩ | ⟨-, hset⟩ := refresh_eq_ok.mp hrefresh
        · rw [hcopies] at hcopies'
          cases hcopies'
        · exact absurd (setParameters_eq_ok.mp hset).1 hfits

/-- The parameters that a forward pass over a tensor leaves: in the static modes what the observer
proposes after it has seen the tensor, if that fits the channels, and otherwise those of before. -/
def parametersAfter (q : Quantizer σ) (x : AnyTensor Single) : Parameters :=
  match q.mode with
  | .disabled | .learning => q.parameters
  | .staticObservation | .staticEstimate =>
    let proposed := Observer.proposal (Observer.observe q.observer x)
    if proposed.Fits q.channels then proposed.spread q.channels else q.parameters

theorem parametersAfter_eq (q : Quantizer σ) (x : AnyTensor Single) :
    q.parametersAfter x =
      if q.mode.copiesParameters = true ∧ (q.seen x).proposal.Fits q.channels then
        (q.seen x).proposal.spread q.channels
      else q.parameters := by
  have hproposal : Observer.proposal (Observer.observe q.observer x) = (q.seen x).proposal := rfl
  unfold parametersAfter
  cases q.mode <;> simp [Mode.copiesParameters, hproposal]

/-- A pass leaves the quantizer that has seen the tensor, with its parameters as said. -/
theorem pass_quantizer (q : Quantizer σ) (x : AnyTensor Single) :
    (q.pass x).quantizer = (q.seen x).replaceParameters (q.parametersAfter x) := by
  rw [pass, parametersAfter_eq]
  obtain ⟨hcopies, hrefresh⟩ | ⟨hcopies, hfits, hrefresh⟩ | ⟨hcopies, hfits, e, hrefresh⟩ :=
    refresh_cases (q.seen x)
  · rw [hrefresh, if_neg fun h => Bool.noConfusion (hcopies.symm.trans h.1)]
    rfl
  · rw [hrefresh, if_pos ⟨hcopies, hfits⟩]
    rfl
  · rw [hrefresh, if_neg fun h => hfits h.2]
    rfl

/-! ### The output -/

/-- What the output of a successful pass over a tensor is, for a quantizer whose parameters are as
they stand when the output is produced: the tensor itself in the modes that do not quantize; in
static estimation its fake quantization with the scales and with the zero points that are applied;
in learning a call of the learnable kernel, the one that the entry points of the kernels return for
the bounds of the grid and the gradient factor of the tensor. -/
def Answers (q : Quantizer σ) (x : AnyTensor Single) (out : Output) : Prop :=
  match q.mode, q.scheme.axis? with
  | .disabled, _ | .staticObservation, _ => out = .passthrough x
  | .staticEstimate, none =>
    ∃ scale zeroPoint,
      (q.parameters.scale.values[0]? = some scale ∧
        q.parameters.zeroPoint.values[0]? = some zeroPoint) ∧
      out = .quantized ⟨x.shape,
        fakeQuantize q.grid x.tensor scale (q.grid.effectiveZeroPoint zeroPoint)⟩
  | .staticEstimate, some axis =>
    ∃ y, fakeQuantizePerChannel q.grid x.tensor q.parameters.scale
        (q.parameters.zeroPoint.map q.grid.effectiveZeroPoint) axis = .ok y ∧
      out = .quantized ⟨x.shape, y⟩
  | .learning, none =>
    ∃ scale zeroPoint,
      (q.parameters.scale.values[0]? = some scale ∧
        q.parameters.zeroPoint.values[0]? = some zeroPoint) ∧
      ∃ call, (∀ t, ((learnPerTensor x.tensor scale zeroPoint q.grid.low q.grid.high
          (q.gradientScaling.factor x.size q.grid.high)).run t).1 = .ok call) ∧
        out = .learnable (.tensor call)
  | .learning, some axis =>
    ∃ call, (∀ t, ((learnPerChannel x.tensor q.parameters.scale q.parameters.zeroPoint axis
        q.grid.low q.grid.high (q.gradientScaling.factor x.size q.grid.high)).run t).1 = .ok call) ∧
      out = .learnable (.channels call)

theorem answers_of_answer {out : Output} (h : q.answer x = .ok out) : q.Answers x out := by
  unfold Answers
  cases hmode : q.mode with
  | disabled =>
    rw [answer, hmode] at h
    cases h
    rfl
  | staticObservation =>
    rw [answer, hmode] at h
    cases h
    rfl
  | staticEstimate =>
    rw [answer, hmode] at h
    obtain ⟨y, hy, rfl⟩ := map_eq_ok.mp h
    unfold Scheme.fakeQuantize at hy
    cases haxis : q.scheme.axis? with
    | none =>
      rw [haxis, Parameters.first_effective] at hy
      obtain ⟨pair, hpair, hy⟩ := bind_eq_ok.mp hy
      obtain ⟨pair', hfirst, rfl⟩ := map_eq_ok.mp hpair
      cases hy
      exact ⟨pair'.1, pair'.2, Parameters.first_eq_ok.mp hfirst, rfl⟩
    | some axis =>
      rw [haxis] at hy
      obtain ⟨y', hy', hy⟩ := bind_eq_ok.mp hy
      cases hy
      exact ⟨y', hy', rfl⟩
  | learning =>
    rw [answer, hmode] at h
    obtain ⟨call, hcall, rfl⟩ := map_eq_ok.mp h
    unfold Scheme.call at hcall
    cases haxis : q.scheme.axis? with
    | none =>
      rw [haxis] at hcall
      obtain ⟨pair, hfirst, rfl⟩ := map_eq_ok.mp hcall
      exact ⟨pair.1, pair.2, Parameters.first_eq_ok.mp hfirst, _,
        fun t => learnPerTensor_fst q.grid x.tensor pair.1 pair.2 _ t, rfl⟩
    | some axis =>
      rw [haxis] at hcall
      obtain ⟨p, hcheck, rfl⟩ := map_eq_ok.mp hcall
      exact ⟨_, fun t => (learnPerChannel_fst q.grid x.tensor _ _ axis _ t).trans
        (congrArg (_ <$> ·) hcheck), rfl⟩

/-- **The effect of a forward pass**, on every quantizer, with every observer and over every tensor,
whether the pass succeeds or fails: the observer has seen the tensor exactly once more; mode,
gradient scaling and grid are as before; the parameters are as before or, in the static modes, the
proposal that the observer makes with the tensor seen, spread over the channels. An output, if there
is one, answers to the quantizer as it now is. -/
theorem forward_effect (q : Quantizer σ) (x : AnyTensor Single) (t : Tracer) :
    let pass := ((q.forward x).run t).1
    let after := pass.quantizer
    after.observer = Observer.observe q.observer x ∧
      (after.mode = q.mode ∧ after.gradientScaling = q.gradientScaling ∧ after.grid = q.grid) ∧
      after.parameters = q.parametersAfter x ∧
      ∀ out, pass.result = .ok out → after.Answers x out := by
  dsimp only
  rw [forward_fst]
  have hquantizer := pass_quantizer q x
  refine ⟨?_, ⟨?_, ?_, ?_⟩, ?_, fun out hout => ?_⟩
  · rw [hquantizer]
    rfl
  · rw [hquantizer]
    rfl
  · rw [hquantizer]
    rfl
  · rw [hquantizer]
    rfl
  · rw [hquantizer]
    rfl
  · obtain ⟨q', events, -, hq', hanswer⟩ := pass_result_eq_ok.mp hout
    rw [hq']
    exact answers_of_answer hanswer

/-- In static estimation the proposed scale is in force when the output is produced. -/
theorem forward_effect_of_estimate :
    let q : Quantizer ConstantObserver :=
      { grid := ⟨0, 255, by decide⟩, parameters := .single 1 0, mode := .staticEstimate
        gradientScaling := .disabled, observer := .perTensor 2 3 .quint8 }
    let pass := ((q.forward ⟨[2], .ofFn fun _ => 5⟩).run .fresh).1
    pass.quantizer.parameters = .single 2 3 ∧ pass.quantizer.observer.batches = 1 ∧
      ∃ out, pass.result = .ok out ∧ pass.quantizer.Answers ⟨[2], .ofFn fun _ => 5⟩ out := by
  intro q pass
  have hresult : ∃ out, pass.result = .ok out := ⟨_, rfl⟩
  obtain ⟨out, hout⟩ := hresult
  obtain ⟨hobserver, -, hparameters, hanswers⟩ :=
    forward_effect q ⟨[2], .ofFn fun _ => 5⟩ .fresh
  refine ⟨hparameters, ?_, out, hout, hanswers out hout⟩
  rw [hobserver]
  rfl

end Quantizer

end FakeQuant
