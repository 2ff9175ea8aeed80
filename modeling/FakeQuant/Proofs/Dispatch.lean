import FakeQuant.Proofs.Forward

/-!
# The two ways to fake-quantize

A quantizer that estimates rounds its zero points itself and calls fake quantization; a quantizer
that learns hands the continuous zero points to the learnable kernel. `fakeQuantize_effective` shows
that both do the same on the same parameters, and `learning_agrees_with_estimate` that a quantizer
may therefore go from one to the other between two passes over a tensor: nothing but the observer
and the kind of the output changes.
-/

namespace FakeQuant

/-- What an observer says does not change, whatever it sees. -/
def Observer.Keeps {σ α : Type} [Observer σ] (field : σ → α) (o : σ) : Prop :=
  ∀ tensors : List (AnyTensor Single), field (tensors.foldl Observer.observe o) = field o

/-- What a constant observer does not change when it sees one tensor, it never changes. -/
theorem ConstantObserver.keeps {α : Type} {field : ConstantObserver → α}
    (h : ∀ o x, field (Observer.observe o x) = field o) (o : ConstantObserver) :
    Observer.Keeps field o := by
  intro tensors
  induction tensors generalizing o with
  | nil => rfl
  | cons x tensors ih => exact (ih (Observer.observe o x)).trans (h o x)

/-- The first of the zero points that are applied is the one applied for the first. -/
theorem Parameters.first_effective (p : Parameters) (g : Grid) :
    (p.effective g).first = (fun pair => (pair.1, g.effectiveZeroPoint pair.2)) <$> p.first := by
  unfold first effective
  rw [Row.values_map]
  cases p.scale.values with
  | nil => rfl
  | cons scale scales =>
    cases p.zeroPoint.values with
    | nil => rfl
    | cons zeroPoint zeroPoints => rfl

/-- Fake quantization with the zero points that are applied gives what the learnable kernel gives
for the continuous ones, or fails with the same error. -/
theorem fakeQuantize_effective (scheme : Scheme) (k : Kernel) (x : AnyTensor Single)
    (p : Parameters) :
    scheme.fakeQuantize k.grid x (p.effective k.grid) = Call.output <$> scheme.call k x p := by
  unfold Scheme.fakeQuantize Scheme.call
  cases scheme.axis? with
  | none =>
    rw [Parameters.first_effective]
    cases p.first with
    | error e => rfl
    | ok pair => rfl
  | some axis =>
    change (fakeQuantizePerChannel k.grid x.tensor p.scale (p.zeroPoint.map _) axis >>= _) = _
    rw [fakeQuantizePerChannel_effective]
    dsimp only
    cases ChannelParameters.callCheck x.shape axis p.scale p.zeroPoint with
    | error e => rfl
    | ok checked => rfl

namespace Quantizer

variable {σ : Type} [Observer σ] {q q' : Quantizer σ} {x : AnyTensor Single}

theorem answer_estimate (q : Quantizer σ) (x : AnyTensor Single) :
    q.estimate.answer x =
      (fun call => .quantized call.output) <$>
        q.scheme.call (q.kernel x.size) x q.parameters := by
  change Output.quantized <$> q.scheme.fakeQuantize (q.kernel x.size).grid x
    (q.parameters.effective (q.kernel x.size).grid) = _
  rw [fakeQuantize_effective, ← comp_map]
  rfl

theorem answer_learn (q : Quantizer σ) (x : AnyTensor Single) :
    q.learn.answer x = .learnable <$> q.scheme.call (q.kernel x.size) x q.parameters :=
  rfl

omit [Observer σ] in
theorem estimate_of_mode (h : q.mode = .staticEstimate) : q.estimate = q := by
  rw [estimate, setMode, ← h]

/-- The answer fails when the mode quantizes and the parameters do not go with the tensor. -/
theorem answer_eq_error {e : Error} :
    q.answer x = .error e ↔
      q.mode.quantizes = true ∧ q.scheme.call (q.kernel x.size) x q.parameters = .error e := by
  cases hmode : q.mode with
  | disabled =>
    rw [answer, hmode]
    exact ⟨(nomatch ·), fun h => nomatch h.1⟩
  | staticObservation =>
    rw [answer, hmode]
    exact ⟨(nomatch ·), fun h => nomatch h.1⟩
  | staticEstimate =>
    rw [← estimate_of_mode hmode, answer_estimate, map_eq_error]
    exact ⟨fun h => ⟨rfl, h⟩, And.right⟩
  | learning =>
    rw [answer, hmode]
    exact map_eq_error.trans ⟨fun h => ⟨rfl, h⟩, And.right⟩

/-- A learning pass shows the tensor to the observer and answers with the parameters as they are. -/
theorem pass_learn (q : Quantizer σ) (x : AnyTensor Single) :
    q.learn.pass x =
      { quantizer := (q.seen x).learn, events := [], result := (q.seen x).learn.answer x } :=
  rfl

/-- **Learning agrees with estimating**: on any parameters, the two ways to fake-quantize succeed
together and with the same tensor, or fail with the same error. And whenever an estimating pass over
a tensor succeeds, so does a learning pass over it thereafter; it gives the same tensor and leaves
the parameters as the estimating pass has left them. -/
theorem learning_agrees_with_estimate (q : Quantizer σ) (x : AnyTensor Single) :
    (∀ t t', Output.tensor <$> ((q.estimate.produce x).run t).1 =
      Output.tensor <$> ((q.learn.produce x).run t').1) ∧
    (Observer.Keeps Observer.scheme q.observer → q.mode = .staticEstimate → ∀ t t' out,
      let first := ((q.forward x).run t).1
      let second := ((first.quantizer.learn.forward x).run t').1
      first.result = .ok out →
        second.quantizer.parameters = first.quantizer.parameters ∧
        ∃ call, out = .quantized call.output ∧ second.result = .ok (.learnable call)) := by
  refine ⟨fun t t' => ?_, fun hscheme hmode t t' out => ?_⟩
  · rw [produce_fst, produce_fst, answer_estimate, answer_learn, ← comp_map, ← comp_map]
    rfl
  · dsimp only
    rw [forward_fst, forward_fst]
    intro hfirst
    obtain ⟨q', events, hrefresh, hq', hout⟩ := pass_result_eq_ok.mp hfirst
    obtain ⟨written, hwritten, -⟩ := rewrites_refresh hrefresh
    have hmode' : q'.mode = .staticEstimate := by
      rw [hwritten]
      exact hmode
    -- the observer sees the tensor once more, and still names the same scheme
    have hscheme' : (q'.seen x).scheme = q'.scheme := by
      rw [hwritten]
      exact (hscheme [x, x]).trans (hscheme [x]).symm
    rw [← estimate_of_mode hmode', answer_estimate, map_eq_ok] at hout
    obtain ⟨call, hcall, rfl⟩ := hout
    rw [hq', pass_learn, answer_learn, hscheme']
    refine ⟨rfl, call, rfl, ?_⟩
    exact congrArg (Output.learnable <$> ·) hcall

/-- With a constant observer, over a matrix of ones. -/
theorem learning_agrees_with_estimate_on_ones :
    let q : Quantizer ConstantObserver :=
      { grid := ⟨0, 15, by decide⟩
        parameters := .single 1 0
        mode := .staticEstimate
        gradientScaling := .elementCount
        observer := .perTensor 2 3 .quint8 }
    let x : AnyTensor Single := ⟨[2, 3], Tensor.ofFn fun _ => 1⟩
    let first := ((q.forward x).run .fresh).1
    ∃ out, first.result = .ok out ∧ ∃ call, out = .quantized call.output ∧
      ((first.quantizer.learn.forward x).run .fresh).1.result = .ok (.learnable call) := by
  intro q x first
  have hfirst : first.result =
      .ok (.quantized ⟨[2, 3], fakeQuantize q.grid x.tensor 2 (q.grid.effectiveZeroPoint 3)⟩) :=
    congrArg Pass.result (forward_fst q x .fresh)
  have hagree := (learning_agrees_with_estimate q x).2
    (ConstantObserver.keeps (fun _ _ => rfl) q.observer) rfl .fresh .fresh _ hfirst
  exact ⟨_, hfirst, hagree.2⟩

end Quantizer

end FakeQuant
