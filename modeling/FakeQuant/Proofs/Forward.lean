import FakeQuant.Proofs.Calls
import FakeQuant.Proofs.Writers

/-!
# What a forward pass comes to

A forward pass carries a tracer along, but nothing that it returns depends on the tracer:
`forward_fst` says that its result is `Quantizer.pass`, which knows no tracer. The lemmas about
`refresh` and `pass` say what a pass can do to the quantizer: the observer sees the tensor, the
parameters may be written, and nothing else changes.
-/

namespace FakeQuant

/-- The call of the learnable kernel under a scheme. -/
def Scheme.call (scheme : Scheme) (k : Kernel) (x : AnyTensor Single) (p : Parameters) :
    Except Error Call :=
  match scheme.axis? with
  | some axis =>
    (fun p => .channels (k.channelCall x.tensor p)) <$>
      ChannelParameters.callCheck x.shape axis p.scale p.zeroPoint
  | none => (fun pair => .tensor (k.tensorCall x.tensor pair.1 pair.2)) <$> p.first

theorem learn_fst (scheme : Scheme) (k : Kernel) (x : AnyTensor Single) (p : Parameters)
    (t : Tracer) : ((scheme.learn k x p).run t).1 = scheme.call k x p := by
  unfold Scheme.learn Scheme.call
  cases scheme.axis? with
  | some axis =>
    have h := forwardChannels_fst k x.tensor axis p.scale p.zeroPoint t
    change (Call.channels <$> ((k.forwardChannels x.tensor axis p.scale p.zeroPoint).run t).1) = _
    rw [h, ← comp_map]
    rfl
  | none =>
    cases p.first with
    | error e => rfl
    | ok pair =>
      change Except.ok (Call.tensor ((k.forwardTensor x.tensor pair.1 pair.2).run t).1) = _
      rw [forwardTensor_fst]
      rfl

/-- The kernel is called unless its parameters are refused. -/
theorem Scheme.call_eq_error {scheme : Scheme} {k : Kernel} {x : AnyTensor Single} {p : Parameters}
    {e : Error} :
    scheme.call k x p = .error e ↔
      match scheme.axis? with
      | some axis => ChannelParameters.callCheck x.shape axis p.scale p.zeroPoint = .error e
      | none => p.first = .error e := by
  unfold Scheme.call
  cases scheme.axis? with
  | some axis => exact map_eq_error
  | none => exact map_eq_error

namespace Quantizer

variable {σ : Type} [Observer σ] {q q' : Quantizer σ} {x : AnyTensor Single}

/-- The quantizer after its observer has seen a tensor. -/
def seen (q : Quantizer σ) (x : AnyTensor Single) : Quantizer σ :=
  { q with observer := Observer.observe q.observer x }

/-- The output that the mode asks for. -/
def answer (q : Quantizer σ) (x : AnyTensor Single) : Except Error Output :=
  if q.mode.quantizes = false then .ok (.passthrough x)
  else if q.mode.isLearning then
    .learnable <$> q.scheme.call (q.kernel x.size) x q.parameters
  else .quantized <$> q.scheme.fakeQuantize q.grid x (q.parameters.effective q.grid)

/-- A forward pass. -/
def pass (q : Quantizer σ) (x : AnyTensor Single) : Pass σ :=
  match (q.seen x).refresh with
  | .error e => { quantizer := q.seen x, events := [], result := .error e }
  | .ok (q, events) => { quantizer := q, events, result := q.answer x }

theorem produce_fst (q : Quantizer σ) (x : AnyTensor Single) (t : Tracer) :
    ((q.produce x).run t).1 = q.answer x := by
  unfold produce answer
  cases q.mode.quantizes with
  | false => rfl
  | true =>
    cases q.mode.isLearning with
    | false =>
      change (Output.quantized <$> ((span .forward "static" (pure (q.scheme.fakeQuantize q.grid x
        (q.parameters.effective q.grid)))).run t).1 : Except Error Output) = _
      rw [run_span]
      rfl
    | true =>
      change Output.learnable <$> ((q.scheme.learn _ x q.parameters).run t).1 = _
      rw [learn_fst]
      rfl

theorem observe_fst (q : Quantizer σ) (x : AnyTensor Single) (t : Tracer) :
    ((q.observe x).run t).1 = q.seen x := by
  rw [observe, run_span]
  rfl

/-- A forward pass observes, refreshes the parameters, and produces the output if that succeeded. -/
theorem forward_run (q : Quantizer σ) (x : AnyTensor Single) (t : Tracer) :
    (q.forward x).run t =
      let observed := ((q.observe x).run t).2
      match (q.seen x).refresh with
      | .error e => ({ quantizer := q.seen x, events := [], result := .error e }, observed)
      | .ok (q, events) =>
        let produced := (q.produce x).run observed
        ({ quantizer := q, events, result := produced.1 }, produced.2) := by
  have hobserve := observe_fst q x t
  rw [forward, StateT.run_bind]
  -- the quantizer after observing is known, its tracer is not needed
  generalize (q.observe x).run t = observed at hobserve ⊢
  obtain ⟨_, t'⟩ := observed
  cases hobserve
  change StateT.run (match (q.seen x).refresh with | .error e => _ | .ok (q, events) => _) t' = _
  cases (q.seen x).refresh with
  | error e => rfl
  | ok written => rfl

/-- Whatever the tracer has recorded, a forward pass returns the same. -/
theorem forward_fst (q : Quantizer σ) (x : AnyTensor Single) (t : Tracer) :
    ((q.forward x).run t).1 = q.pass x := by
  rw [forward_run, pass]
  cases (q.seen x).refresh with
  | error e => rfl
  | ok written =>
    change ({ quantizer := written.1, events := written.2, result := _ } : Pass σ) = _
    rw [produce_fst]

/-- A refresh keeps the quantizer as it is or writes the proposal. -/
theorem refresh_eq_ok {events : List Event} :
    q.refresh = .ok (q', events) ↔
      (q.mode.copiesParameters = false ∧ q' = q ∧ events = []) ∨
        (q.mode.copiesParameters = true ∧ q.setParameters q.proposal = .ok (q', events)) := by
  rw [refresh]
  cases q.mode.copiesParameters with
  | false =>
    constructor
    · intro h
      cases h
      exact .inl ⟨rfl, rfl, rfl⟩
    · rintro (⟨-, rfl, rfl⟩ | ⟨h, -⟩)
      · rfl
      · cases h
  | true =>
    constructor
    · exact fun h => .inr ⟨rfl, h⟩
    · rintro (⟨h, -⟩ | ⟨-, h⟩)
      · cases h
      · exact h

/-- A refresh fails when the mode copies a proposal that cannot be written. -/
theorem refresh_eq_error {e : Error} :
    q.refresh = .error e ↔
      q.mode.copiesParameters = true ∧ q.setParameters q.proposal = .error e := by
  rw [refresh]
  cases q.mode.copiesParameters with
  | false => exact ⟨(nomatch ·), fun h => nomatch h.1⟩
  | true => exact ⟨fun h => ⟨rfl, h⟩, And.right⟩

theorem rewrites_refresh {events : List Event} (h : q.refresh = .ok (q', events)) :
    q.Rewrites q' := by
  rcases refresh_eq_ok.mp h with ⟨-, rfl, -⟩ | ⟨-, h⟩
  · exact .refl q'
  · exact rewrites_setParameters h

/-- A forward pass shows the tensor to the observer and may write the parameters; it changes
nothing else, whether it succeeds or not. -/
theorem rewrites_pass (q : Quantizer σ) (x : AnyTensor Single) :
    (q.seen x).Rewrites (q.pass x).quantizer := by
  rw [pass]
  cases h : (q.seen x).refresh with
  | error e => exact .refl _
  | ok written => exact rewrites_refresh h

/-- A forward pass that gives an output has refreshed the parameters and then answered. -/
theorem pass_result_eq_ok {out : Output} :
    (q.pass x).result = .ok out ↔
      ∃ q' events, (q.seen x).refresh = .ok (q', events) ∧
        (q.pass x).quantizer = q' ∧ q'.answer x = .ok out := by
  rw [pass]
  cases (q.seen x).refresh with
  | error e =>
    constructor
    · intro h
      cases h
    · rintro ⟨q', events, h, -⟩
      cases h
  | ok written =>
    constructor
    · exact fun h => ⟨written.1, written.2, rfl, rfl, h⟩
    · rintro ⟨q', events, h, -, hout⟩
      cases h
      exact hout

/-- A forward pass fails when the refresh does, or the answer with the refreshed parameters. -/
theorem pass_result_eq_error {e : Error} :
    (q.pass x).result = .error e ↔
      (q.seen x).refresh = .error e ∨
        ∃ q' events, (q.seen x).refresh = .ok (q', events) ∧ q'.answer x = .error e := by
  rw [pass]
  cases (q.seen x).refresh with
  | error e' =>
    constructor
    · intro h
      cases h
      exact .inl rfl
    · rintro (h | ⟨q', events, h, -⟩)
      · cases h
        rfl
      · cases h
  | ok written =>
    constructor
    · exact fun h => .inr ⟨written.1, written.2, rfl, h⟩
    · rintro (h | ⟨q', events, h, he⟩)
      · cases h
      · cases h
        exact he

end Quantizer

end FakeQuant
