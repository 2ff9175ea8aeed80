import FakeQuant.Config.Yaml
import FakeQuant.Proofs.Acceptance
import FakeQuant.Proofs.AxisFaults
import FakeQuant.Proofs.Effect

/-!
# The two classes of errors

An error is one of configuration or one of a single call (`Error.isConfigError`), and an operation
raises errors of one class only. `RaisesOnly` says so of an outcome and is closed under the ways to
compose outcomes, so that each function needs to be looked at once, for the errors that it raises
itself: what builds and reads configurations first, then the checks of shapes and lengths, then the
work on parameters and the forward pass, which are composed of these.

The entry points with unchecked grid bounds are where the classes meet: bounds that are not in order
are looked at first (`learnPerTensor_fst_of_not_lt`, `learnPerChannel_fst_of_not_lt`), and whatever
fails thereafter is no matter of configuration.
-/

namespace FakeQuant

/-- An outcome is a result or an error of one class: of configuration or not. -/
def RaisesOnly {α : Type} (config : Bool) (r : Except Error α) : Prop :=
  ∀ e, r = .error e → e.isConfigError = config

namespace RaisesOnly

variable {α β : Type} {config : Bool} {r : Except Error α} {e : Error}

theorem ok (a : α) : RaisesOnly config (.ok a : Except Error α) :=
  fun _ h => nomatch h

theorem error (h : e.isConfigError = config) : RaisesOnly config (.error e : Except Error α) := by
  intro e' he'
  cases he'
  exact h

theorem map (f : α → β) (h : RaisesOnly config r) : RaisesOnly config (f <$> r) :=
  fun e he => h e (map_eq_error.mp he)

theorem bind {f : α → Except Error β} (h : RaisesOnly config r)
    (hf : ∀ a, RaisesOnly config (f a)) : RaisesOnly config (r >>= f) := by
  intro e he
  rcases bind_eq_error.mp he with he | ⟨a, -, he⟩
  · exact h e he
  · exact hf a e he

/-- A test that is refused with an error of the class, and what comes behind it. -/
theorem refuse {p : Prop} [Decidable p] {f : β → Except Error α} (he : e.isConfigError = config)
    (h : RaisesOnly config r) : RaisesOnly config (if p then throw e >>= f else r) := by
  split
  · exact error he
  · exact h

/-- What a rule for errors says about an outcome, it says about its class. -/
theorem of_failsWith {fault : Option Error} (h : FailsWith r fault)
    (hfault : ∀ e, fault = some e → e.isConfigError = config) : RaisesOnly config r :=
  fun e he => hfault e ((failsWith_iff.mp h e).mp he)

end RaisesOnly

/-! ### Configurations -/

/-- Each condition on a configuration is reported as an error of configuration. -/
theorem Condition.isConfigError_of_fault? {k : Condition} {c : Config} {dtype : Dtype}
    {observed : Scheme} {e : Error} (h : k.fault? c dtype observed = some e) :
    e.isConfigError = true := by
  cases k with
  | bounds | channelLength | scale | storage =>
    simp only [fault?] at h
    split at h
    all_goals cases h
    rfl
  | gradientFactor =>
    simp only [fault?] at h
    split at h
    · split at h
      all_goals cases h
      rfl
    · cases h
    · cases h
  | scheme =>
    simp only [fault?] at h
    split at h
    all_goals cases h
    all_goals rfl

theorem isConfigError_of_findSome? {ks : List Condition} {c : Config} {dtype : Dtype}
    {observed : Scheme} {e : Error} (h : ks.findSome? (·.fault? c dtype observed) = some e) :
    e.isConfigError = true := by
  obtain ⟨k, -, hk⟩ := List.exists_of_findSome?_eq_some h
  exact Condition.isConfigError_of_fault? hk

theorem raisesOnly_validate (c : Config) : RaisesOnly true c.validate :=
  .of_failsWith (failsWith_validate c .quint8 .perTensorAffine) fun _ => isConfigError_of_findSome?

theorem raisesOnly_ofConfig {σ : Type} [Observer σ] (c : Config) (o : σ) :
    RaisesOnly true (Quantizer.ofConfig c o) :=
  .of_failsWith (Quantizer.failsWith_ofConfig c o) fun _ => isConfigError_of_findSome?

theorem raisesOnly_ofYaml (text : String) : RaisesOnly true (Config.ofYaml text) := by
  unfold Config.ofYaml
  split
  · exact .error rfl
  · next c _ => exact (raisesOnly_validate c).bind fun _ => .ok c

theorem raisesOnly_ofYamlFile (place : Place) : RaisesOnly true (Config.ofYamlFile place) := by
  unfold Config.ofYamlFile
  split
  · exact .error rfl
  · next text _ => exact raisesOnly_ofYaml text

/-! ### Shapes and lengths -/

section Shapes

variable {s : Shape}

theorem raisesOnly_channelAxis (s : Shape) (axis : Nat) :
    RaisesOnly false (channelAxis s axis) := by
  unfold channelAxis
  split
  · exact .ok _
  · exact .error rfl

theorem raisesOnly_channelView {α : Type} (what : String) (r : Row α) (s : Shape)
    (axis : Nat) : RaisesOnly false (channelView what r s axis) := by
  refine (raisesOnly_channelAxis s axis).bind fun _ => .refuse rfl ?_
  split
  · exact .ok _
  · exact .error rfl

theorem raisesOnly_broadcastTo {α : Type} {u : Shape} (v : View α u) (s : Shape) :
    RaisesOnly false (broadcastTo v s) := by
  unfold broadcastTo
  split
  · exact .ok _
  · exact .error rfl

theorem raisesOnly_callCheck (s : Shape) (axis : Nat) (scale zeroPoint : Row Single) :
    RaisesOnly false (ChannelParameters.callCheck s axis scale zeroPoint) := by
  intro e he
  rcases Shape.axisFault?_cases (ChannelParameters.check_eq_error.mp he) with rfl | ⟨_, _, _, rfl⟩
  · rfl
  · rfl

theorem raisesOnly_outputGradient (shape : Shape) (dy : AnyTensor Single) :
    RaisesOnly false (outputGradient shape dy) := by
  unfold outputGradient
  split
  · exact .ok _
  · exact .error rfl

theorem raisesOnly_first (p : Parameters) : RaisesOnly false p.first := by
  unfold Parameters.first
  split
  · exact .ok _
  · exact .error rfl

theorem raisesOnly_spreadRow (what : String) (r : Row Single) (length : Nat) :
    RaisesOnly false (spreadRow what r length) := by
  unfold spreadRow
  split
  · exact .ok _
  · split
    · exact .ok _
    · exact .error rfl

theorem raisesOnly_row (state : StateDict) (key what : String) (length : Nat) :
    RaisesOnly false (state.row key what length) := by
  unfold StateDict.row
  split
  · exact .ok _
  · split
    · exact .ok _
    · exact .error rfl

/-! ### Kernels -/

theorem raisesOnly_forwardChannels (k : Kernel) (x : Tensor Single s) (axis : Nat)
    (scale zeroPoint : Row Single) (t : Tracer) :
    RaisesOnly false ((k.forwardChannels x axis scale zeroPoint).run t).1 := by
  rw [forwardChannels_fst]
  exact (raisesOnly_callCheck s axis scale zeroPoint).map _

/-- Also for calls that no forward pass has returned. -/
theorem raisesOnly_gradients (c : ChannelCall s) (dy : Tensor Single s) :
    RaisesOnly false (c.gradients dy) := by
  refine (raisesOnly_channelAxis s c.axis).bind fun axis => .refuse rfl ?_
  refine (raisesOnly_channelView "scale" c.channels s c.axis).bind fun unit => ?_
  exact (raisesOnly_broadcastTo unit s).bind fun _ => .ok _

theorem raisesOnly_backward (c : Call) (dy : AnyTensor Single) (t : Tracer) :
    RaisesOnly false ((c.backward dy).run t).1 := by
  cases c with
  | tensor c =>
    rw [Call.backward, TensorCall.backward_eq]
    exact (raisesOnly_outputGradient _ dy).map _
  | channels c =>
    rw [Call.backward, ChannelCall.backward_eq]
    exact (raisesOnly_outputGradient _ dy).bind fun dy => raisesOnly_gradients c dy

end Shapes

/-! ### Stored parameters -/

theorem raisesOnly_write (place : Place) (text : String) : RaisesOnly false (place.write text) := by
  cases place with
  | nowhere => exact .error rfl
  | vacant => exact .ok _
  | holding bytes => exact .ok _

theorem raisesOnly_read (place : Place) : RaisesOnly false place.read := by
  cases place with
  | nowhere => exact .error rfl
  | vacant => exact .error rfl
  | holding bytes =>
    rw [Place.read]
    split
    · exact .ok _
    · exact .error rfl

theorem raisesOnly_ofText (text : String) : RaisesOnly false (Parameters.ofText text) := by
  unfold Parameters.ofText
  split
  · exact .ok _
  · exact .error rfl

/-! ### Quantizers -/

namespace Quantizer

variable {σ : Type} (q : Quantizer σ)

theorem raisesOnly_setParameters (p : Parameters) : RaisesOnly false (q.setParameters p) :=
  (raisesOnly_spreadRow "scale" p.scale q.channels).bind fun _ =>
    (raisesOnly_spreadRow "zero_point" p.zeroPoint q.channels).bind fun _ => .ok _

theorem raisesOnly_loadStateDict (state : StateDict) (scope : String) (strict : Bool) :
    RaisesOnly false (q.loadStateDict state scope strict) :=
  (raisesOnly_row state (scaleKey scope) "scale" q.channels).bind fun _ =>
    (raisesOnly_row state (zeroPointKey scope) "zero_point" q.channels).bind fun _ =>
      .refuse rfl (.ok _)

theorem raisesOnly_save (place : Place) : RaisesOnly false (q.save place) :=
  raisesOnly_write place q.saved

theorem raisesOnly_load (place : Place) : RaisesOnly false (q.load place) :=
  (raisesOnly_read place).bind fun text =>
    (raisesOnly_ofText text).bind fun _ => .refuse rfl (.refuse rfl (.ok _))

variable [Observer σ]

theorem raisesOnly_refresh : RaisesOnly false q.refresh := by
  unfold refresh
  split
  · exact q.raisesOnly_setParameters q.proposal
  · exact .ok _

theorem raisesOnly_answer (x : AnyTensor Single) : RaisesOnly false (q.answer x) := by
  intro e he
  obtain ⟨-, hcall⟩ := answer_eq_error.mp he
  rw [Scheme.call_eq_error] at hcall
  split at hcall
  · exact raisesOnly_callCheck _ _ _ _ e hcall
  · exact raisesOnly_first _ e hcall

theorem raisesOnly_forward (x : AnyTensor Single) (t : Tracer) :
    RaisesOnly false ((q.forward x).run t).1.result := by
  rw [forward_fst]
  intro e he
  rcases pass_result_eq_error.mp he with hrefresh | ⟨q', events, -, hanswer⟩
  · exact (q.seen x).raisesOnly_refresh e hrefresh
  · exact q'.raisesOnly_answer x e hanswer

end Quantizer

/-! ### Entry points with unchecked grid bounds -/

section EntryPoints

variable {s : Shape} {low high : Int32} (x : Tensor Single s) (gradientFactor : Single) (t : Tracer)

/-- Bounds that are not in order are refused before anything else is looked at. -/
theorem learnPerTensor_fst_of_not_lt (h : ¬ low < high) (scale zeroPoint : Single) :
    ((learnPerTensor x scale zeroPoint low high gradientFactor).run t).1 =
      .error (.invalidRange low high) := by
  have hgrid : Grid.ofBounds low high = .error (.invalidRange low high) := dif_neg h
  rw [learnPerTensor, hgrid]
  rfl

theorem learnPerChannel_fst_of_not_lt (h : ¬ low < high) (scale zeroPoint : Row Single)
    (axis : Nat) :
    ((learnPerChannel x scale zeroPoint axis low high gradientFactor).run t).1 =
      .error (.invalidRange low high) := by
  have hgrid : Grid.ofBounds low high = .error (.invalidRange low high) := dif_neg h
  rw [learnPerChannel, hgrid]
  rfl

/-- A call that is refused for its bounds only, and otherwise raises no error of configuration. -/
theorem exists_isConfigError_iff {α : Type} {r : Except Error α}
    (hbounds : ¬ low < high → r = .error (.invalidRange low high))
    (hothers : low < high → RaisesOnly false r) :
    (∃ e, r = .error e ∧ e.isConfigError = true) ↔ high ≤ low := by
  rw [← Int32.not_lt]
  constructor
  · rintro ⟨e, he, hconfig⟩ hlt
    rw [hothers hlt e he] at hconfig
    cases hconfig
  · exact fun h => ⟨_, hbounds h, rfl⟩

theorem learnPerTensor_isConfigError_iff (scale zeroPoint : Single) :
    (∃ e, ((learnPerTensor x scale zeroPoint low high gradientFactor).run t).1 = .error e ∧
      e.isConfigError = true) ↔ high ≤ low := by
  refine exists_isConfigError_iff
    (learnPerTensor_fst_of_not_lt x gradientFactor t · scale zeroPoint) fun hlt => ?_
  rw [learnPerTensor_fst ⟨low, high, hlt⟩ x scale zeroPoint gradientFactor t]
  exact .ok _

theorem learnPerChannel_isConfigError_iff (scale zeroPoint : Row Single) (axis : Nat) :
    (∃ e, ((learnPerChannel x scale zeroPoint axis low high gradientFactor).run t).1 = .error e ∧
      e.isConfigError = true) ↔ high ≤ low := by
  refine exists_isConfigError_iff
    (learnPerChannel_fst_of_not_lt x gradientFactor t · scale zeroPoint axis) fun hlt => ?_
  rw [learnPerChannel_fst ⟨low, high, hlt⟩ x scale zeroPoint axis gradientFactor t]
  exact (raisesOnly_callCheck s axis scale zeroPoint).map _

end EntryPoints

/-- **Errors keep to their classes**, for all arguments. Building a quantizer, validating a
configuration and reading one from a document or a file raise errors of configuration only. A
quantizer in whatever state, and either kernel in forward and in backward, raise none of these. (A
forward pass over a whole tensor raises no error at all.) The entry points with unchecked grid
bounds raise an error of configuration exactly when the bounds are not in order, whatever else is
wrong with the arguments. -/
theorem errors_keep_to_their_classes {σ : Type} [Observer σ] :
    ((∀ (c : Config) (o : σ), RaisesOnly true (Quantizer.ofConfig c o)) ∧
      (∀ c : Config, RaisesOnly true c.validate) ∧
      (∀ text, RaisesOnly true (Config.ofYaml text)) ∧
      ∀ place, RaisesOnly true (Config.ofYamlFile place)) ∧
    (∀ q : Quantizer σ,
      (∀ x t, RaisesOnly false ((q.forward x).run t).1.result) ∧
      (∀ p, RaisesOnly false (q.setParameters p)) ∧
      (∀ state scope strict, RaisesOnly false (q.loadStateDict state scope strict)) ∧
      (∀ place, RaisesOnly false (q.save place)) ∧
      ∀ place, RaisesOnly false (q.load place)) ∧
    ((∀ {s : Shape} (k : Kernel) (x : Tensor Single s) axis scale zeroPoint t,
        RaisesOnly false ((k.forwardChannels x axis scale zeroPoint).run t).1) ∧
      ∀ (c : Call) dy t, RaisesOnly false ((c.backward dy).run t).1) ∧
    ∀ {s : Shape} (x : Tensor Single s) (low high : Int32) gradientFactor t,
      (∀ scale zeroPoint,
        (∃ e, ((learnPerTensor x scale zeroPoint low high gradientFactor).run t).1 = .error e ∧
          e.isConfigError = true) ↔ high ≤ low) ∧
      ∀ scale zeroPoint axis,
        (∃ e, ((learnPerChannel x scale zeroPoint axis low high gradientFactor).run t).1 =
          .error e ∧ e.isConfigError = true) ↔ high ≤ low := by
  refine ⟨⟨raisesOnly_ofConfig, raisesOnly_validate, raisesOnly_ofYaml, raisesOnly_ofYamlFile⟩,
    fun q => ⟨q.raisesOnly_forward, q.raisesOnly_setParameters, q.raisesOnly_loadStateDict,
      q.raisesOnly_save, q.raisesOnly_load⟩,
    ⟨raisesOnly_forwardChannels, raisesOnly_backward⟩, fun x low high gradientFactor t => ⟨?_, ?_⟩⟩
  · exact learnPerTensor_isConfigError_iff x gradientFactor t
  · exact learnPerChannel_isConfigError_iff x gradientFactor t

end FakeQuant
