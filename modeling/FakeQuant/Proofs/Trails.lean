import FakeQuant.Proofs.Sessions

/-!
# What a session leaves in the trace

`Records` says of some work that it leaves a given list of spans in every tracer that is enabled and
nothing in a disabled one, and that its result does not depend on the tracer. It is shown for a
span, for two pieces of work in sequence, and from there up to whole sessions. What a forward pass
is to leave is said by `Quantizer.spans`, in terms of its mode, its scheme and whether the
observer's proposal fits; what a backward pass is to leave by `Call.spans`. The trace of a session
is these lists one behind the other: `session_leaves_trail`.
-/

namespace FakeQuant

/-- The spans that were measured, each with its label. -/
def Tracer.log (t : Tracer) : List (Step × String) :=
  t.measurements.map fun m => (m.step, m.label)

/-- The work records these spans in an enabled tracer, which stays enabled, and nothing in a
disabled one. Its result is the same with every tracer. -/
structure Records {α : Type} (work : Traced α) (spans : List (Step × String)) : Prop where
  result : ∀ t t', (work.run t).1 = (work.run t').1
  enabled : ∀ t, t.enabled = true →
    (work.run t).2.enabled = true ∧ (work.run t).2.log = t.log ++ spans
  disabled : ∀ t, t.enabled = false → (work.run t).2 = t

namespace Records

variable {α β : Type} {work : Traced α} {spans spans' : List (Step × String)}

theorem pure (a : α) : Records (Pure.pure a : Traced α) [] where
  result _ _ := rfl
  enabled _ h := ⟨h, (List.append_nil _).symm⟩
  disabled _ _ := rfl

/-- Work in sequence records first what the first part does, and then what the second part does on
the result of the first one. -/
theorem bind {f : α → Traced β} (h : Records work spans)
    (hf : Records (f (work.run .fresh).1) spans') : Records (work >>= f) (spans ++ spans') := by
  -- the second part starts from the same result, whatever the tracer
  have hrun (t : Tracer) :
      (work >>= f).run t = (f (work.run .fresh).1).run (work.run t).2 := by
    rw [StateT.run_bind, h.result .fresh t]
    rfl
  refine ⟨fun t t' => ?_, fun t ht => ?_, fun t ht => ?_⟩
  · rw [hrun, hrun]
    exact hf.result _ _
  · obtain ⟨hon, hlog⟩ := h.enabled t ht
    obtain ⟨hon', hlog'⟩ := hf.enabled _ hon
    rw [hrun, hlog', hlog, List.append_assoc]
    exact ⟨hon', rfl⟩
  · rw [hrun, h.disabled t ht, hf.disabled t ht]

/-- A function of the result records nothing more. -/
theorem bind_pure {f : α → β} (h : Records work spans) :
    Records (work >>= fun a => Pure.pure (f a)) spans := by
  have hbind := h.bind (f := fun a => Pure.pure (f a)) (.pure _)
  rwa [List.append_nil] at hbind

/-- A span is recorded behind what its body records. -/
theorem span (step : Step) (label : String) (h : Records work spans) :
    Records (FakeQuant.span step label work) (spans ++ [(step, label)]) := by
  refine ⟨fun t t' => ?_, fun t ht => ?_, fun t ht => ?_⟩
  · rw [run_span, run_span]
    exact h.result t t'
  · obtain ⟨hon, hlog⟩ := h.enabled t ht
    rw [run_span, if_pos ht]
    refine ⟨hon, ?_⟩
    rw [Tracer.log, Tracer.record, List.map_append, ← Tracer.log, hlog, List.append_assoc]
    rfl
  · rw [run_span, if_neg (by rw [ht]; decide), h.disabled t ht]

end Records

/-! ### Kernels -/

variable {s : Shape}

theorem records_forwardTensor (k : Kernel) (x : Tensor Single s) (scale zeroPoint : Single) :
    Records (k.forwardTensor x scale zeroPoint) [(.forward, "per_tensor")] :=
  ((Records.pure _).span .forward "per_tensor").bind_pure

/-- The checks along an axis stand inside the span, so it is recorded also when they fail. -/
theorem records_forwardChannels (k : Kernel) (x : Tensor Single s) (axis : Nat)
    (scale zeroPoint : Row Single) :
    Records (k.forwardChannels x axis scale zeroPoint) [(.forward, "per_channel")] :=
  ((Records.pure _).span .forward "per_channel").bind_pure

/-- The label of the spans of a kernel under a scheme. -/
def Scheme.spanLabel (scheme : Scheme) : String :=
  if scheme.isPerChannel then "per_channel" else "per_tensor"

/-- A learning pass with a first scale and zero point is one span. -/
theorem records_learn (scheme : Scheme) (k : Kernel) (x : AnyTensor Single) {p : Parameters}
    {pair : Single × Single} (hp : p.first = .ok pair) :
    Records (scheme.learn k x p) [(.forward, scheme.spanLabel)] := by
  unfold Scheme.learn Scheme.spanLabel Scheme.isPerChannel
  cases scheme.axis? with
  | some axis => exact (records_forwardChannels k x.tensor axis p.scale p.zeroPoint).bind_pure
  | none =>
    rw [hp]
    exact (records_forwardTensor k x.tensor pair.1 pair.2).bind_pure

namespace Call

/-- The shape of the input that a call was made with. -/
def inputShape : Call → Shape
  | @tensor s _ => s
  | @channels s _ => s

/-- The label of the spans of a call. -/
def spanLabel : Call → String
  | tensor _ => "per_tensor"
  | channels _ => "per_channel"

/-- What a backward pass is to leave in the trace: its span, unless the shapes differ. -/
def spans (c : Call) (dy : AnyTensor Single) : List (Step × String) :=
  if dy.shape = c.inputShape then [(.backward, c.spanLabel)] else []

/-- The shape is checked in front of the span. -/
theorem records_backward (c : Call) (dy : AnyTensor Single) :
    Records (c.backward dy) (c.spans dy) := by
  cases c with
  | @tensor s c =>
    change Records (c.backward dy) (if dy.shape = s then [(.backward, "per_tensor")] else [])
    unfold TensorCall.backward outputGradient
    by_cases hshape : dy.shape = s
    · rw [dif_pos hshape, if_pos hshape]
      exact (Records.pure _).span .backward "per_tensor"
    · rw [dif_neg hshape, if_neg hshape]
      exact .pure _
  | @channels s c =>
    change Records (c.backward dy) (if dy.shape = s then [(.backward, "per_channel")] else [])
    unfold ChannelCall.backward outputGradient
    by_cases hshape : dy.shape = s
    · rw [dif_pos hshape, if_pos hshape]
      exact (Records.pure _).span .backward "per_channel"
    · rw [dif_neg hshape, if_neg hshape]
      exact .pure _

end Call

/-! ### Forward passes -/

namespace Quantizer

variable {σ : Type} [Observer σ] {q q' : Quantizer σ} {x : AnyTensor Single} {channels : Nat}

/-- The label of the forward span in a mode that quantizes. -/
def spanLabel (q : Quantizer σ) : String :=
  if q.mode.isLearning then q.scheme.spanLabel else "static"

/-- What a forward pass is to leave in the trace: the observation, and then the quantization if the
mode asks for one, unless the mode copies a proposal that does not fit. -/
def spans (q : Quantizer σ) (x : AnyTensor Single) : List (Step × String) :=
  (.observe, "observer") ::
    if q.mode.quantizes = true ∧
        (q.mode.copiesParameters = true → (q.seen x).proposal.Fits q.channels) then
      [(.forward, (q.seen x).spanLabel)]
    else []

theorem records_observe (q : Quantizer σ) (x : AnyTensor Single) :
    Records (q.observe x) [(.observe, "observer")] :=
  (Records.pure _).span .observe "observer"

/-- What is done after the parameters are refreshed is one span if the mode quantizes. -/
theorem records_produce {pair : Single × Single} (h : q.parameters.first = .ok pair) :
    Records (q.produce x) (if q.mode.quantizes = true then [(.forward, q.spanLabel)] else []) := by
  unfold produce spanLabel
  cases q.mode.quantizes with
  | false => exact .pure _
  | true =>
    cases q.mode.isLearning with
    | true => exact (records_learn q.scheme (q.kernel x.size) x h).bind_pure
    | false => exact ((Records.pure _).span .forward "static").bind_pure

/-- The parameters are refreshed unless the mode copies a proposal that does not fit. -/
theorem refresh_succeeds_iff :
    (∃ q' events, q.refresh = .ok (q', events)) ↔
      (q.mode.copiesParameters = true → q.proposal.Fits q.channels) := by
  constructor
  · rintro ⟨q', events, h⟩ hcopies
    rcases refresh_eq_ok.mp h with ⟨hkeeps, -⟩ | ⟨-, hset⟩
    · rw [hkeeps] at hcopies
      cases hcopies
    · exact (setParameters_eq_ok.mp hset).1
  · intro hfits
    cases hcopies : q.mode.copiesParameters with
    | false => exact ⟨q, [], refresh_eq_ok.mpr (.inl ⟨hcopies, rfl, rfl⟩)⟩
    | true =>
      exact ⟨_, _, refresh_eq_ok.mpr
        (.inr ⟨hcopies, setParameters_eq_ok.mpr ⟨hfits hcopies, rfl, rfl⟩⟩)⟩

/-- A forward pass of a quantizer with a channel leaves what it is to leave, also when it fails. -/
theorem records_forward (h : q.parameters.HasLength channels) (hpos : 1 ≤ channels)
    (x : AnyTensor Single) : Records (q.forward x) (q.spans x) := by
  rw [spans]
  change Records _ ([_] ++ ite _ _ _)
  refine (records_observe q x).bind ?_
  rw [observe_fst]
  -- the parameters are refreshed exactly in the case that the condition is about
  have hfits : (∃ q' events, (q.seen x).refresh = .ok (q', events)) ↔
      (q.mode.copiesParameters = true → (q.seen x).proposal.Fits q.channels) :=
    refresh_succeeds_iff
  cases hrefresh : (q.seen x).refresh with
  | error e =>
    rw [if_neg]
    · exact .pure _
    · rintro ⟨-, hcondition⟩
      obtain ⟨q', events, h⟩ := hfits.mpr hcondition
      rw [hrefresh] at h
      cases h
  | ok written =>
    obtain ⟨p, hwritten, hp⟩ := rewrites_refresh hrefresh
    obtain ⟨pair, hpair⟩ := (hp channels h).first hpos
    have hcondition := hfits.mp ⟨written.1, written.2, hrefresh⟩
    have hproduce := records_produce (q := (q.seen x).replaceParameters p) (x := x) hpair
    rw [← hwritten] at hproduce
    have hmode : written.1.mode = q.mode := by rw [hwritten]; rfl
    have hlabel : written.1.spanLabel = (q.seen x).spanLabel := by rw [hwritten]; rfl
    rw [hmode, hlabel] at hproduce
    simp only [and_iff_left hcondition]
    exact hproduce.bind_pure

end Quantizer

/-! ### Sessions -/

namespace Session

variable {σ : Type} [Observer σ] {s : Session σ} {channels : Nat}

/-- The reply to a request and the session thereafter, without a tracer. -/
def respond (s : Session σ) (request : Request) : Reply × Session σ :=
  ((s.serve request).run .fresh).1

/-- What the answer to a request is to leave in the trace. -/
def spans (s : Session σ) : Request → List (Step × String)
  | .forward x => s.quantizer.spans x
  | .backward place dy => (s.calls[place]?).elim [] (·.spans dy)
  | .setMode _ | .setGradientScaling _ | .setParameters _ | .loadStateDict .. | .load _
  | .write .. => []

/-- What the answers to a sequence of requests are to leave in the trace, in the order of the
requests. -/
def trail (s : Session σ) : List Request → List (Step × String)
  | [] => []
  | request :: requests => s.spans request ++ (s.respond request).2.trail requests

/-- Each request leaves what it is to leave. -/
theorem records_serve (h : s.quantizer.parameters.HasLength channels) (hpos : 1 ≤ channels)
    (request : Request) : Records (s.serve request) (s.spans request) := by
  cases request with
  | forward x => exact (Quantizer.records_forward h hpos x).bind_pure
  | backward place dy =>
    rw [serve, spans]
    cases s.calls[place]? with
    | none => exact .pure _
    | some call => exact (call.records_backward dy).bind_pure
  | setMode mode => exact .pure _
  | setGradientScaling scaling => exact .pure _
  | setParameters p => exact .pure _
  | loadStateDict state scope strict => exact .pure _
  | load place => exact .pure _
  | write scale zeroPoint => exact .pure _

/-- No request changes how many scales and zero points there are. -/
theorem hasLength_respond (h : s.quantizer.parameters.HasLength channels) (request : Request) :
    (s.respond request).2.quantizer.parameters.HasLength channels := by
  cases request with
  | forward x =>
    rw [respond, serve_forward_fst]
    exact (Quantizer.rewrites_pass s.quantizer x).hasLength h
  | backward place dy =>
    rw [respond, serve]
    cases s.calls[place]? with
    | none => exact h
    | some call => exact h
  | setMode mode => exact h
  | setGradientScaling scaling => exact h
  | setParameters p => exact (s.rewrites_serve .fresh (.inl ⟨p, rfl⟩)).hasLength h
  | loadStateDict state scope strict =>
    exact (s.rewrites_serve .fresh (.inr (.inl ⟨state, scope, strict, rfl⟩))).hasLength h
  | load place => exact (s.rewrites_serve .fresh (.inr (.inr ⟨place, rfl⟩))).hasLength h
  | write scale zeroPoint =>
    exact ⟨(Row.length_update _ _).trans h.scale, (Row.length_update _ _).trans h.zeroPoint⟩

/-- A whole session leaves its trail: by induction on the requests, each of which starts from the
session that the earlier ones have led to. -/
theorem records_history (h : s.quantizer.parameters.HasLength channels) (hpos : 1 ≤ channels)
    (requests : List Request) : Records (s.history requests) (s.trail requests) := by
  induction requests generalizing s with
  | nil => exact .pure _
  | cons request requests ih =>
    exact (records_serve h hpos request).bind (ih (hasLength_respond h request)).bind_pure

/-- **The trace of a session**: with an enabled tracer, a session with a quantizer that has a
channel records its trail and nothing else, which is the spans of its requests one behind the other.
With a disabled tracer it records nothing. The replies, and the quantizer and the calls after every
request, are the same with every tracer. -/
theorem session_leaves_trail (s : Session σ)
    (h : s.quantizer.parameters.HasLength channels) (hpos : 1 ≤ channels)
    (requests : List Request) :
    (∀ t, t.enabled = true →
      ((s.history requests).run t).2.log = t.log ++ s.trail requests) ∧
    (∀ t, t.enabled = false → ((s.history requests).run t).2 = t) ∧
    ∀ t t', ((s.history requests).run t).1 = ((s.history requests).run t').1 := by
  have hrecords := records_history h hpos requests
  exact ⟨fun t ht => (hrecords.enabled t ht).2, hrecords.disabled, hrecords.result⟩

/-- Two channels and an observer that proposes three scales. A learning pass over three positions
fails inside its span, one over two positions succeeds, and its call is used up by a gradient of
another shape, for which no span is entered; then a proposal does not fit. -/
theorem session_leaves_trail_of_failures :
    let o : ConstantObserver :=
      { parameters := ⟨.ofList [1, 1, 1], .ofList [0, 0, 0]⟩, dtype := .quint8
        scheme := .perChannelAffine 0, batches := 0 }
    let s : Session ConstantObserver :=
      { quantizer :=
          { grid := ⟨0, 15, by decide⟩, parameters := .uniform 2 1 0, mode := .learning
            gradientScaling := .disabled, observer := o }
        calls := [] }
    let requests : List Request :=
      [.forward ⟨[3], .ofFn fun _ => 1⟩, .forward ⟨[2], .ofFn fun _ => 1⟩,
        .backward 0 ⟨[3], .ofFn fun _ => 1⟩, .setMode .staticEstimate,
        .forward ⟨[2], .ofFn fun _ => 1⟩]
    ((s.history requests).run Tracer.fresh.enable).2.log =
      [(.observe, "observer"), (.forward, "per_channel"), (.observe, "observer"),
        (.forward, "per_channel"), (.observe, "observer")] := by
  intro o s requests
  have hlength : s.quantizer.parameters.HasLength 2 := ⟨rfl, rfl⟩
  have htrail := (session_leaves_trail s hlength (by decide) requests).1 Tracer.fresh.enable rfl
  rw [htrail]
  decide +kernel

end Session

end FakeQuant
