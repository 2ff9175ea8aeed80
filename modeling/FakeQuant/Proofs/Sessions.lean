import FakeQuant.Proofs.Runs

/-!
# Sessions

A host works with a quantizer and with the kernel calls that its forward passes give. Such a call
stays with the host until its backward pass uses it up. A `Request` is one thing that a host asks
for and a `Reply` is what it gets back, errors included; `Session.serve` answers one request, and
`Session.history` lists the replies to a sequence of requests together with the session after each
of them.
-/

namespace FakeQuant

/-- A quantizer and the kernel calls that await their backward passes, the latest first. -/
structure Session (σ : Type) where
  quantizer : Quantizer σ
  calls : List Call

/-- What a host asks for. -/
inductive Request where
  | forward (x : AnyTensor Single)
  /-- The backward pass of the call at this place among those that are held. -/
  | backward (place : Nat) (dy : AnyTensor Single)
  | setMode (mode : Mode)
  | setGradientScaling (scaling : GradientScaling)
  | setParameters (p : Parameters)
  | loadStateDict (state : StateDict) (scope : String) (strict : Bool)
  | load (place : Place)
  /-- An optimizer writes scales and zero points one by one, knowing their positions. -/
  | write (scale zeroPoint : Nat → Single → Single)

/-- What a host gets back. -/
inductive Reply where
  | output (result : Except Error Output) (events : List Event)
  | gradients (result : Except Error Gradients)
  /-- There is no call at the given place. -/
  | noCall
  | written (result : Except Error (List Event))
  | loaded (result : Except Error (List String))
  | done

namespace Session

variable {σ : Type}

/-- The session with another quantizer. -/
def withQuantizer (s : Session σ) (q : Quantizer σ) : Session σ :=
  { s with quantizer := q }

/-- The session after a forward pass. A call that it gave is held from now on. -/
def afterPass (s : Session σ) (pass : Pass σ) : Session σ where
  quantizer := pass.quantizer
  calls :=
    match pass.result with
    | .ok (.learnable call) => call :: s.calls
    | .ok _ | .error _ => s.calls

/-- The session after a fallible change of its quantizer, and what the change reported. A change
that fails changes nothing. -/
def settle {α : Type} (s : Session σ) (reply : Except Error α → Reply) :
    Except Error (Quantizer σ × α) → Reply × Session σ
  | .ok (q, report) => (reply (.ok report), s.withQuantizer q)
  | .error e => (reply (.error e), s)

/-- A change of the parameters that is settled leaves the parameters rewritten or as they were. -/
theorem rewrites_settle {α : Type} {s : Session σ} {reply : Except Error α → Reply}
    {outcome : Except Error (Quantizer σ × α)}
    (hok : ∀ q report, outcome = .ok (q, report) → s.quantizer.Rewrites q) :
    s.quantizer.Rewrites (s.settle reply outcome).2.quantizer := by
  cases outcome with
  | error e => exact .refl _
  | ok changed => exact hok changed.1 changed.2 rfl

variable [Observer σ]

/-- The reply to one request and the session thereafter. -/
def serve (s : Session σ) : Request → Traced (Reply × Session σ)
  | .forward x => do
    let pass ← s.quantizer.forward x
    return (.output pass.result pass.events, s.afterPass pass)
  | .backward place dy =>
    match s.calls[place]? with
    | none => return (.noCall, s)
    | some call => do
      let result ← call.backward dy
      return (.gradients result, { s with calls := s.calls.eraseIdx place })
  | .setMode mode => return (.done, s.withQuantizer (s.quantizer.setMode mode))
  | .setGradientScaling scaling =>
    return (.done, s.withQuantizer (s.quantizer.setGradientScaling scaling))
  | .setParameters p => return s.settle .written (s.quantizer.setParameters p)
  | .loadStateDict state scope strict =>
    return s.settle .loaded (s.quantizer.loadStateDict state scope strict)
  | .load place => return s.settle .loaded ((·, []) <$> s.quantizer.load place)
  | .write scale zeroPoint =>
    return (.done, s.withQuantizer (s.quantizer.replaceParameters
      { scale := s.quantizer.parameters.scale.update scale
        zeroPoint := s.quantizer.parameters.zeroPoint.update zeroPoint }))

/-- The requests that write parameters, or nothing when they fail. -/
theorem rewrites_serve (s : Session σ) (t : Tracer) {request : Request}
    (h : (∃ p, request = .setParameters p) ∨
      (∃ state scope strict, request = .loadStateDict state scope strict) ∨
      ∃ place, request = .load place) :
    s.quantizer.Rewrites ((s.serve request).run t).1.2.quantizer := by
  obtain ⟨p, rfl⟩ | ⟨state, scope, strict, rfl⟩ | ⟨place, rfl⟩ := h
  · exact rewrites_settle fun q events hset => Quantizer.rewrites_setParameters hset
  · exact rewrites_settle fun q missing hload => Quantizer.rewrites_loadStateDict hload
  · refine rewrites_settle fun q missing houtcome => ?_
    obtain ⟨loaded, hload, hq⟩ := map_eq_ok.mp houtcome
    cases hq
    exact Quantizer.rewrites_load hload

/-- A forward pass is answered with what it gives, whatever the tracer. -/
theorem serve_forward_fst (s : Session σ) (x : AnyTensor Single) (t : Tracer) :
    ((s.serve (.forward x)).run t).1 =
      (.output (s.quantizer.pass x).result (s.quantizer.pass x).events,
        s.afterPass (s.quantizer.pass x)) := by
  rw [serve, StateT.run_bind]
  change (Reply.output ((s.quantizer.forward x).run t).1.result _, s.afterPass _) = _
  rw [Quantizer.forward_fst]

/-- The replies to a sequence of requests, each with the session after it. -/
def history (s : Session σ) : List Request → Traced (List (Reply × Session σ))
  | [] => return []
  | request :: requests => do
    let served ← s.serve request
    let rest ← served.2.history requests
    return served :: rest

end Session

end FakeQuant
