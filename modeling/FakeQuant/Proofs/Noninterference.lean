import FakeQuant.Proofs.SharedDictionary
import FakeQuant.Proofs.Trails

/-!
# Sessions in which the observer has no say

In the modes that do not copy parameters a quantizer shows every tensor to its observer and asks it
for nothing but the scheme. `Session.Agree` relates two sessions that differ in their observers
only; the observers may be of different kinds, and it is enough that they name the same scheme
whatever they see (`Observer.SameScheme`). Every request that stays in those modes keeps the
relation and gets the same reply in both sessions (`agree_serve`), so two whole sessions cannot be
told apart: `observer_does_not_interfere`.

A dictionary keeps values, not rows. A quantizer that is restored from one has its parameters in new
rows, and can do what the other one cannot if that one has a row which cannot be laid out
(`restored_rows_apart`).
-/

namespace FakeQuant

variable {σ τ : Type} [Observer σ] [Observer τ]

/-- The observers name the same scheme, whatever both of them see. -/
def Observer.SameScheme (o : σ) (o' : τ) : Prop :=
  ∀ tensors : List (AnyTensor Single),
    Observer.scheme (tensors.foldl Observer.observe o) =
      Observer.scheme (tensors.foldl Observer.observe o')

theorem Observer.SameScheme.observe {o : σ} {o' : τ} (h : SameScheme o o') (x : AnyTensor Single) :
    SameScheme (Observer.observe o x) (Observer.observe o' x) :=
  fun tensors => h (x :: tensors)

/-- Observers that never change their scheme agree on it if they do so at the start. -/
theorem Observer.SameScheme.of_keeps {o : σ} {o' : τ} (h : Observer.Keeps Observer.scheme o)
    (h' : Observer.Keeps Observer.scheme o') (hscheme : Observer.scheme o = Observer.scheme o') :
    SameScheme o o' := by
  intro tensors
  rw [h, h', hscheme]

namespace Quantizer

/-- The quantizers differ in their observers only, and these name the same scheme. -/
structure Agree (q : Quantizer σ) (q' : Quantizer τ) : Prop where
  grid : q.grid = q'.grid
  parameters : q.parameters = q'.parameters
  mode : q.mode = q'.mode
  gradientScaling : q.gradientScaling = q'.gradientScaling
  scheme : Observer.SameScheme q.observer q'.observer

variable {q : Quantizer σ} {q' : Quantizer τ}

theorem Agree.seen (h : q.Agree q') (x : AnyTensor Single) : (q.seen x).Agree (q'.seen x) :=
  ⟨h.grid, h.parameters, h.mode, h.gradientScaling, h.scheme.observe x⟩

/-- Replacing the parameters of both by the same keeps the agreement. -/
theorem Agree.replaceParameters (h : q.Agree q') (p : Parameters) :
    (q.replaceParameters p).Agree (q'.replaceParameters p) :=
  ⟨h.grid, rfl, h.mode, h.gradientScaling, h.scheme⟩

/-- What a quantizer answers does not depend on what its observer proposes. -/
theorem Agree.answer (h : q.Agree q') (x : AnyTensor Single) : q.answer x = q'.answer x := by
  have hscheme : q.scheme = q'.scheme := h.scheme []
  unfold Quantizer.answer kernel
  rw [h.grid, h.parameters, h.mode, h.gradientScaling, hscheme]

/-- A forward pass in a mode that does not copy leaves the parameters as they are. -/
theorem pass_of_not_copies (h : q.mode.copiesParameters = false) (x : AnyTensor Single) :
    q.pass x = { quantizer := q.seen x, events := [], result := (q.seen x).answer x } := by
  have hrefresh : (q.seen x).refresh = .ok (q.seen x, []) :=
    refresh_eq_ok.mpr (.inl ⟨h, rfl, rfl⟩)
  rw [pass, hrefresh]

theorem Agree.channels (h : q.Agree q') : q.channels = q'.channels := by
  rw [Quantizer.channels, h.parameters, Quantizer.channels]

/-! ### Writers

A writer computes the new parameters from the old ones. Its outcomes for quantizers that agree are
quantizers that agree and the same report, or the same error. -/

/-- Two outcomes that differ in the observers only. -/
inductive AgreeingOutcomes {α : Type} :
    Except Error (Quantizer σ × α) → Except Error (Quantizer τ × α) → Prop where
  | ok {q : Quantizer σ} {q' : Quantizer τ} (report : α) (h : q.Agree q') :
    AgreeingOutcomes (.ok (q, report)) (.ok (q', report))
  | error (e : Error) : AgreeingOutcomes (.error e) (.error e)

variable {α β : Type}

/-- Outcomes behind the same check agree if they do when it succeeds. -/
theorem AgreeingOutcomes.bind {r : Except Error β} {f : β → Except Error (Quantizer σ × α)}
    {f' : β → Except Error (Quantizer τ × α)} (h : ∀ b, AgreeingOutcomes (f b) (f' b)) :
    AgreeingOutcomes (r >>= f) (r >>= f') := by
  cases r with
  | error e => exact .error e
  | ok b => exact h b

/-- The same behind a condition that stops both. -/
theorem AgreeingOutcomes.guard {stop : Prop} [Decidable stop] {e : Error}
    {f : Unit → Except Error (Quantizer σ × α)} {f' : Unit → Except Error (Quantizer τ × α)}
    (h : AgreeingOutcomes (f ()) (f' ())) :
    AgreeingOutcomes (if stop then throw e >>= f else f ())
      (if stop then throw e >>= f' else f' ()) := by
  split
  · exact .error e
  · exact h

theorem Agree.setParameters (h : q.Agree q') (p : Parameters) :
    AgreeingOutcomes (q.setParameters p) (q'.setParameters p) := by
  rw [Quantizer.setParameters, Quantizer.setParameters, h.channels]
  exact .bind fun scale => .bind fun zeroPoint => .ok _ (h.replaceParameters _)

theorem Agree.loadStateDict (h : q.Agree q') (state : StateDict) (scope : String) (strict : Bool) :
    AgreeingOutcomes (q.loadStateDict state scope strict)
      (q'.loadStateDict state scope strict) := by
  rw [Quantizer.loadStateDict, Quantizer.loadStateDict, h.channels, h.parameters]
  exact .bind fun scale => .bind fun zeroPoint => .guard (.ok _ (h.replaceParameters _))

theorem Agree.load (h : q.Agree q') (place : Place) :
    AgreeingOutcomes ((·, ([] : List String)) <$> q.load place) ((·, []) <$> q'.load place) := by
  rw [Quantizer.load, Quantizer.load, h.channels, map_bind, map_bind]
  refine .bind fun text => ?_
  rw [map_bind, map_bind]
  refine .bind fun p => ?_
  -- the same two checks on both sides, which fail with the same errors
  by_cases hscale : p.scale.length ≠ q'.channels
  · rw [if_pos hscale, if_pos hscale]
    exact @AgreeingOutcomes.error σ τ _ _ _ _
  · rw [if_neg hscale, if_neg hscale]
    by_cases hzero : p.zeroPoint.length ≠ q'.channels
    · dsimp only
      rw [if_pos hzero, if_pos hzero]
      exact @AgreeingOutcomes.error σ τ _ _ _ _
    · dsimp only
      rw [if_neg hzero, if_neg hzero]
      exact .ok _ (h.replaceParameters p)

end Quantizer

/-! ### Sessions -/

namespace Session

/-- The quantizers agree, and the same calls are held. -/
structure Agree (s : Session σ) (s' : Session τ) : Prop where
  quantizer : s.quantizer.Agree s'.quantizer
  calls : s.calls = s'.calls

/-- What a host can see of an answer: the reply, and the parameters thereafter. -/
def visible (answer : Reply × Session σ) : Reply × Parameters :=
  (answer.1, answer.2.quantizer.parameters)

/-- Two answers with the same reply and sessions that agree. -/
structure AgreeingAnswers (answer : Reply × Session σ) (answer' : Reply × Session τ) : Prop where
  reply : answer.1 = answer'.1
  session : answer.2.Agree answer'.2

theorem AgreeingAnswers.visible_eq {answer : Reply × Session σ} {answer' : Reply × Session τ}
    (h : AgreeingAnswers answer answer') : visible answer = visible answer' := by
  rw [visible, visible, h.reply, h.session.quantizer.parameters]

variable {s : Session σ} {s' : Session τ}

theorem Agree.settle {α : Type} {r : Except Error (Quantizer σ × α)}
    {r' : Except Error (Quantizer τ × α)} (h : s.Agree s') (reply : Except Error α → Reply)
    (hr : Quantizer.AgreeingOutcomes r r') :
    AgreeingAnswers (s.settle reply r) (s'.settle reply r') := by
  cases hr with
  | ok report hq => exact ⟨rfl, hq, h.calls⟩
  | error e => exact ⟨rfl, h⟩

end Session

/-- The request does not lead to a mode that copies parameters. -/
def Request.Stays : Request → Prop
  | .setMode mode => mode.copiesParameters = false
  | _ => True

instance (request : Request) : Decidable request.Stays := by
  cases request <;> unfold Request.Stays <;> infer_instance

namespace Session

variable {s : Session σ} {s' : Session τ}

/-- In a mode that does not copy, sessions that agree answer a request alike and agree
thereafter, whatever their tracers. -/
theorem agree_serve (h : s.Agree s') (hmode : s.quantizer.mode.copiesParameters = false)
    (request : Request) (t t' : Tracer) :
    AgreeingAnswers ((s.serve request).run t).1 ((s'.serve request).run t').1 := by
  have hq := h.quantizer
  cases request with
  | forward x =>
    have hmode' : s'.quantizer.mode.copiesParameters = false := by rw [← hq.mode, hmode]
    rw [serve_forward_fst, serve_forward_fst, Quantizer.pass_of_not_copies hmode,
      Quantizer.pass_of_not_copies hmode', (hq.seen x).answer x]
    refine ⟨rfl, hq.seen x, ?_⟩
    rw [afterPass, afterPass, h.calls]
  | backward place dy =>
    rw [serve, serve, h.calls]
    cases s'.calls[place]? with
    | none => exact ⟨rfl, h⟩
    | some call =>
      have hresult := (call.records_backward dy).result t t'
      exact ⟨congrArg Reply.gradients hresult, hq, rfl⟩
  | setMode mode =>
    exact ⟨rfl, ⟨hq.grid, hq.parameters, rfl, hq.gradientScaling, hq.scheme⟩, h.calls⟩
  | setGradientScaling scaling =>
    exact ⟨rfl, ⟨hq.grid, hq.parameters, hq.mode, rfl, hq.scheme⟩, h.calls⟩
  | setParameters p => exact h.settle .written (hq.setParameters p)
  | loadStateDict state scope strict => exact h.settle .loaded (hq.loadStateDict state scope strict)
  | load place => exact h.settle .loaded (hq.load place)
  | write scale zeroPoint =>
    refine ⟨rfl, ?_, h.calls⟩
    change (s.quantizer.replaceParameters _).Agree (s'.quantizer.replaceParameters _)
    rw [hq.parameters]
    exact hq.replaceParameters _

/-- A request that stays leads to no mode that copies. -/
theorem copiesParameters_serve (hmode : s.quantizer.mode.copiesParameters = false)
    {request : Request} (hstays : request.Stays) (t : Tracer) :
    ((s.serve request).run t).1.2.quantizer.mode.copiesParameters = false := by
  cases request with
  | forward x =>
    rw [serve_forward_fst, Quantizer.pass_of_not_copies hmode]
    exact hmode
  | backward place dy =>
    rw [serve]
    cases s.calls[place]? with
    | none => exact hmode
    | some call => exact hmode
  | setMode mode => exact hstays
  | setGradientScaling scaling => exact hmode
  | setParameters p =>
    rw [(s.rewrites_serve t (.inl ⟨p, rfl⟩)).mode, hmode]
  | loadStateDict state scope strict =>
    rw [(s.rewrites_serve t (.inr (.inl ⟨state, scope, strict, rfl⟩))).mode, hmode]
  | load place => rw [(s.rewrites_serve t (.inr (.inr ⟨place, rfl⟩))).mode, hmode]
  | write scale zeroPoint => exact hmode

/-- Sessions that agree have histories that a host cannot tell apart: by induction on the requests,
with the agreement and the mode carried along. -/
theorem visible_history (h : s.Agree s') (hmode : s.quantizer.mode.copiesParameters = false)
    {requests : List Request} (hstay : ∀ request ∈ requests, request.Stays) (t t' : Tracer) :
    ((s.history requests).run t).1.map visible = ((s'.history requests).run t').1.map visible := by
  induction requests generalizing s s' t t' with
  | nil => rfl
  | cons request requests ih =>
    have hserved := agree_serve h hmode request t t'
    have hrest := ih hserved.session
      (copiesParameters_serve hmode (hstay request List.mem_cons_self) t)
      (fun r hr => hstay r (List.mem_cons_of_mem request hr))
      ((s.serve request).run t).2 ((s'.serve request).run t').2
    exact congr (congrArg List.cons hserved.visible_eq) hrest

end Session

namespace Quantizer

/-- No host can tell the quantizers apart by requests that stay in modes that do not copy, whatever
calls it holds at the start and whatever is traced: every reply is the same, and so are the
parameters after it. -/
def Indistinguishable (q : Quantizer σ) (q' : Quantizer τ) : Prop :=
  ∀ (calls : List Call) (requests : List Request), (∀ request ∈ requests, request.Stays) →
    ∀ t t' : Tracer,
      (((Session.mk q calls).history requests).run t).1.map Session.visible =
        (((Session.mk q' calls).history requests).run t').1.map Session.visible

theorem Agree.indistinguishable {q : Quantizer σ} {q' : Quantizer τ} (h : q.Agree q')
    (hmode : q.mode.copiesParameters = false) : q.Indistinguishable q' := by
  intro calls requests hstay t t'
  have hagree : (Session.mk q calls).Agree (Session.mk q' calls) := ⟨h, rfl⟩
  exact Session.visible_history hagree hmode hstay t t'

omit [Observer σ] [Observer τ] in
/-- What a quantizer keeps in a dictionary is loaded by any quantizer with as many channels, into
new rows. -/
theorem loadStateDict_stateDict {q : Quantizer σ} {q' : Quantizer τ}
    (hlength : q.parameters.HasLength q'.channels) (scope : String) (strict : Bool) :
    q'.loadStateDict (q.stateDict scope) scope strict =
      .ok (q'.replaceParameters q.parameters.renewed, []) := by
  have hscale : (q.stateDict scope).lookup (scaleKey scope) = some q.parameters.scale.values :=
    List.lookup_cons_self
  have hzero :
      (q.stateDict scope).lookup (zeroPointKey scope) = some q.parameters.zeroPoint.values := by
    have hne : (zeroPointKey scope == scaleKey scope) = false :=
      beq_false_of_ne (scaleKey_ne_zeroPointKey scope scope).symm
    rw [stateDict, List.lookup_cons, hne]
    exact List.lookup_cons_self
  have hserves : (q.stateDict scope).Serves scope strict q'.channels := by
    refine ⟨fun values hvalues => ?_, fun values hvalues => ?_, fun _ => ?_⟩
    · rw [hscale, Option.some_inj] at hvalues
      rw [← hvalues]
      exact hlength.scale
    · rw [hzero, Option.some_inj] at hvalues
      rw [← hvalues]
      exact hlength.zeroPoint
    · rw [hscale, hzero]
      exact ⟨rfl, rfl⟩
  have hmissing : (q.stateDict scope).missing scope = [] :=
    StateDict.missing_eq_nil.mpr (by rw [hscale, hzero]; exact ⟨rfl, rfl⟩)
  refine loadStateDict_eq_ok.mpr ⟨hserves, ?_, hmissing.symm⟩
  rw [StateDict.parameters, hscale, hzero]
  rfl

/-- **The observer does not interfere**: in the modes that do not copy parameters, two quantizers
that differ in their observers only cannot be told apart, if the observers name the same scheme. It
does not matter what the observers propose, which storage type they are for and what they have seen.
In particular a quantizer that loads what another one keeps in a dictionary behaves like the other
one with its parameters in new rows, if grid, mode, gradient scaling and the number of channels are
the same. So it behaves like the other one itself if that one has its parameters in such rows. -/
theorem observer_does_not_interfere (q : Quantizer σ) (q' : Quantizer τ) (hgrid : q.grid = q'.grid)
    (hmode : q.mode = q'.mode) (hscaling : q.gradientScaling = q'.gradientScaling)
    (hscheme : Observer.SameScheme q.observer q'.observer)
    (hkeeps : q.mode.copiesParameters = false) :
    (q.parameters = q'.parameters → q.Indistinguishable q') ∧
    (q.parameters.HasLength q'.channels → ∀ scope strict, ∃ restored,
      q'.loadStateDict (q.stateDict scope) scope strict = .ok (restored, []) ∧
        (q.replaceParameters q.parameters.renewed).Indistinguishable restored ∧
        (q.parameters.renewed = q.parameters → q.Indistinguishable restored)) := by
  have hagree (p : Parameters) : (q.replaceParameters p).Agree (q'.replaceParameters p) :=
    ⟨hgrid, rfl, hmode, hscaling, hscheme⟩
  refine ⟨fun hparameters => ?_, fun hlength scope strict => ?_⟩
  · have hsame : q.Agree q' := ⟨hgrid, hparameters, hmode, hscaling, hscheme⟩
    exact hsame.indistinguishable hkeeps
  · have hrestored := (hagree q.parameters.renewed).indistinguishable hkeeps
    refine ⟨_, loadStateDict_stateDict hlength scope strict, hrestored, fun hrenewed => ?_⟩
    have hself : q.replaceParameters q.parameters.renewed = q := by rw [hrenewed]; rfl
    rwa [hself] at hrestored

/-- Observers of different storage types, proposals and histories, and a quantizer that learns. -/
theorem observer_does_not_interfere_with_learning :
    let q : Quantizer ConstantObserver :=
      { grid := ⟨0, 15, by decide⟩, parameters := ⟨.ofList [1, 2], .ofList [0, 3]⟩
        mode := .learning, gradientScaling := .elementCount
        observer :=
          { parameters := .single 1 0, dtype := .quint8, scheme := .perChannelAffine 1
            batches := 0 } }
    let q' : Quantizer ConstantObserver :=
      { q with
        parameters := .uniform 2 1 0
        observer :=
          { parameters := ⟨.ofList [.nan, 5], .ofList [1, 7]⟩, dtype := .qint32
            scheme := .perChannelAffine 1, batches := 9 } }
    q.Indistinguishable (q'.replaceParameters q.parameters) ∧
      ∃ restored, q'.loadStateDict (q.stateDict "layer.") "layer." true = .ok (restored, []) ∧
        q.Indistinguishable restored := by
  intro q q'
  have hscheme : Observer.SameScheme q.observer q'.observer :=
    .of_keeps (ConstantObserver.keeps (fun _ _ => rfl) _)
      (ConstantObserver.keeps (fun _ _ => rfl) _) rfl
  refine ⟨?_, ?_⟩
  · exact (observer_does_not_interfere q (q'.replaceParameters q.parameters) rfl rfl rfl hscheme
      rfl).1 rfl
  · obtain ⟨restored, hload, -, hrestored⟩ :=
      (observer_does_not_interfere q q' rfl rfl rfl hscheme rfl).2 ⟨rfl, rfl⟩ "layer." true
    exact ⟨restored, hload, hrestored rfl⟩

/-- A quantizer with two scales that are stored backwards cannot quantize along the axis of its
scheme; the one that is restored from what it keeps can. -/
theorem restored_rows_apart :
    let q : Quantizer ConstantObserver :=
      { grid := ⟨0, 15, by decide⟩, parameters := ⟨⟨[1, 2], -1⟩, .ofList [0, 3]⟩
        mode := .learning, gradientScaling := .elementCount
        observer :=
          { parameters := .single 1 0, dtype := .quint8, scheme := .perChannelAffine 0
            batches := 0 } }
    let x : AnyTensor Single := ⟨[2, 1], .ofFn fun _ => 1⟩
    ∃ restored, q.loadStateDict (q.stateDict "layer.") "layer." true = .ok (restored, []) ∧
      ∀ t, ((q.forward x).run t).1.result = .error (.shapeMismatch "scale" [2, 1] [2]) ∧
        ∃ out, ((restored.forward x).run t).1.result = .ok out := by
  intro q x
  refine ⟨_, loadStateDict_stateDict ⟨rfl, rfl⟩ "layer." true, fun t => ⟨?_, ?_⟩⟩
  · rw [forward_fst]
    rfl
  · rw [forward_fst]
    exact ⟨_, rfl⟩

end Quantizer

end FakeQuant
