import FakeQuant.Proofs.Construction
import FakeQuant.Proofs.Dispatch

/-!
# Runs of a quantizer

A quantizer is built once and then worked with in any order: forward passes, changes of mode and of
gradient scaling, the three ways to write parameters, steps of an optimizer. An `Action` is one of
these. An action that fails leaves the quantizer as it is, apart from what a forward pass has done
before it failed. `Invariant` is what every action preserves (`invariant_perform`) and every run
therefore keeps (`invariant_run`): the grid and the number of channels are those of the
construction, and the observer is the first one after some tensors. `Reachable` are the quantizers
that a run leads to.
-/

namespace FakeQuant

/-! ### Actions -/

/-- What can be done with a quantizer. -/
inductive Action where
  | forward (x : AnyTensor Single)
  | setMode (mode : Mode)
  | learn
  | estimate
  | observeOnly
  | disable
  | setGradientScaling (scaling : GradientScaling)
  | setParameters (p : Parameters)
  | loadStateDict (state : StateDict) (scope : String) (strict : Bool)
  | load (place : Place)
  /-- An optimizer writes scales and zero points one by one, knowing their positions. -/
  | write (scale zeroPoint : Nat → Single → Single)
  /-- The tracer is switched, cleared, or its clock moves. -/
  | trace (change : Tracer → Tracer)

namespace Quantizer

variable {σ : Type} [Observer σ]

/-- The quantizer after one action. -/
def perform (q : Quantizer σ) : Action → Traced (Quantizer σ)
  | .forward x => return (← q.forward x).quantizer
  | .setMode mode => return q.setMode mode
  | .learn => return q.learn
  | .estimate => return q.estimate
  | .observeOnly => return q.observeOnly
  | .disable => return q.disable
  | .setGradientScaling scaling => return q.setGradientScaling scaling
  | .setParameters p =>
    match q.setParameters p with
    | .ok (q, _) => return q
    | .error _ => return q
  | .loadStateDict state scope strict =>
    match q.loadStateDict state scope strict with
    | .ok (q, _) => return q
    | .error _ => return q
  | .load place =>
    match q.load place with
    | .ok q => return q
    | .error _ => return q
  | .write scale zeroPoint =>
    return q.replaceParameters
      { scale := q.parameters.scale.update scale
        zeroPoint := q.parameters.zeroPoint.update zeroPoint }
  | .trace change => do
    modify change
    return q

/-- The quantizer after a sequence of actions. -/
def run (q : Quantizer σ) (actions : List Action) : Traced (Quantizer σ) :=
  actions.foldlM perform q

/-! ### The invariant -/

/-- What stays as it was constructed, with a grid, a number of channels and an observer. -/
structure Invariant (g : Grid) (channels : Nat) (o : σ) (q : Quantizer σ) : Prop where
  grid : q.grid = g
  length : q.parameters.HasLength channels
  observer : ∃ tensors : List (AnyTensor Single), q.observer = tensors.foldl Observer.observe o

variable {g : Grid} {channels : Nat} {o : σ} {q q' : Quantizer σ}

theorem Invariant.rewrites (h : q.Invariant g channels o) (hq : q.Rewrites q') :
    q'.Invariant g channels o := by
  obtain ⟨p, rfl, hp⟩ := hq
  exact ⟨h.grid, hp channels h.length, h.observer⟩

theorem Invariant.seen (h : q.Invariant g channels o) (x : AnyTensor Single) :
    (q.seen x).Invariant g channels o := by
  obtain ⟨tensors, hobserver⟩ := h.observer
  refine ⟨h.grid, h.length, tensors ++ [x], ?_⟩
  rw [List.foldl_append, ← hobserver]
  rfl

/-- What an observer never changes, the quantizer's observer says as the first one did. -/
theorem Invariant.keeps {α : Type} {field : σ → α} (h : q.Invariant g channels o)
    (hfield : Observer.Keeps field o) : field q.observer = field o := by
  obtain ⟨tensors, hobserver⟩ := h.observer
  rw [hobserver]
  exact hfield tensors

/-- One action preserves the invariant, whether it succeeds or fails. -/
theorem invariant_perform (h : q.Invariant g channels o) (a : Action) (t : Tracer) :
    ((q.perform a).run t).1.Invariant g channels o := by
  cases a with
  | forward x =>
    -- also when the pass fails: what it did before is an observation and a complete write
    have hpass := (h.seen x).rewrites (rewrites_pass q x)
    rwa [← forward_fst q x t] at hpass
  | setMode mode => exact ⟨h.grid, h.length, h.observer⟩
  | learn => exact ⟨h.grid, h.length, h.observer⟩
  | estimate => exact ⟨h.grid, h.length, h.observer⟩
  | observeOnly => exact ⟨h.grid, h.length, h.observer⟩
  | disable => exact ⟨h.grid, h.length, h.observer⟩
  | setGradientScaling scaling => exact ⟨h.grid, h.length, h.observer⟩
  | setParameters p =>
    rw [perform]
    cases hset : q.setParameters p with
    | error e => exact h
    | ok written => exact h.rewrites (rewrites_setParameters hset)
  | loadStateDict state scope strict =>
    rw [perform]
    cases hload : q.loadStateDict state scope strict with
    | error e => exact h
    | ok loaded => exact h.rewrites (rewrites_loadStateDict hload)
  | load place =>
    rw [perform]
    cases hload : q.load place with
    | error e => exact h
    | ok loaded => exact h.rewrites (rewrites_load hload)
  | write scale zeroPoint =>
    refine h.rewrites ⟨_, rfl, fun channels hlength => ⟨?_, ?_⟩⟩
    · rw [Row.length_update, hlength.scale]
    · rw [Row.length_update, hlength.zeroPoint]
  | trace change => exact h

/-- A run preserves the invariant: by induction on its actions. -/
theorem invariant_run (h : q.Invariant g channels o) (actions : List Action) (t : Tracer) :
    ((q.run actions).run t).1.Invariant g channels o := by
  induction actions generalizing q t with
  | nil => exact h
  | cons a actions ih =>
    rw [run, List.foldlM_cons, StateT.run_bind]
    exact ih (invariant_perform h a t) _

/-! ### From construction on -/

/-- Every forward pass of a quantizer with a channel finds a first scale and zero point. -/
theorem Invariant.result_ne_noParameter (h : q.Invariant g channels o) (hpos : 1 ≤ channels)
    (x : AnyTensor Single) : (q.pass x).result ≠ .error .noParameter := by
  intro hresult
  rcases pass_result_eq_error.mp hresult with hrefresh | ⟨q', events, hrefresh, hanswer⟩
  -- a proposal that cannot be written has a wrong number of values
  · obtain ⟨-, hset⟩ := refresh_eq_error.mp hrefresh
    rcases setParameters_eq_error.mp hset with hspread | ⟨scale, -, hspread⟩
    · obtain ⟨-, -, he⟩ := spreadRow_eq_error.mp hspread
      cases he
    · obtain ⟨-, -, he⟩ := spreadRow_eq_error.mp hspread
      cases he
  -- the answer is computed with the parameters as refreshed, which are as many as before
  · have hlength := ((h.seen x).rewrites (rewrites_refresh hrefresh)).length
    obtain ⟨pair, hpair⟩ := hlength.first hpos
    obtain ⟨-, hcall⟩ := answer_eq_error.mp hanswer
    rw [Scheme.call_eq_error] at hcall
    split at hcall
    · rcases Shape.axisFault?_cases (ChannelParameters.check_eq_error.mp hcall) with
        he | ⟨what, expected, actual, he⟩
      · cases he
      · cases he
    · rw [hpair] at hcall
      cases hcall

theorem invariant_ofConfig {c : Config} (h : ofConfig c o = .ok q) :
    ∃ channels, q.Invariant q.grid channels o ∧ 1 ≤ channels ∧
      c.channelLength = (if (Observer.scheme o).isPerChannel then some channels else none) ∧
      ((Observer.scheme o).isPerChannel = false → channels = 1) := by
  obtain ⟨hvalid, g, channels, -, -, hchannels, rfl⟩ := ofConfig_eq_ok.mp h
  obtain ⟨hlength, hone⟩ := Scheme.channels_eq_ok.mp hchannels
  refine ⟨channels, ⟨rfl, Parameters.hasLength_uniform _ _ _, [], rfl⟩, ?_, hlength, hone⟩
  cases hscheme : (Observer.scheme o).isPerChannel with
  | false => exact Nat.le_of_eq (hone hscheme).symm
  | true =>
    obtain ⟨-, hne, -⟩ := Config.validate_eq_ok.mp hvalid
    rw [hlength, hscheme] at hne
    exact Nat.one_le_iff_ne_zero.mpr fun hzero => hne (by rw [hzero]; rfl)

/-- A run has led to the quantizer, from one that was built with so many channels. -/
def Reachable (q : Quantizer σ) (channels : Nat) : Prop :=
  ∃ (c : Config) (o : σ) (q₀ : Quantizer σ) (actions : List Action) (t : Tracer),
    ofConfig c o = .ok q₀ ∧ q₀.channels = channels ∧ ((q₀.run actions).run t).1 = q

/-- A built quantizer is reached by the run without actions. -/
theorem reachable_ofConfig {c : Config} (h : ofConfig c o = .ok q) : q.Reachable q.channels :=
  ⟨c, o, q, [], .fresh, h, rfl, rfl⟩

/-- In every quantizer that can be reached there are as many scales and zero points as there were
channels at the construction, and at least one. -/
theorem Reachable.hasLength (h : q.Reachable channels) :
    q.parameters.HasLength channels ∧ 1 ≤ channels := by
  obtain ⟨c, o, q₀, actions, t, hbuilt, hchannels, rfl⟩ := h
  obtain ⟨channels', hstart, hpos, -, -⟩ := invariant_ofConfig hbuilt
  have hsame : channels' = channels := hstart.length.scale.symm.trans hchannels
  subst hsame
  exact ⟨(invariant_run hstart actions t).length, hpos⟩

/-- **What a run keeps**: a quantizer that was built from a configuration has, after every run, the
grid of the configuration, which lies between the bounds of the storage type, and as many scales
and zero points as at its construction: the configured number of channels under a per-channel
scheme, one of each otherwise, and at least one. So no forward pass misses a first scale or zero
point. The observer may propose what it likes as long as it keeps its scheme and storage type. -/
theorem run_keeps_construction {c : Config} {q₀ : Quantizer σ} (h : ofConfig c o = .ok q₀)
    (hscheme : Observer.Keeps Observer.scheme o) (hdtype : Observer.Keeps Observer.dtype o) :
    ∃ channels, 1 ≤ channels ∧
      (if (Observer.scheme o).isPerChannel then c.channelLength = some channels
        else channels = 1) ∧
      ∀ actions t,
        let q := ((q₀.run actions).run t).1
        q.parameters.scale.length = channels ∧ q.parameters.zeroPoint.length = channels ∧
        q.scheme = q₀.scheme ∧ q.grid = q₀.grid ∧
        q.grid.low = c.quantMin ∧ q.grid.high = c.quantMax ∧ c.quantMin < c.quantMax ∧
        q.dtype.min ≤ q.grid.low.toInt ∧ q.grid.high.toInt ≤ q.dtype.max ∧
        (∃ pair, q.parameters.first = .ok pair) ∧
        ∀ x t', ((q.forward x).run t').1.result ≠ .error .noParameter := by
  obtain ⟨channels, hstart, hpos, hlength, hone⟩ := invariant_ofConfig h
  obtain ⟨-, g, _, hgrid, hcheck, -, rfl⟩ := ofConfig_eq_ok.mp h
  obtain ⟨hlow, hhigh⟩ := Grid.ofBounds_eq_ok.mp hgrid
  obtain ⟨hmin, hmax⟩ := Dtype.check_eq_ok.mp hcheck
  refine ⟨channels, hpos, ?_, fun actions t => ?_⟩
  · split
    · next hscheme => rw [hlength, if_pos hscheme]
    · next hscheme => exact hone (Bool.eq_false_iff.mpr hscheme)
  · have hrun := invariant_run hstart actions t
    intro q
    have hq : q.grid = g := hrun.grid
    refine ⟨hrun.length.scale, hrun.length.zeroPoint, hrun.keeps hscheme, hq, ?_, ?_, ?_, ?_, ?_,
      hrun.length.first hpos, fun x t' => ?_⟩
    · rw [hq, hlow]
    · rw [hq, hhigh]
    · rw [← hlow, ← hhigh]
      exact g.low_lt_high
    · rw [hq, dtype, hrun.keeps hdtype]
      exact hmin
    · rw [hq, dtype, hrun.keeps hdtype]
      exact hmax
    · rw [forward_fst]
      exact hrun.result_ne_noParameter hpos x

/-- With two channels and an observer that proposes one pair for both. -/
theorem run_keeps_two_channels :
    let c : Config := { Config.default with channelLength := some 2 }
    let o : ConstantObserver :=
      { parameters := .single 2 3, dtype := .quint8, scheme := .perChannelAffine 0, batches := 0 }
    ∃ q₀, ofConfig c o = .ok q₀ ∧ ∀ actions t,
      let q := ((q₀.run actions).run t).1
      q.parameters.scale.length = 2 ∧ q.parameters.zeroPoint.length = 2 := by
  intro c o
  have hvalid : c.validate = .ok () :=
    Config.validate_eq_ok.mpr ⟨by decide, by decide, by decide +kernel, fun _ h => nomatch h⟩
  have h : ofConfig c o = .ok _ :=
    ofConfig_eq_ok.mpr
      ⟨hvalid, ⟨0, 255, by decide⟩, 2, Grid.ofBounds_eq_ok.mpr ⟨rfl, rfl⟩, rfl, rfl, rfl⟩
  obtain ⟨channels, -, hchannels, hrun⟩ := run_keeps_construction h
    (ConstantObserver.keeps (fun _ _ => rfl) o) (ConstantObserver.keeps (fun _ _ => rfl) o)
  cases hchannels
  exact ⟨_, h, fun actions t => ⟨(hrun actions t).1, (hrun actions t).2.1⟩⟩

end Quantizer

end FakeQuant
