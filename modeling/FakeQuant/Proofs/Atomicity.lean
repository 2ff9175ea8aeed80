import FakeQuant.Proofs.Effect
import FakeQuant.Quantizer.InPlace

/-!
# All or nothing

The writers work on a quantizer that a host keeps. `runOn_setParameters`, `runOn_loadStateDict` and
`runOn_load` say that their work in place comes to what the functions of the same names compute: a
success is put into effect, and after a failure the quantizer and its log are as before, since every
check stands before the first write. `writers_all_or_nothing` says for each of them when it
succeeds, what it then writes, and whether a suspicious scale is reported.
-/

namespace FakeQuant

namespace InPlace

variable {σ α β γ : Type} {l : Logged σ}

/-! ### Work in place and functions -/

/-- A success put into effect, or everything as it was after a failure. -/
def settle (l : Logged σ) (effect : β → α × Logged σ) :
    Except Error β → Except Error α × Logged σ
  | .ok b => (.ok (effect b).1, (effect b).2)
  | .error e => (.error e, l)

/-- Work behind a check settles what a function behind the same check computes, if it does so
without the check: a failed check has done nothing. -/
theorem runOn_check {r : Except Error γ} {next : γ → InPlace σ α} {f : γ → Except Error β}
    {effect : β → α × Logged σ} (h : ∀ c, (next c).runOn l = settle l effect (f c)) :
    runOn (liftM r >>= next) l = settle l effect (r >>= f) := by
  cases r with
  | error e => rfl
  | ok c => exact h c

/-- The same behind a condition that stops the work. -/
theorem runOn_guard {stop : Prop} [Decidable stop] {e : Error} {next : Unit → InPlace σ α}
    {f : Unit → Except Error β} {effect : β → α × Logged σ}
    (h : (next ()).runOn l = settle l effect (f ())) :
    runOn (if stop then throw e >>= next else next ()) l =
      settle l effect (if stop then throw e >>= f else f ()) := by
  split
  · rfl
  · exact h

theorem runOn_channels (next : Nat → InPlace σ α) :
    runOn (channels >>= next) l = runOn (next l.quantizer.channels) l :=
  rfl

theorem runOn_setParameters (p : Parameters) (l : Logged σ) :
    (setParameters p).runOn l =
      settle l (fun (q, events) => ((), { quantizer := q, log := l.log ++ events }))
        (l.quantizer.setParameters p) := by
  rw [setParameters, runOn_channels, Quantizer.setParameters]
  refine runOn_check fun scale => runOn_check fun zeroPoint => ?_
  dsimp only
  by_cases hany : scale.values.any isSuspicious = true
  · rw [if_pos hany, if_pos hany]
    rfl
  · rw [if_neg hany, if_neg hany]
    change _ = ((Except.ok (), ⟨_, l.log ++ []⟩) : Except Error Unit × Logged σ)
    rw [List.append_nil]
    rfl

theorem runOn_loadStateDict (state : StateDict) (scope : String) (strict : Bool) (l : Logged σ) :
    (loadStateDict state scope strict).runOn l =
      settle l (fun (q, missing) => (missing, { l with quantizer := q }))
        (l.quantizer.loadStateDict state scope strict) := by
  rw [loadStateDict, runOn_channels, Quantizer.loadStateDict]
  exact runOn_check fun scale => runOn_check fun zeroPoint => runOn_guard rfl

theorem runOn_load (place : Place) (l : Logged σ) :
    (load place).runOn l =
      settle l (fun q => ((), { l with quantizer := q })) (l.quantizer.load place) := by
  rw [load, Quantizer.load]
  refine runOn_check fun text => runOn_check fun p => ?_
  rw [runOn_channels]
  exact runOn_guard (runOn_guard rfl)

/-! ### What the writers do -/

/-- Some work either writes parameters and reports something, or it does nothing at all. It succeeds
when there is something for it to write. -/
structure AllOrNothing (work : InPlace σ α) (l : Logged σ) (writes : Parameters → Prop)
    (reports : Parameters → List Event) : Prop where
  succeeds_iff : (∃ a, (work.runOn l).1 = .ok a) ↔ ∃ p, writes p
  success : ∀ p, writes p →
    (work.runOn l).2 =
      { quantizer := l.quantizer.replaceParameters p, log := l.log ++ reports p }
  failure : ∀ e, (work.runOn l).1 = .error e → (work.runOn l).2 = l

/-- Work that settles an outcome is all or nothing when the outcome succeeds exactly with an effect
that writes and reports as said. -/
theorem AllOrNothing.of_settle {work : InPlace σ α} {writes : Parameters → Prop}
    {reports : Parameters → List Event} {effect : β → α × Logged σ} {outcome : Except Error β}
    (hrun : work.runOn l = settle l effect outcome)
    (hok : ∀ after, (∃ b, outcome = .ok b ∧ (effect b).2 = after) ↔
      ∃ p, writes p ∧
        after = { quantizer := l.quantizer.replaceParameters p, log := l.log ++ reports p }) :
    AllOrNothing work l writes reports := by
  cases outcome with
  | error e =>
    -- had there been something to write, the outcome would be a success
    have hnothing : ¬ ∃ p, writes p := by
      rintro ⟨p, hp⟩
      obtain ⟨b, hb, -⟩ := (hok _).mpr ⟨p, hp, rfl⟩
      cases hb
    refine ⟨?_, fun p hp => absurd ⟨p, hp⟩ hnothing, fun _ _ => by rw [hrun]; rfl⟩
    rw [hrun]
    exact ⟨(nomatch ·.choose_spec), fun h => absurd h hnothing⟩
  | ok b =>
    obtain ⟨p, hp, -⟩ := (hok (effect b).2).mp ⟨b, rfl, rfl⟩
    refine ⟨?_, fun p' hp' => ?_, fun e he => ?_⟩
    · rw [hrun]
      exact ⟨fun _ => ⟨p, hp⟩, fun _ => ⟨(effect b).1, rfl⟩⟩
    · obtain ⟨b', hb', hafter⟩ := (hok _).mpr ⟨p', hp', rfl⟩
      cases hb'
      rw [hrun, ← hafter]
      rfl
    · rw [hrun] at he
      cases he

theorem allOrNothing_setParameters (p : Parameters) (l : Logged σ) :
    AllOrNothing (setParameters p) l
      (fun written => p.Fits l.quantizer.channels ∧ written = p.spread l.quantizer.channels)
      (fun written => warnings written.scale) := by
  refine .of_settle (runOn_setParameters p l) fun after => ?_
  simp only [Prod.exists, Quantizer.setParameters_eq_ok]
  constructor
  · rintro ⟨_, _, ⟨hfits, rfl, rfl⟩, rfl⟩
    exact ⟨_, ⟨hfits, rfl⟩, rfl⟩
  · rintro ⟨_, ⟨hfits, rfl⟩, rfl⟩
    exact ⟨_, _, ⟨hfits, rfl, rfl⟩, rfl⟩

theorem allOrNothing_load (place : Place) (l : Logged σ) :
    AllOrNothing (load place) l
      (fun written => ∃ text, place.read = .ok text ∧ Parameters.ofText text = .ok written ∧
        written.HasLength l.quantizer.channels)
      (fun _ => []) := by
  refine .of_settle (runOn_load place l) fun after => ?_
  simp only [Quantizer.load_eq_ok, List.append_nil]
  constructor
  · rintro ⟨_, ⟨text, p, hread, htext, hlength, rfl⟩, rfl⟩
    exact ⟨p, ⟨text, hread, htext, hlength⟩, rfl⟩
  · rintro ⟨p, ⟨text, hread, htext, hlength⟩, rfl⟩
    exact ⟨_, ⟨text, p, hread, htext, hlength, rfl⟩, rfl⟩

theorem allOrNothing_loadStateDict (state : StateDict) (scope : String) (strict : Bool)
    (l : Logged σ) :
    AllOrNothing (loadStateDict state scope strict) l
      (fun written => state.Serves scope strict l.quantizer.channels ∧
        written = state.parameters scope l.quantizer.parameters)
      (fun _ => []) := by
  refine .of_settle (runOn_loadStateDict state scope strict l) fun after => ?_
  simp only [Prod.exists, Quantizer.loadStateDict_eq_ok, List.append_nil]
  constructor
  · rintro ⟨_, _, ⟨hserves, rfl, rfl⟩, rfl⟩
    exact ⟨_, ⟨hserves, rfl⟩, rfl⟩
  · rintro ⟨_, ⟨hserves, rfl⟩, rfl⟩
    exact ⟨_, _, ⟨hserves, rfl, rfl⟩, rfl⟩

end InPlace

namespace Quantizer

variable {σ : Type} [Observer σ]

/-- A forward pass reports what copying the proposal reports, and nothing else. -/
theorem pass_events (q : Quantizer σ) (x : AnyTensor Single) :
    (q.pass x).events =
      if q.mode.copiesParameters = true ∧ (q.seen x).proposal.Fits q.channels then
        warnings ((q.seen x).proposal.spread q.channels).scale
      else [] := by
  have hmode : (q.seen x).mode = q.mode := rfl
  rw [pass]
  obtain ⟨hcopies, hrefresh⟩ | ⟨hcopies, hfits, hrefresh⟩ | ⟨-, hfits, e, hrefresh⟩ :=
    refresh_cases (q.seen x)
  · rw [hrefresh, ← hmode, hcopies]
    rfl
  · rw [hrefresh]
    exact (if_pos ⟨hcopies, hfits⟩).symm
  · rw [hrefresh]
    exact (if_neg fun h => hfits h.2).symm

/-- **Writing is all or nothing**, on every quantizer and whatever it has reported before. Each of
the three writers, when it fails, leaves quantizer and log as they were, and when it succeeds it has
replaced the parameters and nothing else:
* proposed parameters are written when they fit the channels, spread over them, and suspicious
  scales are reported;
* a place is loaded when it can be read and holds as many scales and zero points as channels;
* a dictionary is loaded when it serves the scope; an entry that is missing stays as it is.

The loaders report nothing. A forward pass reports suspicious scales exactly when it has written
them. -/
theorem writers_all_or_nothing (l : Logged σ) :
    let q := l.quantizer
    (∀ p, InPlace.AllOrNothing (InPlace.setParameters p) l
      (fun written => p.Fits q.channels ∧ written = p.spread q.channels)
      (fun written => warnings written.scale)) ∧
    (∀ place, InPlace.AllOrNothing (InPlace.load place) l
      (fun written => ∃ text, place.read = .ok text ∧ Parameters.ofText text = .ok written ∧
        written.HasLength q.channels)
      (fun _ => [])) ∧
    (∀ state scope strict, InPlace.AllOrNothing (InPlace.loadStateDict state scope strict) l
      (fun written => state.Serves scope strict q.channels ∧
        written = state.parameters scope q.parameters)
      (fun _ => [])) ∧
    ∀ x t, ((q.forward x).run t).1.events =
      let proposed := Observer.proposal (Observer.observe q.observer x)
      if q.mode.copiesParameters = true ∧ proposed.Fits q.channels then
        warnings (proposed.spread q.channels).scale
      else [] := by
  refine ⟨fun p => InPlace.allOrNothing_setParameters p l,
    fun place => InPlace.allOrNothing_load place l,
    fun state scope strict => InPlace.allOrNothing_loadStateDict state scope strict l,
    fun x t => ?_⟩
  rw [forward_fst]
  exact pass_events l.quantizer x

end Quantizer

end FakeQuant
