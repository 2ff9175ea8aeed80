import FakeQuant.Proofs.Outcomes
import FakeQuant.Quantizer.Forward
import FakeQuant.Quantizer.State

/-!
# Writing parameters

Three operations write the parameters of a quantizer: `setParameters` and the two loaders. Each of
them, when it succeeds, is one `replaceParameters`; `setParameters_eq_ok`, `loadStateDict_eq_ok` and
`load_eq_ok` say when that is and what is written. The rules for lengths differ: proposed parameters
have to fit the channels (`Parameters.Fits`), a dictionary has to serve a scope
(`StateDict.Serves`), a text has to hold one value per channel. But all three leave as many scales
and zero points as there are channels (`Parameters.HasLength`).
-/

namespace FakeQuant

/-! ### Lengths -/

/-- As many scales and zero points as there are channels. -/
structure Parameters.HasLength (p : Parameters) (channels : Nat) : Prop where
  scale : p.scale.length = channels
  zeroPoint : p.zeroPoint.length = channels

theorem Parameters.hasLength_uniform (channels : Nat) (scale zeroPoint : Single) :
    (Parameters.uniform channels scale zeroPoint).HasLength channels :=
  ⟨List.length_replicate, List.length_replicate⟩

/-- Parameters of a positive length have a first scale and a first zero point. -/
theorem Parameters.HasLength.first {p : Parameters} {channels : Nat} (h : p.HasLength channels)
    (hpos : 1 ≤ channels) : ∃ pair, p.first = .ok pair := by
  obtain ⟨⟨scale, _⟩, ⟨zeroPoint, _⟩⟩ := p
  obtain ⟨hscale, hzero⟩ := h
  cases scale with
  | nil => exact absurd hscale (Nat.ne_of_lt hpos)
  | cons scale scales =>
    cases zeroPoint with
    | nil => exact absurd hzero (Nat.ne_of_lt hpos)
    | cons zeroPoint zeroPoints => exact ⟨(scale, zeroPoint), rfl⟩

/-! ### Layouts -/

/-- The same values in new rows: what parameters come to that are saved and loaded. -/
def Parameters.renewed (p : Parameters) : Parameters where
  scale := .ofList p.scale.values
  zeroPoint := .ofList p.zeroPoint.values

/-- The row for so many channels: a row of that length itself, and a new one of a single value. -/
def spreadTo (channels : Nat) (r : Row Single) : Row Single :=
  if r.length = channels then r
  else match r.values with
    | [v] => .ofList (List.replicate channels v)
    | _ => r

/-- A row with one value for each channel stays as it is, with its stride. -/
theorem spreadTo_of_length {r : Row Single} {channels : Nat} (h : r.length = channels) :
    spreadTo channels r = r :=
  if_pos h

/-- A row of a single value makes way for a new row. -/
theorem spreadTo_of_single {r : Row Single} {channels : Nat} {v : Single}
    (h : r.length ≠ channels) (hv : r.values = [v]) :
    spreadTo channels r = .ofList (List.replicate channels v) := by
  rw [spreadTo, if_neg h, hv]

theorem length_spreadTo {r : Row Single} {channels : Nat}
    (h : r.length = 1 ∨ r.length = channels) : (spreadTo channels r).length = channels := by
  by_cases hlength : r.length = channels
  · rw [spreadTo_of_length hlength, hlength]
  · obtain ⟨v, hv⟩ := List.length_eq_one_iff.mp (h.resolve_right hlength)
    rw [spreadTo_of_single hlength hv]
    exact List.length_replicate

/-- A row can be spread when it has as many values as asked for or a single one. -/
theorem spreadRow_eq_ok {what : String} {r result : Row Single} {length : Nat} :
    spreadRow what r length = .ok result ↔
      (r.length = 1 ∨ r.length = length) ∧ result = spreadTo length r := by
  unfold spreadRow
  split
  · next h =>
    rw [spreadTo_of_length h, and_iff_right (.inr h), Except.ok.injEq]
    exact eq_comm
  · next h =>
    split
    · next v hv =>
      rw [spreadTo_of_single h hv, and_iff_right (.inl (List.length_eq_one_iff.mpr ⟨v, hv⟩)),
        Except.ok.injEq]
      exact eq_comm
    · next hsingle =>
      refine ⟨(nomatch ·), ?_⟩
      rintro ⟨hone | hlength, -⟩
      · obtain ⟨v, hv⟩ := List.length_eq_one_iff.mp hone
        exact absurd hv (hsingle v)
      · exact absurd hlength h

/-- A row cannot be spread when it has neither as many values as asked for nor a single one. -/
theorem spreadRow_eq_error {what : String} {r : Row Single} {length : Nat} {e : Error} :
    spreadRow what r length = .error e ↔
      r.length ≠ length ∧ r.length ≠ 1 ∧ e = .shapeMismatch what [length] [r.length] := by
  unfold spreadRow
  split
  · next h => exact ⟨(nomatch ·), fun h' => absurd h h'.1⟩
  · next h =>
    split
    · next v hv =>
      exact ⟨(nomatch ·), fun h' => absurd (List.length_eq_one_iff.mpr ⟨v, hv⟩) h'.2.1⟩
    · next hsingle =>
      constructor
      · intro h'
        cases h'
        refine ⟨h, fun hone => ?_, rfl⟩
        obtain ⟨v, hv⟩ := List.length_eq_one_iff.mp hone
        exact hsingle v hv
      · rintro ⟨-, -, rfl⟩
        rfl

/-- One scale for all channels or one for each, and likewise the zero points. -/
structure Parameters.Fits (p : Parameters) (channels : Nat) : Prop where
  scale : p.scale.length = 1 ∨ p.scale.length = channels
  zeroPoint : p.zeroPoint.length = 1 ∨ p.zeroPoint.length = channels

instance (p : Parameters) (channels : Nat) : Decidable (p.Fits channels) :=
  decidable_of_iff
    ((p.scale.length = 1 ∨ p.scale.length = channels) ∧
      (p.zeroPoint.length = 1 ∨ p.zeroPoint.length = channels))
    ⟨fun h => ⟨h.1, h.2⟩, fun h => ⟨h.scale, h.zeroPoint⟩⟩

/-- The parameters for so many channels. -/
def Parameters.spread (p : Parameters) (channels : Nat) : Parameters where
  scale := spreadTo channels p.scale
  zeroPoint := spreadTo channels p.zeroPoint

theorem Parameters.Fits.hasLength_spread {p : Parameters} {channels : Nat} (h : p.Fits channels) :
    (p.spread channels).HasLength channels :=
  ⟨length_spreadTo h.scale, length_spreadTo h.zeroPoint⟩

/-! ### Suspicious scales -/

/-- No scale to divide by: not a number, infinite, zero or negative. -/
inductive Suspicious : Single → Prop where
  | nan : Suspicious .nan
  | infinity (negative : Bool) : Suspicious (.infinity negative)
  | nonpositive {scale : Single} (finite : scale.isFinite = true) (value : scale.value ≤ 0) :
    Suspicious scale

theorem isSuspicious_iff {scale : Single} : isSuspicious scale = true ↔ Suspicious scale := by
  cases scale with
  | nan => exact ⟨fun _ => .nan, fun _ => rfl⟩
  | infinity negative => exact ⟨fun _ => .infinity negative, fun _ => rfl⟩
  | finite negative significand exponent canonical =>
    have hle : isSuspicious (.finite negative significand exponent canonical) = true ↔
        (Binary.finite negative significand exponent canonical).value ≤ 0 := by
      have hzero : (Binary.zero false : Single).value = 0 := Rat.zero_mul _
      rw [isSuspicious, Binary.zero_eq, Rat.le_iff_lt_or_eq, ← hzero]
      simp [Binary.isFinite, Binary.le_iff_blt_or_numEq, Binary.zero, Binary.blt, Binary.numEq]
    rw [hle]
    constructor
    · exact .nonpositive rfl
    · rintro (_ | _ | ⟨-, hvalue⟩)
      exact hvalue

instance (scale : Single) : Decidable (Suspicious scale) :=
  decidable_of_iff _ isSuspicious_iff

/-- What is reported when these scales are written. -/
def warnings (scale : Row Single) : List Event :=
  if ∃ s ∈ scale.values, Suspicious s then [.suspiciousScale scale] else []

theorem warnings_eq (scale : Row Single) :
    warnings scale = if scale.values.any isSuspicious then [.suspiciousScale scale] else [] := by
  simp only [warnings, List.any_eq_true, isSuspicious_iff]

/-! ### Dictionaries -/

/-- A row is found under a key unless its values are too few or too many. -/
theorem StateDict.row_eq_ok {state : StateDict} {key what : String} {length : Nat}
    {found : Option (Row Single)} :
    state.row key what length = .ok found ↔
      (∀ values, state.lookup key = some values → values.length = length) ∧
        found = (state.lookup key).map .ofList := by
  rw [row]
  cases state.lookup key with
  | none =>
    constructor
    · intro h
      cases h
      exact ⟨fun _ hnone => (nomatch hnone), rfl⟩
    · rintro ⟨-, rfl⟩
      rfl
  | some entry =>
    dsimp only
    constructor
    · intro h
      split at h
      · next hlength =>
        cases h
        refine ⟨fun entry' hentry => ?_, rfl⟩
        cases hentry
        exact hlength
      · cases h
    · rintro ⟨hlength, rfl⟩
      exact if_pos (hlength entry rfl)

namespace StateDict

/-- What a dictionary has under the two keys of a scope can be loaded for so many channels: each
entry that is there has as many values, and a strict load finds both. -/
structure Serves (state : StateDict) (scope : String) (strict : Bool) (channels : Nat) :
    Prop where
  scale : ∀ values, state.lookup (scaleKey scope) = some values → values.length = channels
  zeroPoint : ∀ values, state.lookup (zeroPointKey scope) = some values → values.length = channels
  complete : strict = true →
    (state.lookup (scaleKey scope)).isSome ∧ (state.lookup (zeroPointKey scope)).isSome

/-- The parameters of a scope, in new rows. What is not there is as before. -/
def parameters (state : StateDict) (scope : String) (old : Parameters) : Parameters where
  scale := ((state.lookup (scaleKey scope)).map .ofList).getD old.scale
  zeroPoint := ((state.lookup (zeroPointKey scope)).map .ofList).getD old.zeroPoint

/-- What a dictionary serves has the right length, also where the old values stay. -/
theorem Serves.hasLength {state : StateDict} {scope : String} {strict : Bool} {channels : Nat}
    {old : Parameters} (h : state.Serves scope strict channels) (hold : old.HasLength channels) :
    (state.parameters scope old).HasLength channels := by
  constructor
  · rw [parameters]
    cases hscale : state.lookup (scaleKey scope) with
    | none => exact hold.scale
    | some values => exact h.scale values hscale
  · rw [parameters]
    cases hzero : state.lookup (zeroPointKey scope) with
    | none => exact hold.zeroPoint
    | some values => exact h.zeroPoint values hzero

/-- The keys of a scope that are not there. -/
def missing (state : StateDict) (scope : String) : List String :=
  [scaleKey scope, zeroPointKey scope].filter fun key => (state.lookup key).isNone

theorem missing_eq_nil {state : StateDict} {scope : String} :
    state.missing scope = [] ↔
      (state.lookup (scaleKey scope)).isSome ∧ (state.lookup (zeroPointKey scope)).isSome := by
  simp [missing, List.filter_eq_nil_iff]

theorem missing_eq (state : StateDict) (scope : String) :
    state.missing scope =
      (if (state.lookup (scaleKey scope)).isNone then [scaleKey scope] else []) ++
        if (state.lookup (zeroPointKey scope)).isNone then [zeroPointKey scope] else [] := by
  rw [missing, List.filter_cons, List.filter_cons, List.filter_nil]
  cases (state.lookup (scaleKey scope)).isNone <;> rfl

end StateDict

/-! ### The three writers -/

namespace Quantizer

variable {σ : Type} {q q' : Quantizer σ}

/-- Parameters are written when they fit, and then they are spread over the channels. -/
theorem setParameters_eq_ok {p : Parameters} {events : List Event} :
    q.setParameters p = .ok (q', events) ↔
      p.Fits q.channels ∧ q' = q.replaceParameters (p.spread q.channels) ∧
        events = warnings (p.spread q.channels).scale := by
  rw [setParameters, warnings_eq]
  simp only [bind_eq_ok, spreadRow_eq_ok]
  constructor
  · rintro ⟨scale, ⟨hscale, rfl⟩, zeroPoint, ⟨hzero, rfl⟩, h⟩
    cases h
    exact ⟨⟨hscale, hzero⟩, rfl, rfl⟩
  · rintro ⟨hfits, rfl, rfl⟩
    exact ⟨_, ⟨hfits.scale, rfl⟩, _, ⟨hfits.zeroPoint, rfl⟩, rfl⟩

theorem setParameters_eq_error {p : Parameters} {e : Error} :
    q.setParameters p = .error e ↔
      spreadRow "scale" p.scale q.channels = .error e ∨
        ∃ scale, spreadRow "scale" p.scale q.channels = .ok scale ∧
          spreadRow "zero_point" p.zeroPoint q.channels = .error e := by
  rw [setParameters, bind_eq_error]
  refine or_congr_right (exists_congr fun scale => and_congr_right fun _ => ?_)
  rw [bind_eq_error]
  constructor
  · rintro (h | ⟨zeroPoint, -, h⟩)
    · exact h
    · cases h
  · exact .inl

/-- A load from a dictionary succeeds when the dictionary serves the scope, and then the entries
that are there are written. -/
theorem loadStateDict_eq_ok {state : StateDict} {scope : String} {strict : Bool}
    {missing : List String} :
    q.loadStateDict state scope strict = .ok (q', missing) ↔
      state.Serves scope strict q.channels ∧
        q' = q.replaceParameters (state.parameters scope q.parameters) ∧
        missing = state.missing scope := by
  rw [loadStateDict]
  simp only [bind_eq_ok, ite_throw_eq_ok, StateDict.row_eq_ok]
  constructor
  · rintro ⟨scale, ⟨hscale, rfl⟩, zeroPoint, ⟨hzero, rfl⟩, hstrict, h⟩
    cases h
    rw [Option.isNone_map, Option.isNone_map, ← StateDict.missing_eq] at hstrict ⊢
    refine ⟨⟨hscale, hzero, fun h => StateDict.missing_eq_nil.mp ?_⟩, rfl, rfl⟩
    exact Decidable.of_not_not fun hmissing => hstrict ⟨h, hmissing⟩
  · rintro ⟨hserves, rfl, rfl⟩
    refine ⟨_, ⟨hserves.scale, rfl⟩, _, ⟨hserves.zeroPoint, rfl⟩, ?_⟩
    rw [Option.isNone_map, Option.isNone_map, ← StateDict.missing_eq]
    refine ⟨?_, rfl⟩
    rintro ⟨h, hmissing⟩
    exact hmissing (StateDict.missing_eq_nil.mpr (hserves.complete h))

theorem load_eq_ok {place : Place} :
    q.load place = .ok q' ↔
      ∃ text p, place.read = .ok text ∧ Parameters.ofText text = .ok p ∧
        p.HasLength q.channels ∧ q' = q.replaceParameters p := by
  rw [load]
  simp only [bind_eq_ok, ite_throw_eq_ok]
  constructor
  · rintro ⟨text, hread, p, htext, hscale, hzero, h⟩
    cases h
    exact ⟨text, p, hread, htext, ⟨Decidable.of_not_not hscale, Decidable.of_not_not hzero⟩, rfl⟩
  · rintro ⟨text, p, hread, htext, hlength, rfl⟩
    exact ⟨text, hread, p, htext, not_not_intro hlength.scale, not_not_intro hlength.zeroPoint, rfl⟩

/-! ### What the writers have in common -/

/-- The second quantizer is the first one with parameters that are as many as before, if there
were as many zero points as scales. -/
def Rewrites (q q' : Quantizer σ) : Prop :=
  ∃ p : Parameters, q' = q.replaceParameters p ∧
    ∀ channels, q.parameters.HasLength channels → p.HasLength channels

theorem Rewrites.refl (q : Quantizer σ) : q.Rewrites q :=
  ⟨q.parameters, rfl, fun _ h => h⟩

theorem Rewrites.hasLength {channels : Nat} (h : q.Rewrites q')
    (hlength : q.parameters.HasLength channels) : q'.parameters.HasLength channels := by
  obtain ⟨p, rfl, hp⟩ := h
  exact hp channels hlength

theorem Rewrites.mode (h : q.Rewrites q') : q'.mode = q.mode := by
  obtain ⟨p, rfl, -⟩ := h
  rfl

theorem rewrites_setParameters {p : Parameters} {events : List Event}
    (h : q.setParameters p = .ok (q', events)) : q.Rewrites q' := by
  obtain ⟨hfits, hq, -⟩ := setParameters_eq_ok.mp h
  refine ⟨p.spread q.channels, hq, fun channels hlength => ?_⟩
  have hchannels : q.channels = channels := hlength.scale
  rw [hchannels] at hfits ⊢
  exact hfits.hasLength_spread

theorem rewrites_loadStateDict {state : StateDict} {scope : String} {strict : Bool}
    {missing : List String} (h : q.loadStateDict state scope strict = .ok (q', missing)) :
    q.Rewrites q' := by
  obtain ⟨hserves, hq, -⟩ := loadStateDict_eq_ok.mp h
  refine ⟨_, hq, fun channels hlength => ?_⟩
  have hchannels : q.channels = channels := hlength.scale
  rw [hchannels] at hserves
  exact hserves.hasLength hlength

theorem rewrites_load {place : Place} (h : q.load place = .ok q') : q.Rewrites q' := by
  obtain ⟨text, p, -, -, hp, hq⟩ := load_eq_ok.mp h
  refine ⟨p, hq, fun channels hlength => ?_⟩
  have hchannels : q.channels = channels := hlength.scale
  rwa [hchannels] at hp

end Quantizer

end FakeQuant
