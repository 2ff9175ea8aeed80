import FakeQuant.Proofs.Construction
import FakeQuant.Proofs.Ordering
import FakeQuant.Proofs.RoundedValues

/-!
# Which configurations are accepted

A quantizer is built when six conditions hold: four on the configuration alone, one on its grid and
the observer's storage type, and one on its number of channels and the observer's scheme. A
`Condition` is one of them, and `Condition.all` lists them in the order in which they are looked at.
`Condition.Holds` is what a condition says and `Condition.fault?` the error that tells that it does
not hold (`Condition.fault?_eq_none_iff`).

`construction_accepts` says that these conditions are all that is asked for, that of several
violated ones the first is reported, and what is built if there is none.
-/

namespace FakeQuant

/-! ### Conditions -/

/-- What a quantizer that is built asks of its configuration and its observer. -/
inductive Condition where
  | bounds
  | channelLength
  | scale
  | gradientFactor
  | storage
  | scheme
deriving DecidableEq

namespace Condition

/-- The conditions on the configuration alone, in the order in which they are looked at. -/
def own : List Condition :=
  [bounds, channelLength, scale, gradientFactor]

/-- All conditions, in the order in which they are looked at. -/
def all : List Condition :=
  own ++ [storage, scheme]

theorem mem_all (k : Condition) : k ∈ all := by
  cases k <;> decide

/-- What a condition says of a configuration and an observer's storage type and scheme. -/
def Holds (c : Config) (dtype : Dtype) (observed : Scheme) : Condition → Prop
  | bounds => c.quantMin < c.quantMax
  | channelLength => c.channelLength ≠ some 0
  | scale => c.scale.isFinite = true ∧ 0 < c.scale.value
  | gradientFactor => ∀ factor, c.gradientScaling = .fixed factor → factor.isFinite = true
  | storage => dtype.min ≤ c.quantMin.toInt ∧ c.quantMax.toInt ≤ dtype.max
  | scheme => c.channelLength.isSome = observed.isPerChannel

/-- The error where a condition does not hold. -/
def fault? (c : Config) (dtype : Dtype) (observed : Scheme) : Condition → Option Error
  | bounds =>
    if c.quantMin < c.quantMax then none else some (.invalidRange c.quantMin c.quantMax)
  | channelLength =>
    if c.channelLength = some 0 then some (.invalidChannelLength 0) else none
  | scale =>
    if c.scale.isFinite = true ∧ 0 < c.scale.value then none
    else some (.configuration (.scale c.scale))
  | gradientFactor =>
    match c.gradientScaling with
    | .fixed factor =>
      if factor.isFinite then none else some (.configuration (.gradientFactor factor))
    | .disabled | .elementCount => none
  | storage =>
    if dtype.min ≤ c.quantMin.toInt ∧ c.quantMax.toInt ≤ dtype.max then none
    else some (.rangeOutOfBounds c.quantMin c.quantMax dtype)
  | scheme =>
    match observed.isPerChannel, c.channelLength with
    | true, some _ | false, none => none
    | true, none => some (.schemeMismatch (.needsChannels observed))
    | false, some n => some (.schemeMismatch (.takesNoChannels observed n))

variable {c : Config} {dtype : Dtype} {observed : Scheme}

/-- There is an error about a condition exactly when the condition does not hold. -/
theorem fault?_eq_none_iff {k : Condition} :
    k.fault? c dtype observed = none ↔ k.Holds c dtype observed := by
  cases k with
  | bounds => simp [fault?, Holds]
  | channelLength => simp [fault?, Holds]
  | scale => simp [fault?, Holds]
  | gradientFactor =>
    simp only [fault?, Holds]
    cases c.gradientScaling <;> simp
  | storage => simp [fault?, Holds]
  | scheme =>
    simp only [fault?, Holds]
    cases observed.isPerChannel <;> cases c.channelLength <;> simp

end Condition

/-! ### The checks and their conditions -/

section Checks

variable (c : Config) (dtype : Dtype) (observed : Scheme)

theorem failsWith_grid : FailsWith c.grid (Condition.bounds.fault? c dtype observed) := by
  rw [Config.grid, Grid.ofBounds, Condition.fault?]
  split
  · exact ⟨_, rfl⟩
  · rfl

theorem failsWith_checkChannelLength :
    FailsWith c.checkChannelLength (Condition.channelLength.fault? c dtype observed) :=
  failsWith_ite_error _ () _

theorem failsWith_checkScale :
    FailsWith c.checkScale (Condition.scale.fault? c dtype observed) := by
  -- the check compares numbers, the condition their values
  have hpos : c.scale.isFinite = true ∧ 0 < c.scale ↔
      c.scale.isFinite = true ∧ 0 < c.scale.value := by
    refine and_congr_right fun hfinite => ?_
    rw [Binary.lt_iff_value rfl hfinite, Binary.zero_eq, Binary.value_zero]
  rw [Config.checkScale, Condition.fault?]
  simp only [hpos]
  exact failsWith_ite _ () _

theorem failsWith_checkGradientScaling :
    FailsWith c.checkGradientScaling (Condition.gradientFactor.fault? c dtype observed) := by
  rw [Config.checkGradientScaling, Condition.fault?]
  cases c.gradientScaling with
  | disabled => exact ⟨_, rfl⟩
  | elementCount => exact ⟨_, rfl⟩
  | fixed factor => exact failsWith_ite _ () _

theorem failsWith_checkGrid {g : Grid} (h : c.grid = .ok g) :
    FailsWith (dtype.check g) (Condition.storage.fault? c dtype observed) := by
  obtain ⟨hlow, hhigh⟩ := Grid.ofBounds_eq_ok.mp h
  rw [Dtype.check, Condition.fault?, hlow, hhigh]
  by_cases hfits : dtype.min ≤ c.quantMin.toInt ∧ c.quantMax.toInt ≤ dtype.max
  · rw [if_neg (by omega), if_pos hfits]
    exact ⟨(), rfl⟩
  · rw [if_pos (by omega), if_neg hfits]
    rfl

theorem failsWith_channels {α : Type} (f : Nat → α) :
    FailsWith
      (match observed.channels c.channelLength with
        | .error fault => throw (.schemeMismatch fault)
        | .ok channels => return f channels)
      (Condition.scheme.fault? c dtype observed) := by
  unfold Scheme.channels Condition.fault?
  cases observed.isPerChannel with
  | false =>
    cases c.channelLength with
    | none => exact ⟨_, rfl⟩
    | some n => rfl
  | true =>
    cases c.channelLength with
    | none => rfl
    | some n => exact ⟨_, rfl⟩

/-- Validation looks at the conditions on the configuration alone. -/
theorem failsWith_validate :
    FailsWith c.validate
      (Condition.own.findSome? fun k => k.fault? c dtype observed) :=
  (failsWith_grid c dtype observed).cons fun _ _ =>
    (failsWith_checkChannelLength c dtype observed).cons fun _ _ =>
      (failsWith_checkScale c dtype observed).cons fun _ _ =>
        (failsWith_checkGradientScaling c dtype observed).singleton

end Checks

/-! ### Construction -/

/-- What is wrong with a configuration for an observer's storage type and scheme: the error about
the first condition that does not hold. -/
def Config.fault? (c : Config) (dtype : Dtype) (observed : Scheme) : Option Error :=
  Condition.all.findSome? fun k => k.fault? c dtype observed

/-- Of several violated conditions the first one is reported. -/
example :
    Config.fault? { Config.default with channelLength := some 0, scale := .nan } .qint8
      .perTensorAffine = some (.invalidChannelLength 0) := by
  decide

theorem Config.fault?_eq_none_iff {c : Config} {dtype : Dtype} {observed : Scheme} :
    c.fault? dtype observed = none ↔ ∀ k : Condition, k.Holds c dtype observed := by
  rw [fault?, List.findSome?_eq_none_iff]
  exact ⟨fun h k => Condition.fault?_eq_none_iff.mp (h k k.mem_all),
    fun h k _ => Condition.fault?_eq_none_iff.mpr (h k)⟩

theorem Config.fault?_eq_some_iff {c : Config} {dtype : Dtype} {observed : Scheme} {e : Error} :
    c.fault? dtype observed = some e ↔
      ∃ before k after, Condition.all = before ++ k :: after ∧
        (∀ j ∈ before, j.Holds c dtype observed) ∧ ¬ k.Holds c dtype observed ∧
        k.fault? c dtype observed = some e := by
  rw [fault?, List.findSome?_eq_some_iff]
  constructor
  · rintro ⟨before, k, after, hall, hk, hbefore⟩
    refine ⟨before, k, after, hall, fun j hj => ?_, fun hholds => ?_, hk⟩
    · exact Condition.fault?_eq_none_iff.mp (hbefore j hj)
    · rw [Condition.fault?_eq_none_iff.mpr hholds] at hk
      cases hk
  · rintro ⟨before, k, after, hall, hbefore, -, hk⟩
    exact ⟨before, k, after, hall, hk, fun j hj => Condition.fault?_eq_none_iff.mpr (hbefore j hj)⟩

/-- A scheme that agrees with a number of channels takes that number, or one if none is given. -/
theorem Scheme.eq_getD_of_channels {scheme : Scheme} {given : Option Nat} {channels : Nat}
    (h : scheme.channels given = .ok channels) : channels = given.getD 1 := by
  obtain ⟨rfl, hone⟩ := Scheme.channels_eq_ok.mp h
  cases hscheme : scheme.isPerChannel with
  | false => exact hone hscheme
  | true => rfl

namespace Quantizer

variable {σ : Type} [Observer σ]

theorem failsWith_ofConfig (c : Config) (o : σ) :
    FailsWith (ofConfig c o) (c.fault? (Observer.dtype o) (Observer.scheme o)) := by
  rw [Config.fault?, Condition.all, List.findSome?_append]
  refine (failsWith_validate c _ _).or fun _ hvalid => ?_
  -- the grid that validation has built is built once more
  have hgrid : c.grid = .ok ⟨c.quantMin, c.quantMax, (Config.validate_eq_ok.mp hvalid).1⟩ :=
    Grid.ofBounds_eq_ok.mpr ⟨rfl, rfl⟩
  rw [hgrid]
  exact (failsWith_checkGrid c _ _ hgrid).cons fun _ _ => (failsWith_channels c _ _ _).singleton

/-- **Which configurations are accepted**, for every configuration and every observer. A quantizer
is built exactly when all conditions hold; otherwise the error is that of the first condition which
does not. A quantizer that is built has the grid, the mode and the gradient scaling of the
configuration, its scale and zero point once for every channel, or once if no number of channels is
given, and the observer as it came. -/
theorem construction_accepts (c : Config) (o : σ) :
    ((∃ q, ofConfig c o = .ok q) ↔
      ∀ k : Condition, k.Holds c (Observer.dtype o) (Observer.scheme o)) ∧
    (∀ e, ofConfig c o = .error e ↔
      ∃ before k after, Condition.all = before ++ k :: after ∧
        (∀ j ∈ before, j.Holds c (Observer.dtype o) (Observer.scheme o)) ∧
        ¬ k.Holds c (Observer.dtype o) (Observer.scheme o) ∧
        k.fault? c (Observer.dtype o) (Observer.scheme o) = some e) ∧
    ∀ q, ofConfig c o = .ok q →
      (q.grid.low = c.quantMin ∧ q.grid.high = c.quantMax) ∧
      q.mode = c.mode ∧ q.gradientScaling = c.gradientScaling ∧
      q.parameters = .uniform (c.channelLength.getD 1) c.scale c.zeroPoint ∧
      q.observer = o := by
  have hfault := failsWith_ofConfig c o
  refine ⟨?_, fun e => ?_, fun q hq => ?_⟩
  · rw [← Config.fault?_eq_none_iff]
    constructor
    · rintro ⟨q, hq⟩
      refine Option.eq_none_iff_forall_ne_some.mpr fun e he => ?_
      rw [(failsWith_iff.mp hfault e).mpr he] at hq
      cases hq
    · intro hnone
      rwa [hnone] at hfault
  · rw [failsWith_iff.mp hfault e, Config.fault?_eq_some_iff]
  · obtain ⟨-, g, channels, hgrid, -, hchannels, rfl⟩ := ofConfig_eq_ok.mp hq
    have hcount : channels = c.channelLength.getD 1 := Scheme.eq_getD_of_channels hchannels
    rw [hcount]
    exact ⟨Grid.ofBounds_eq_ok.mp hgrid, rfl, rfl, rfl, rfl⟩

/-- An observer of scales along an axis, and a configuration for it: with three channels it is
accepted; with none at all and no scale either, the number of channels is what is reported. -/
theorem construction_accepts_three_channels :
    let o : ConstantObserver :=
      { parameters := .single 1 0, dtype := .qint8, scheme := .perChannelAffine 1, batches := 0 }
    let c : Config :=
      { Config.default with quantMin := -128, quantMax := 127, channelLength := some 3 }
    (∃ q, ofConfig c o = .ok q ∧ q.parameters.scale = .ofList [1, 1, 1] ∧ q.observer = o) ∧
    ofConfig { c with channelLength := some 0, scale := .nan } o =
      .error (.invalidChannelLength 0) := by
  intro o c
  constructor
  · obtain ⟨hsuccess, -, hbuilt⟩ := construction_accepts c o
    obtain ⟨q, hq⟩ := hsuccess.mpr fun k => by
      refine Condition.fault?_eq_none_iff.mp ?_
      cases k <;> decide +kernel
    obtain ⟨-, -, -, hparameters, hobserver⟩ := hbuilt q hq
    exact ⟨q, hq, congrArg Parameters.scale hparameters, hobserver⟩
  · refine ((construction_accepts _ o).2.1 _).mpr ⟨[.bounds], .channelLength, _, rfl, ?_, ?_, rfl⟩
    · rintro j (_ | ⟨_, ⟨⟩⟩)
      exact Condition.fault?_eq_none_iff.mp rfl
    · exact fun h => h rfl

end Quantizer

end FakeQuant
