import FakeQuant.Proofs.Writers

/-!
# Building a quantizer

`Quantizer.ofConfig` succeeds when all its checks do; `ofConfig_eq_ok` says what they are and what
is built then. The lemmas before it say what each of the checks means.
-/

namespace FakeQuant

/-! ### Single checks -/

/-- Bounds that make a grid are in order, and are its bounds. -/
theorem Grid.ofBounds_eq_ok {low high : Int32} {g : Grid} :
    Grid.ofBounds low high = .ok g ↔ g.low = low ∧ g.high = high := by
  unfold ofBounds
  split
  · next h =>
    constructor
    · intro h'
      cases h'
      exact ⟨rfl, rfl⟩
    · rintro ⟨rfl, rfl⟩
      rfl
  · next h =>
    constructor
    · exact (nomatch ·)
    · rintro ⟨rfl, rfl⟩
      exact absurd g.low_lt_high h

/-- A grid that passes the check of a storage type lies between its bounds. -/
theorem Dtype.check_eq_ok {dtype : Dtype} {g : Grid} :
    dtype.check g = .ok () ↔ dtype.min ≤ g.low.toInt ∧ g.high.toInt ≤ dtype.max := by
  unfold check
  split
  · next h => exact ⟨(nomatch ·), fun h' => by omega⟩
  · next h => exact ⟨fun _ => by omega, fun _ => rfl⟩

/-- A scheme agrees with a number of channels exactly when it needs one. -/
theorem Scheme.channels_eq_ok {scheme : Scheme} {given : Option Nat} {channels : Nat} :
    scheme.channels given = .ok channels ↔
      given = (if scheme.isPerChannel then some channels else none) ∧
        (scheme.isPerChannel = false → channels = 1) := by
  unfold Scheme.channels
  cases scheme.isPerChannel <;> cases given <;> simp [eq_comm]

/-! ### Valid configurations -/

namespace Config

variable {c : Config}

theorem checkChannelLength_eq_ok : c.checkChannelLength = .ok () ↔ c.channelLength ≠ some 0 := by
  unfold checkChannelLength
  split
  · next h => exact ⟨(nomatch ·), absurd h⟩
  · next h => exact ⟨fun _ => h, fun _ => rfl⟩

theorem checkScale_eq_ok :
    c.checkScale = .ok () ↔ c.scale.isFinite = true ∧ 0 < c.scale := by
  unfold checkScale
  split
  · next h => exact ⟨fun _ => h, fun _ => rfl⟩
  · next h => exact ⟨(nomatch ·), fun h' => absurd h' h⟩

theorem checkGradientScaling_eq_ok :
    c.checkGradientScaling = .ok () ↔
      ∀ factor, c.gradientScaling = .fixed factor → factor.isFinite = true := by
  unfold checkGradientScaling
  cases c.gradientScaling with
  | disabled => exact ⟨fun _ _ h => (nomatch h), fun _ => rfl⟩
  | elementCount => exact ⟨fun _ _ h => (nomatch h), fun _ => rfl⟩
  | fixed factor =>
    dsimp only
    split
    · next h => exact ⟨fun _ _ h' => by cases h'; exact h, fun _ => rfl⟩
    · next h => exact ⟨(nomatch ·), fun h' => absurd (h' factor rfl) h⟩

/-- A configuration is valid when its bounds are in order, it does not ask for zero channels, its
scale is finite and positive, and a fixed gradient factor is finite. -/
theorem validate_eq_ok :
    c.validate = .ok () ↔
      c.quantMin < c.quantMax ∧ c.channelLength ≠ some 0 ∧
        (c.scale.isFinite = true ∧ 0 < c.scale) ∧
        ∀ factor, c.gradientScaling = .fixed factor → factor.isFinite = true := by
  rw [validate]
  simp only [bind_eq_ok]
  constructor
  · rintro ⟨g, hgrid, _, hchannels, _, hscale, hscaling⟩
    obtain ⟨hlow, hhigh⟩ := Grid.ofBounds_eq_ok.mp hgrid
    refine ⟨?_, checkChannelLength_eq_ok.mp hchannels, checkScale_eq_ok.mp hscale,
      checkGradientScaling_eq_ok.mp hscaling⟩
    rw [← hlow, ← hhigh]
    exact g.low_lt_high
  · rintro ⟨hbounds, hchannels, hscale, hscaling⟩
    exact ⟨⟨c.quantMin, c.quantMax, hbounds⟩, Grid.ofBounds_eq_ok.mpr ⟨rfl, rfl⟩, (),
      checkChannelLength_eq_ok.mpr hchannels, (), checkScale_eq_ok.mpr hscale,
      checkGradientScaling_eq_ok.mpr hscaling⟩

end Config

/-! ### Construction -/

namespace Quantizer

variable {σ : Type} [Observer σ]

theorem ofConfig_eq_ok {c : Config} {o : σ} {q : Quantizer σ} :
    ofConfig c o = .ok q ↔
      c.validate = .ok () ∧ ∃ g channels, c.grid = .ok g ∧
        (Observer.dtype o).check g = .ok () ∧
        (Observer.scheme o).channels c.channelLength = .ok channels ∧
        q = { grid := g, observer := o
              parameters := .uniform channels c.scale c.zeroPoint
              mode := c.mode
              gradientScaling := c.gradientScaling } := by
  rw [ofConfig]
  simp only [bind_eq_ok]
  constructor
  · rintro ⟨_, hvalid, g, hgrid, _, hcheck, h⟩
    refine ⟨hvalid, g, ?_⟩
    cases hchannels : (Observer.scheme o).channels c.channelLength with
    | error fault =>
      rw [hchannels] at h
      cases h
    | ok channels =>
      rw [hchannels] at h
      cases h
      exact ⟨channels, hgrid, hcheck, rfl, rfl⟩
  · rintro ⟨hvalid, g, channels, hgrid, hcheck, hchannels, rfl⟩
    refine ⟨(), hvalid, g, hgrid, (), hcheck, ?_⟩
    rw [hchannels]
    rfl

end Quantizer

end FakeQuant
