import FakeQuant.Proofs.Rounding

/-!
# What the search for the shortest decimal finds

The search stops at the coarsest grid of decimals with a point in the rounding interval. For a
single-precision number that is at most eight places below its first digit, since there the step of
the grid is smaller than the interval to either side of the number (`exists_nearestCoefficient?`).

The point it stops at is in the interval, and it is the nearer one where both neighbours of the
number are. `IsPicked` says so, and two bounds follow that matter for reading the decimal back:
while the step of the grid is not much larger than the margin of the interval on one side, the point
keeps a tenth of that margin away from the end there.
-/

namespace FakeQuant

open RoundingInterval

/-! ### One grid -/

/-- A point of the grid with step `unit` that lies in the interval, and is no farther from `q` than
the neighbour of `q` on its other side, or that neighbour is outside the interval. -/
structure IsPicked (i : RoundingInterval) (q unit : Rat) (coefficient : Nat) : Prop where
  contains : i.contains (coefficient * unit) = true
  of_le : coefficient * unit ≤ q →
    2 * (q - coefficient * unit) ≤ unit ∨
      (q < (coefficient + 1) * unit ∧ i.contains ((coefficient + 1) * unit) = false)
  of_gt : q < coefficient * unit →
    2 * (coefficient * unit - q) ≤ unit ∨
      ((coefficient - 1) * unit ≤ q ∧ i.contains ((coefficient - 1) * unit) = false)
  lt_add : coefficient * unit ≤ q + unit

section Grid

variable {tie : Tie} {i : RoundingInterval} {q : Rat} {k : Int}

/-- The neighbour below is a natural multiple of the step. -/
private theorem cast_floor_toNat (hq : 0 < q) :
    (((q / (10 : Rat) ^ k).floor.toNat : Nat) : Rat) * (10 : Rat) ^ k ≤ q ∧
      q < (((q / (10 : Rat) ^ k).floor.toNat : Nat) + 1 : Rat) * (10 : Rat) ^ k := by
  have hunit : (0 : Rat) < (10 : Rat) ^ k := by positivity
  have hfloor : 0 ≤ (q / (10 : Rat) ^ k).floor := Int.floor_nonneg.2 (div_pos hq hunit).le
  have hcast : (((q / (10 : Rat) ^ k).floor.toNat : Nat) : Rat) = (q / (10 : Rat) ^ k).floor := by
    rw [← Int.cast_natCast, Int.toNat_of_nonneg hfloor]
  rw [hcast]
  exact ⟨(le_div_iff₀ hunit).1 (Int.floor_le _), (div_lt_iff₀ hunit).1 (Int.lt_floor_add_one _)⟩

/-- The choice between two neighbours in the interval is the nearer one. -/
private theorem nearer_of_choice {rest : Rat} {below coefficient : Nat}
    (h : (if 2 * rest < 1 then some below
      else if 1 < 2 * rest then some (below + 1)
      else match tie with
        | .up => some (below + 1)
        | .toEven => if below % 2 = 0 then some below else some (below + 1)) = some coefficient) :
    (coefficient = below ∧ 2 * rest ≤ 1) ∨ (coefficient = below + 1 ∧ 1 ≤ 2 * rest) := by
  split at h
  · rename_i hlt
    exact .inl ⟨(Option.some.inj h).symm, hlt.le⟩
  · rename_i hge
    split at h
    · rename_i hgt
      exact .inr ⟨(Option.some.inj h).symm, hgt.le⟩
    · rename_i hle
      -- exactly in the middle either one will do
      cases tie with
      | up => exact .inr ⟨(Option.some.inj h).symm, not_lt.1 hge⟩
      | toEven =>
        dsimp only at h
        split at h
        · exact .inl ⟨(Option.some.inj h).symm, not_lt.1 hle⟩
        · exact .inr ⟨(Option.some.inj h).symm, not_lt.1 hge⟩

/-- What is found on a grid is one of the two neighbours of the number. The other one is not nearer,
or it is outside the interval. -/
private theorem nearestCoefficient?_cases {coefficient : Nat}
    (h : nearestCoefficient? tie i q k = some coefficient) :
    ∃ below : Nat, below = (q / (10 : Rat) ^ k).floor.toNat ∧
      ((coefficient = below ∧ i.contains (below * (10 : Rat) ^ k) = true ∧
          (2 * (q - below * (10 : Rat) ^ k) ≤ (10 : Rat) ^ k ∨
            i.contains ((below + 1) * (10 : Rat) ^ k) = false)) ∨
        (coefficient = below + 1 ∧ i.contains ((below + 1) * (10 : Rat) ^ k) = true ∧
          (2 * ((below + 1) * (10 : Rat) ^ k - q) ≤ (10 : Rat) ^ k ∨
            i.contains (below * (10 : Rat) ^ k) = false))) := by
  refine ⟨_, rfl, ?_⟩
  unfold nearestCoefficient? at h
  dsimp only at h
  generalize (q / (10 : Rat) ^ k).floor.toNat = below at *
  rw [Nat.cast_succ] at h
  have hunit : (0 : Rat) < (10 : Rat) ^ k := by positivity
  have hrest : 2 * (q - below * (10 : Rat) ^ k)
      = 2 * (q / (10 : Rat) ^ k - below) * (10 : Rat) ^ k := by
    rw [mul_assoc, sub_mul, div_mul_cancel₀ _ hunit.ne']
  by_cases hbelow : i.contains (below * (10 : Rat) ^ k) = true
  · rw [if_pos hbelow] at h
    by_cases habove : i.contains ((below + 1) * (10 : Rat) ^ k) = true
    · rw [if_pos habove] at h
      rcases nearer_of_choice h with ⟨rfl, hle⟩ | ⟨rfl, hge⟩
      · refine .inl ⟨rfl, hbelow, .inl ?_⟩
        rw [hrest]
        exact mul_le_of_le_one_left hunit.le hle
      · refine .inr ⟨rfl, habove, .inl ?_⟩
        have := le_mul_of_one_le_left hunit.le hge
        linarith
    · rw [if_neg habove] at h
      exact .inl ⟨(Option.some.inj h).symm, hbelow, .inr (Bool.not_eq_true _ ▸ habove)⟩
  · rw [if_neg hbelow] at h
    split at h
    · rename_i habove
      exact .inr ⟨(Option.some.inj h).symm, habove, .inr (Bool.not_eq_true _ ▸ hbelow)⟩
    · cases h

/-- What is found on a grid is picked among the two neighbours. -/
theorem isPicked_of_nearestCoefficient? (hq : 0 < q) {coefficient : Nat}
    (h : nearestCoefficient? tie i q k = some coefficient) :
    IsPicked i q ((10 : Rat) ^ k) coefficient := by
  obtain ⟨hbelow, habove⟩ := cast_floor_toNat (k := k) hq
  obtain ⟨below, hdef, hcases⟩ := nearestCoefficient?_cases h
  rw [← hdef] at hbelow habove
  rcases hcases with ⟨rfl, hin, hnear⟩ | ⟨rfl, hin, hnear⟩
  · exact {
      contains := hin
      of_le := fun _ => hnear.imp_right fun hout => ⟨habove, hout⟩
      of_gt := fun hgt => absurd hbelow (not_le.2 hgt)
      lt_add := by linarith [show (0 : Rat) < (10 : Rat) ^ k by positivity] }
  · rw [← Nat.cast_succ] at habove hin hnear
    have hpred : ((below + 1 : Nat) : Rat) - 1 = below := by push_cast; ring
    exact {
      contains := hin
      of_le := fun hle => absurd hle (not_le.2 habove)
      of_gt := fun _ => hnear.imp_right fun hout => by rw [hpred]; exact ⟨hbelow, hout⟩
      lt_add := by rw [← hpred] at hbelow; linarith }

/-- A grid whose step is no larger than the margin below has a point in the interval. -/
theorem exists_nearestCoefficient? (hq : 0 < q) (hlower : i.lower + (10 : Rat) ^ k ≤ q)
    (hupper : q < i.upper) : ∃ coefficient, nearestCoefficient? tie i q k = some coefficient := by
  obtain ⟨hbelow, habove⟩ := cast_floor_toNat (k := k) hq
  have hin : i.contains ((q / (10 : Rat) ^ k).floor.toNat * (10 : Rat) ^ k) = true :=
    contains_of_lt (by linarith) (by linarith)
  unfold nearestCoefficient?
  dsimp only
  rw [if_pos hin]
  split
  · split
    · exact ⟨_, rfl⟩
    · split
      · exact ⟨_, rfl⟩
      · cases tie with
        | up => exact ⟨_, rfl⟩
        | toEven =>
          dsimp only
          split <;> exact ⟨_, rfl⟩
  · exact ⟨_, rfl⟩

end Grid

namespace IsPicked

variable {f : Format} {significand coefficient : Nat} {exponent : Int} {unit : Rat}

/-- The picked point is away from the lower end, unless the step is large against the margin. -/
theorem tenth_le_sub_lower
    (h : IsPicked (around f significand exponent) (significand * (2 : Rat) ^ exponent) unit
      coefficient)
    (hstep : 5 * unit ≤ 7 * marginBelow f significand exponent) :
    marginBelow f significand exponent / 10
      ≤ coefficient * unit - (around f significand exponent).lower := by
  have hmargin := marginBelow_pos f significand exponent
  have hle := marginBelow_le f significand exponent
  rw [around_lower]
  by_cases hside : coefficient * unit ≤ significand * (2 : Rat) ^ exponent
  · rcases h.of_le hside with hnear | ⟨habove, hout⟩
    · linarith
    · have hend := upper_le_of_not_contains (by rw [around_lower]; linarith) hout
      rw [around_upper] at hend
      linarith
  · linarith

/-- The picked point is away from the upper end, unless the step is large against the margin. -/
theorem tenth_le_upper_sub
    (h : IsPicked (around f significand exponent) (significand * (2 : Rat) ^ exponent) unit
      coefficient)
    (hstep : 5 * unit ≤ 7 * ((2 : Rat) ^ exponent / 2)) :
    (2 : Rat) ^ exponent / 2 / 10
      ≤ (around f significand exponent).upper - coefficient * unit := by
  have hunit : (0 : Rat) < (2 : Rat) ^ exponent := by positivity
  have hmargin := le_marginBelow f significand exponent
  rw [around_upper]
  by_cases hside : coefficient * unit ≤ significand * (2 : Rat) ^ exponent
  · linarith
  · rcases h.of_gt (not_le.1 hside) with hnear | ⟨hbelow, hout⟩
    · linarith
    · have hend := le_lower_of_not_contains (by rw [around_upper]; linarith) hout
      rw [around_lower] at hend
      linarith

end IsPicked

/-! ### The search -/

/-- The search stops at the latest where a grid is known to have a point in the interval. -/
theorem searchDecimal_spec (tie : Tie) (i : RoundingInterval) (q : Rat) {target : Int}
    (htarget : ∃ coefficient, nearestCoefficient? tie i q target = some coefficient)
    (steps : Nat) (k : Int) (hle : target ≤ k) (hlt : k < target + steps) :
    ∃ coefficient place, searchDecimal tie i q steps k = ⟨coefficient, place⟩ ∧
      target ≤ place ∧ place ≤ k ∧ nearestCoefficient? tie i q place = some coefficient := by
  induction steps generalizing k with
  | zero => omega
  | succ steps ih =>
    rw [searchDecimal]
    cases hfound : nearestCoefficient? tie i q k with
    | some coefficient => exact ⟨coefficient, k, rfl, hle, le_rfl, hfound⟩
    | none =>
      have hne : k ≠ target := by
        rintro rfl
        obtain ⟨coefficient, hsome⟩ := htarget
        rw [hfound] at hsome
        cases hsome
      obtain ⟨coefficient, place, hsearch, h1, h2, hplace⟩ := ih (k - 1) (by omega) (by omega)
      exact ⟨coefficient, place, hsearch, h1, by omega, hplace⟩

namespace Decimal

theorem value_mk (coefficient : Nat) (k : Int) :
    (Decimal.mk coefficient k).value = coefficient * (10 : Rat) ^ k := rfl

/-- Dropping zeros keeps the number. -/
theorem value_dropZeros (steps : Nat) (d : Decimal) : (dropZeros steps d).value = d.value := by
  induction steps generalizing d with
  | zero => rfl
  | succ steps ih =>
    rw [dropZeros]
    split
    · rename_i hmod
      have hdiv : d.coefficient = d.coefficient / 10 * 10 := by omega
      rw [ih, value, value, zpow_add_one₀ (by norm_num)]
      conv_rhs => rw [hdiv]
      push_cast
      ring
    · rfl

/-- Dropping zeros keeps a coefficient positive and does not enlarge it. -/
theorem coefficient_dropZeros (steps : Nat) (d : Decimal) (hpos : 0 < d.coefficient) :
    0 < (dropZeros steps d).coefficient ∧ (dropZeros steps d).coefficient ≤ d.coefficient := by
  induction steps generalizing d with
  | zero => exact ⟨hpos, le_rfl⟩
  | succ steps ih =>
    rw [dropZeros]
    split
    · rename_i hmod
      obtain ⟨h1, h2⟩ := ih ⟨d.coefficient / 10, d.exponent + 1⟩ (by dsimp only; omega)
      dsimp only at h2
      exact ⟨h1, by omega⟩
    · exact ⟨hpos, le_rfl⟩

end Decimal

/-! ### The shortest decimal of a single-precision number -/

/-- What a decimal found for a single-precision number fulfils: it stands at one of nine places, and
was picked on the grid of that place. -/
structure IsShortest (significand : Nat) (exponent : Int) (coefficient : Nat) (k : Int) : Prop where
  picked : IsPicked (around .single significand exponent) (significand * (2 : Rat) ^ exponent)
    ((10 : Rat) ^ k) coefficient
  pos : 0 < coefficient
  le : coefficient ≤ 10 ^ 9
  log_le : Int.log 10 (significand * (2 : Rat) ^ exponent) ≤ k + 8
  le_log : k ≤ Int.log 10 (significand * (2 : Rat) ^ exponent)

/-- A margin is at least the number over twice the limit of the significands. -/
private theorem le_limit_mul_marginBelow {f : Format} {significand : Nat} {exponent : Int}
    (h : f.Canonical significand exponent) :
    significand * (2 : Rat) ^ exponent ≤ 2 * f.limit * marginBelow f significand exponent := by
  have hunit : (0 : Rat) < (2 : Rat) ^ exponent := by positivity
  rw [marginBelow]
  split
  · rename_i hstart
    rw [hstart.1, f.limit_eq]
    push_cast
    linarith
  · have hlimit : (significand : Rat) * (2 : Rat) ^ exponent ≤ f.limit * (2 : Rat) ^ exponent :=
      mul_le_mul_of_nonneg_right (by exact_mod_cast h.1.le) hunit.le
    linarith

/-- Eight places below its first digit, the grid of a number is finer than the margin below it. -/
private theorem ten_pow_le_marginBelow {significand : Nat} {exponent L : Int}
    (h : Format.single.Canonical significand exponent)
    (hlog : (10 : Rat) ^ L ≤ significand * (2 : Rat) ^ exponent) :
    (10 : Rat) ^ (L - 8) ≤ marginBelow .single significand exponent := by
  have hmargin := le_limit_mul_marginBelow h
  have hlimit : (Format.single.limit : Rat) = 2 ^ 24 := by norm_num [Format.limit, Format.single]
  have hpos : (0 : Rat) < (10 : Rat) ^ (L - 8) := by positivity
  have hsplit : (10 : Rat) ^ L = (10 : Rat) ^ (L - 8) * 10 ^ 8 := by
    rw [← zpow_natCast, ← zpow_add₀ (by norm_num)]
    congr 1
    push_cast
    ring
  rw [hlimit] at hmargin
  rw [hsplit] at hlog
  linarith

namespace IsPicked

/-- A coefficient that is picked for a positive number is positive. -/
private theorem coefficient_pos {f : Format} {significand coefficient : Nat} {exponent : Int}
    {q unit : Rat} (h : IsPicked (around f significand exponent) q unit coefficient)
    (hpos : 0 < significand) : 0 < coefficient := by
  by_contra hzero
  have hin := (contains_iff.1 h.contains).1
  rw [Nat.eq_zero_of_not_pos hzero, around_lower] at hin
  have hmargin := marginBelow_le f significand exponent
  have hunit : (0 : Rat) < (2 : Rat) ^ exponent := by positivity
  have hone : (2 : Rat) ^ exponent ≤ significand * (2 : Rat) ^ exponent :=
    le_mul_of_one_le_left hunit.le (by exact_mod_cast hpos)
  push_cast at hin
  linarith

/-- A coefficient at the ninth place has nine digits, or it is the next power of ten. -/
private theorem coefficient_le {i : RoundingInterval} {q : Rat} {k : Int} {coefficient : Nat}
    (h : IsPicked i q ((10 : Rat) ^ k) coefficient) (hq : q < (10 : Rat) ^ (k + 9)) :
    coefficient ≤ 10 ^ 9 := by
  have hten : (0 : Rat) < (10 : Rat) ^ k := by positivity
  have hsplit : (10 : Rat) ^ (k + 9) = (10 : Rat) ^ k * 10 ^ 9 := by
    rw [zpow_add₀ (by norm_num)]
    rfl
  have hlt : (coefficient : Rat) * (10 : Rat) ^ k < (10 ^ 9 + 1) * (10 : Rat) ^ k := by
    linarith [h.lt_add]
  have hlt' : (coefficient : Rat) < 10 ^ 9 + 1 := lt_of_mul_lt_mul_right hlt hten.le
  have : coefficient < 10 ^ 9 + 1 := by exact_mod_cast hlt'
  omega

end IsPicked

/-- The decimal that the search finds is worth a picked point of a grid. -/
theorem exists_isShortest (tie : Tie) {significand : Nat} {exponent : Int}
    (h : Format.single.Canonical significand exponent) (hpos : 0 < significand) :
    ∃ coefficient k, IsShortest significand exponent coefficient k ∧
      (shortestDecimal tie .single significand exponent).value = coefficient * (10 : Rat) ^ k ∧
      0 < (shortestDecimal tie .single significand exponent).coefficient ∧
      (shortestDecimal tie .single significand exponent).coefficient ≤ coefficient := by
  have hs : (0 : Rat) < significand := by exact_mod_cast hpos
  have hunit : (0 : Rat) < (2 : Rat) ^ exponent := by positivity
  have hq : 0 < significand * (2 : Rat) ^ exponent := by positivity
  unfold shortestDecimal
  dsimp only
  rw [floorLog10_eq hq]
  generalize hL : Int.log 10 (significand * (2 : Rat) ^ exponent) = L
  have hlog : (10 : Rat) ^ L ≤ significand * (2 : Rat) ^ exponent := by
    exact_mod_cast (Int.zpow_le_iff_le_log (b := 10) (by decide) hq).2 hL.ge
  have hlog' : significand * (2 : Rat) ^ exponent < (10 : Rat) ^ (L + 1) := by
    exact_mod_cast (Int.lt_zpow_iff_log_lt (b := 10) (by decide) hq).2 (by omega)
  -- eight places below the first digit the grid is fine enough
  have hstep := ten_pow_le_marginBelow h hlog
  have hmargin := marginBelow_le .single significand exponent
  have htarget : ∃ coefficient, nearestCoefficient? tie (around .single significand exponent)
      (significand * (2 : Rat) ^ exponent) (L - 8) = some coefficient :=
    exists_nearestCoefficient? hq (by rw [around_lower]; linarith) (by rw [around_upper]; linarith)
  obtain ⟨coefficient, k, hfound, hk, hk', hnearest⟩ := searchDecimal_spec tie _ _ htarget
    Format.single.precision L (by omega) (by simp only [Format.single]; omega)
  have hpicked := isPicked_of_nearestCoefficient? hq hnearest
  have hcoefficient := hpicked.coefficient_pos hpos
  have hle : coefficient ≤ 10 ^ 9 :=
    hpicked.coefficient_le (hlog'.trans_le (zpow_le_zpow_right₀ (by norm_num) (by omega)))
  obtain ⟨hdrop, hdrop'⟩ := Decimal.coefficient_dropZeros Format.single.precision
    ⟨coefficient, k⟩ hcoefficient
  refine ⟨coefficient, k, ⟨hpicked, hcoefficient, hle, by omega, by omega⟩, ?_⟩
  rw [hfound, Decimal.value_dropZeros, Decimal.value_mk]
  exact ⟨rfl, hdrop, hdrop'⟩

end FakeQuant
