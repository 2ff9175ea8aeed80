import FakeQuant.Decimal.Layout
import FakeQuant.Proofs.ShortestDecimals
import FakeQuant.Text.Basic
import Mathlib.Tactic.FieldSimp

/-!
# How numbers are spelled

A `Spelling` is an unsigned number as it stands in a text: digits, digits behind a point, and an
exponent. `Layout.spell` says how a layout spells a decimal, so that `Layout.chars` is a sign in
front of a spelling (`Layout.chars_finite`).

Three facts are all that a reader of numbers has to know. A spelling is well formed: there are
digits in front of the point and behind it, no zero in front of other digits, and a point or an
exponent in any case (`Layout.wellFormed_spell`). Its digits are those of the decimal with few zeros
behind them (`Layout.spells_spell`), so it is worth the decimal (`Spelling.Spells.value_eq`).
-/

namespace FakeQuant

/-! ### Digits -/

/-- Digits only. -/
def AllDigits (cs : List Char) : Prop :=
  ∀ c ∈ cs, c.isDigit = true

theorem allDigits_toDigits (n : Nat) : AllDigits (Nat.toDigits 10 n) :=
  fun _ => Nat.isDigit_of_mem_toDigits (by decide) (by decide)

theorem allDigits_replicate (n : Nat) : AllDigits (List.replicate n '0') := by
  intro c hc
  rw [List.eq_of_mem_replicate hc]
  rfl

theorem AllDigits.append {cs ds : List Char} (hc : AllDigits cs) (hd : AllDigits ds) :
    AllDigits (cs ++ ds) := fun c h => (List.mem_append.1 h).elim (hc c) (hd c)

theorem AllDigits.take {cs : List Char} (h : AllDigits cs) (n : Nat) : AllDigits (cs.take n) :=
  fun c hc => h c (List.mem_of_mem_take hc)

theorem AllDigits.drop {cs : List Char} (h : AllDigits cs) (n : Nat) : AllDigits (cs.drop n) :=
  fun c hc => h c (List.mem_of_mem_drop hc)

theorem ne_of_isDigit {c x : Char} (hc : c.isDigit = true) (hx : x.isDigit = false) : c ≠ x := by
  rintro rfl
  rw [hc] at hx
  cases hx

/-- A text of digits starts with one. -/
theorem AllDigits.exists_cons {cs : List Char} (h : AllDigits cs) (hne : cs ≠ []) :
    ∃ d ds, cs = d :: ds ∧ d.isDigit = true := by
  obtain ⟨d, ds, rfl⟩ := List.exists_cons_of_ne_nil hne
  exact ⟨d, ds, rfl, h d List.mem_cons_self⟩

private theorem digitChar_ne : ∀ n : Fin 10, 0 < n.val → [n.val.digitChar].head? ≠ some '0' := by
  decide

/-- The digits of a positive number start with no zero. -/
theorem head?_toDigits_ne {n : Nat} (hn : 0 < n) : (Nat.toDigits 10 n).head? ≠ some '0' := by
  induction n using Nat.strong_induction_on with
  | _ n ih =>
    rcases Nat.lt_or_ge n 10 with hlt | hge
    · rw [Nat.toDigits_of_lt_base hlt]
      exact digitChar_ne ⟨n, hlt⟩ hn
    · have hrest := ih (n / 10) (by omega) (by omega)
      rw [Nat.toDigits_of_base_le (by decide) hge,
        List.head?_append_of_ne_nil _ Nat.toDigits_ne_nil]
      exact hrest

/-- The value of some digits. -/
def digitsValue (cs : List Char) : Nat :=
  Nat.ofDigitChars 10 cs 0

theorem digitsValue_toDigits (n : Nat) : digitsValue (Nat.toDigits 10 n) = n :=
  Nat.ofDigitChars_ten_toDigits

/-- Zeros in front change nothing. -/
theorem digitsValue_zeros_append (n : Nat) (cs : List Char) :
    digitsValue (List.replicate n '0' ++ cs) = digitsValue cs := by
  rw [digitsValue, Nat.ofDigitChars_append, Nat.ofDigitChars_replicate_zero, Nat.mul_zero]
  rfl

/-- Zeros behind are powers of ten. -/
theorem digitsValue_append_zeros (n : Nat) (cs : List Char) :
    digitsValue (cs ++ List.replicate n '0') = digitsValue cs * 10 ^ n := by
  rw [digitsValue, Nat.ofDigitChars_append, Nat.ofDigitChars_replicate_zero, Nat.mul_comm]
  rfl

/-- A natural number is written by its digits. -/
theorem integerChars_natCast (n : Nat) : integerChars n = Nat.toDigits 10 n := by
  rw [integerChars, if_neg (by omega), Int.natAbs_natCast]

/-- A decimal digit has the value that it has in base ten. -/
private theorem digitIn?_ten {c : Char} (hc : c.isDigit = true) :
    digitIn? 10 c = some (c.toNat - '0'.toNat) := by
  have hle : '0' ≤ c ∧ c ≤ '9' := by
    simpa [Char.isDigit, Char.le_def] using hc
  have hlt : c.toNat - '0'.toNat < 10 := by
    have : c.toNat ≤ '9'.toNat := hle.2
    have : '9'.toNat = '0'.toNat + 9 := rfl
    omega
  rw [digitIn?, hexDigit?, if_pos hle, Option.filter_some, decide_eq_true hlt, if_pos rfl]

/-- Decimal digits are read as their value. -/
theorem naturalIn?_ten {ds : List Char} (hne : ds ≠ []) (hds : AllDigits ds) :
    naturalIn? 10 ds = some (digitsValue ds) := by
  have hfold : ∀ n, ds.foldlM (fun n c => (digitIn? 10 c).map (10 * n + ·)) n
      = some (Nat.ofDigitChars 10 ds n) := by
    clear hne
    induction ds with
    | nil => exact fun n => rfl
    | cons d ds ih =>
      intro n
      rw [List.foldlM_cons, digitIn?_ten (hds d List.mem_cons_self), Nat.ofDigitChars_cons]
      exact ih (fun c hc => hds c (List.mem_cons_of_mem _ hc)) _
  rw [naturalIn?, if_neg (by simpa using hne)]
  exact hfold 0

/-! ### Spellings -/

/-- An unsigned number as it is written. -/
structure Spelling where
  /-- The digits in front of the point. -/
  whole : List Char
  /-- The digits behind the point, if there is one. -/
  fraction : Option (List Char)
  /-- The exponent, if there is one. -/
  exponent : Option Int

namespace Spelling

/-- The digits behind the point, of which there may be none. -/
def decimals (w : Spelling) : List Char :=
  w.fraction.getD []

/-- All digits as one number. -/
def coefficient (w : Spelling) : Nat :=
  digitsValue (w.whole ++ w.decimals)

/-- The exponent of ten that goes with the coefficient. -/
def place (w : Spelling) : Int :=
  w.exponent.getD 0 - w.decimals.length

/-- The text under a layout. -/
def chars (l : Layout) (w : Spelling) : List Char :=
  w.whole ++ (w.fraction.elim [] fun ds => '.' :: ds) ++ w.exponent.elim [] l.exponentChars

/-- What readers of numbers ask for. -/
structure WellFormed (w : Spelling) : Prop where
  whole_ne_nil : w.whole ≠ []
  whole_digits : AllDigits w.whole
  no_zero : w.whole = ['0'] ∨ w.whole.head? ≠ some '0'
  fraction_ne_nil : w.fraction ≠ some []
  fraction_digits : AllDigits w.decimals
  isSome : w.fraction.isSome = true ∨ w.exponent.isSome = true

end Spelling

namespace Layout

/-- The spelling of digits with the point at a place and no exponent. -/
def spellPositional (l : Layout) (digits : List Char) (point : Int) : Spelling :=
  if point ≤ 0 then ⟨['0'], some (List.replicate (-point).toNat '0' ++ digits), none⟩
  else if (digits.length : Int) ≤ point then
    ⟨digits ++ List.replicate (point.toNat - digits.length) '0',
      if l.keepsPoint then some ['0'] else none, none⟩
  else ⟨digits.take point.toNat, some (digits.drop point.toNat), none⟩

/-- The spelling of digits with an exponent. -/
def spellScientific (digits : List Char) (point : Int) : Spelling :=
  if digits.length ≤ 1 then ⟨digits, none, some (point - 1)⟩
  else ⟨digits.take 1, some (digits.drop 1), some (point - 1)⟩

/-- The spelling of a decimal. -/
def spell (l : Layout) (d : Decimal) : Spelling :=
  if l.isPositional d.point then l.spellPositional d.digits d.point
  else spellScientific d.digits d.point

/-- The spelling of zero. -/
def spellZero (l : Layout) : Spelling :=
  ⟨['0'], if l.keepsPoint then some ['0'] else none, none⟩

/-- The spelling of a positive number of a format: that of its shortest decimal. -/
def spelling (l : Layout) (f : Format) (significand : Nat) (exponent : Int) : Spelling :=
  l.spell (shortestDecimal l.tie f significand exponent)

variable (l : Layout)

/-- A layout writes the spelling of a decimal. -/
theorem decimalChars_eq (d : Decimal) : l.decimalChars d = (l.spell d).chars l := by
  rw [decimalChars, spell]
  split
  · rw [positionalChars, spellPositional]
    split
    · simp [Spelling.chars]
    · split
      · cases l.keepsPoint <;> simp [Spelling.chars]
      · simp [Spelling.chars]
  · rw [scientificChars, spellScientific]
    split <;> simp [Spelling.chars]

/-- A layout writes a finite number as a sign and a spelling. -/
theorem chars_finite {f : Format} (negative : Bool) {significand : Nat} {exponent : Int}
    (h : f.Canonical significand exponent) :
    l.chars (.finite negative significand exponent h) =
      (if negative then ['-'] else []) ++
        (if significand = 0 then l.spellZero else l.spelling f significand exponent).chars l := by
  rw [chars]
  congr 1
  split
  · cases hpoint : l.keepsPoint <;> simp [Spelling.chars, spellZero, hpoint]
  · exact l.decimalChars_eq _

end Layout

/-! ### The spelling of a decimal -/

namespace Decimal

variable (d : Decimal)

theorem length_digits_pos : 0 < d.digits.length :=
  Nat.length_toDigits_pos

theorem allDigits_digits : AllDigits d.digits :=
  allDigits_toDigits d.coefficient

theorem point_eq : d.point = d.digits.length + d.exponent := rfl

end Decimal

/-- A spelling has the digits of a decimal and zeros behind them. -/
structure Spelling.Spells (w : Spelling) (d : Decimal) (padding : Nat) : Prop where
  coefficient : w.coefficient = d.coefficient * 10 ^ padding
  place : w.place = d.exponent - padding

namespace Layout

variable {l : Layout} (d : Decimal)

/-- All digits stand in the spelling, and the exponent is counted from the last of them. -/
private theorem spells_of_digits {w : Spelling} (zeros : Nat)
    (hdigits : w.whole ++ w.decimals = List.replicate zeros '0' ++ d.digits)
    (hplace : w.place = d.exponent) : w.Spells d 0 where
  coefficient := by
    rw [Spelling.coefficient, hdigits, digitsValue_zeros_append, pow_zero, mul_one]
    exact digitsValue_toDigits d.coefficient
  place := by rw [hplace, Nat.cast_zero, sub_zero]

/-- Without an exponent a decimal has zeros behind its digits only up to the place of the point, and
one behind the point. -/
theorem spells_positional (hpoint : l.keepsPoint = true) :
    ∃ padding, (l.spellPositional d.digits d.point).Spells d padding ∧
      (padding = 0 ∨ d.digits.length + padding = d.point.toNat + 1) := by
  have hpointEq := d.point_eq
  have hlength := d.length_digits_pos
  simp only [spellPositional, hpoint, if_true]
  split
  · refine ⟨0, spells_of_digits d ((-d.point).toNat + 1) ?_ ?_, .inl rfl⟩
    · rw [List.replicate_succ]
      rfl
    · simp only [Spelling.place, Spelling.decimals, Option.getD_none, Option.getD_some,
        List.length_append, List.length_replicate]
      omega
  · split
    · refine ⟨d.point.toNat - d.digits.length + 1, ⟨?_, ?_⟩, .inr (by omega)⟩
      · rw [Spelling.coefficient, Spelling.decimals, Option.getD_some,
          List.append_assoc, show ['0'] = List.replicate 1 '0' from rfl,
          List.replicate_append_replicate, digitsValue_append_zeros]
        exact congrArg (· * _) (digitsValue_toDigits d.coefficient)
      · simp only [Spelling.place, Spelling.decimals, Option.getD_none,
          Option.getD_some, List.length_singleton]
        omega
    · refine ⟨0, spells_of_digits d 0 ?_ ?_, .inl rfl⟩
      · exact List.take_append_drop _ _
      · simp only [Spelling.place, Spelling.decimals, Option.getD_none, Option.getD_some,
          List.length_drop]
        omega

/-- With an exponent a decimal has its own digits. -/
theorem spells_scientific : (spellScientific d.digits d.point).Spells d 0 := by
  have hpointEq := d.point_eq
  have hlength := d.length_digits_pos
  rw [spellScientific]
  split
  · refine spells_of_digits d 0 ?_ ?_
    · exact List.append_nil _
    · simp only [Spelling.place, Spelling.decimals, Option.getD_none, Option.getD_some,
        List.length_nil]
      omega
  · refine spells_of_digits d 0 ?_ ?_
    · exact List.take_append_drop _ _
    · simp only [Spelling.place, Spelling.decimals, Option.getD_some, List.length_drop]
      omega

/-- A layout spells a decimal by its digits and few zeros. -/
theorem spells_spell (hpoint : l.keepsPoint = true) :
    ∃ padding, (l.spell d).Spells d padding ∧
      (padding = 0 ∨
        l.isPositional d.point = true ∧ d.digits.length + padding = d.point.toNat + 1) := by
  rw [spell]
  split
  · rename_i hpositional
    obtain ⟨padding, hspells, hpadding⟩ := spells_positional d hpoint
    exact ⟨padding, hspells, hpadding.imp_right fun h => ⟨hpositional, h⟩⟩
  · exact ⟨0, spells_scientific d, .inl rfl⟩

/-- The digits in front of a point behind some of them start with no zero. -/
private theorem head?_take_ne {n : Nat} (hn : 0 < n) (hd : 0 < d.coefficient) :
    (d.digits.take n).head? ≠ some '0' := by
  obtain ⟨n, rfl⟩ : ∃ m, n = m + 1 := ⟨n - 1, by omega⟩
  have hhead := head?_toDigits_ne hd
  rw [← Decimal.digits] at hhead
  cases hdigits : d.digits with
  | nil => simp
  | cons c cs =>
    rw [hdigits] at hhead
    exact hhead

theorem wellFormed_positional (hpoint : l.keepsPoint = true) (hd : 0 < d.coefficient) :
    (l.spellPositional d.digits d.point).WellFormed := by
  have hlength := d.length_digits_pos
  have hdigits := d.allDigits_digits
  have hne : d.digits ≠ [] := List.ne_nil_of_length_pos hlength
  have hhead : d.digits.head? ≠ some '0' := head?_toDigits_ne hd
  simp only [spellPositional, hpoint, if_true]
  split
  · exact {
      whole_ne_nil := List.cons_ne_nil _ _
      whole_digits := by simp [AllDigits]
      no_zero := .inl rfl
      fraction_ne_nil := by simp [hne]
      fraction_digits := (allDigits_replicate _).append hdigits
      isSome := .inl rfl }
  · split
    · exact {
        whole_ne_nil := List.append_ne_nil_of_left_ne_nil hne _
        whole_digits := hdigits.append (allDigits_replicate _)
        no_zero := .inr (by rwa [List.head?_append_of_ne_nil _ hne])
        fraction_ne_nil := by simp
        fraction_digits := allDigits_replicate 1
        isSome := .inl rfl }
    · exact {
        whole_ne_nil := List.ne_nil_of_length_pos (by rw [List.length_take]; omega)
        whole_digits := hdigits.take _
        no_zero := .inr (head?_take_ne d (by omega) hd)
        fraction_ne_nil := by
          rw [ne_eq, Option.some.injEq]
          exact List.ne_nil_of_length_pos (by rw [List.length_drop]; omega)
        fraction_digits := hdigits.drop _
        isSome := .inl rfl }

theorem wellFormed_scientific (hd : 0 < d.coefficient) :
    (spellScientific d.digits d.point).WellFormed := by
  have hlength := d.length_digits_pos
  have hdigits := d.allDigits_digits
  rw [spellScientific]
  split
  · exact {
      whole_ne_nil := List.ne_nil_of_length_pos hlength
      whole_digits := hdigits
      no_zero := .inr (head?_toDigits_ne hd)
      fraction_ne_nil := by simp
      fraction_digits := by simp [AllDigits, Spelling.decimals]
      isSome := .inr rfl }
  · exact {
      whole_ne_nil := List.ne_nil_of_length_pos (by rw [List.length_take]; omega)
      whole_digits := hdigits.take _
      no_zero := .inr (head?_take_ne d Nat.one_pos hd)
      fraction_ne_nil := by
        rw [ne_eq, Option.some.injEq]
        exact List.ne_nil_of_length_pos (by rw [List.length_drop]; omega)
      fraction_digits := hdigits.drop _
      isSome := .inl rfl }

/-- The spelling of a positive decimal is well formed. -/
theorem wellFormed_spell (hpoint : l.keepsPoint = true) (hd : 0 < d.coefficient) :
    (l.spell d).WellFormed := by
  rw [spell]
  split
  · exact wellFormed_positional d hpoint hd
  · exact wellFormed_scientific d hd

/-- The spelling of zero is well formed. -/
theorem wellFormed_spellZero (hpoint : l.keepsPoint = true) : l.spellZero.WellFormed := by
  rw [spellZero, hpoint, if_pos rfl]
  exact {
    whole_ne_nil := List.cons_ne_nil _ _
    whole_digits := allDigits_replicate 1
    no_zero := .inl rfl
    fraction_ne_nil := by simp
    fraction_digits := allDigits_replicate 1
    isSome := .inl rfl }

end Layout

/-! ### Values of spellings -/

namespace Spelling.Spells

variable {w : Spelling} {d : Decimal} {padding : Nat}

/-- A spelling is worth its decimal. -/
theorem value_eq (h : w.Spells d padding) :
    (w.coefficient : Rat) * (10 : Rat) ^ w.place = d.value := by
  rw [h.coefficient, h.place, Decimal.value, zpow_sub₀ (by norm_num), zpow_natCast]
  push_cast
  field_simp

/-- The coefficient of a spelling has the digits of the decimal and those of the padding. -/
theorem coefficient_lt (h : w.Spells d padding) {n : Nat} (hn : d.digits.length + padding ≤ n) :
    w.coefficient < 10 ^ n := by
  have hlt : d.coefficient < 10 ^ d.digits.length :=
    (Nat.length_toDigits_le_iff (by decide) d.length_digits_pos).1 le_rfl
  calc w.coefficient = d.coefficient * 10 ^ padding := h.coefficient
    _ < 10 ^ d.digits.length * 10 ^ padding :=
      Nat.mul_lt_mul_of_pos_right hlt (Nat.pow_pos (by decide))
    _ = 10 ^ (d.digits.length + padding) := (pow_add _ _ _).symm
    _ ≤ 10 ^ n := Nat.pow_le_pow_right (by decide) hn

end Spelling.Spells

namespace Layout

variable {significand : Nat} {exponent : Int}

/-- The spelling of a positive single-precision number has at most fourteen digits and is worth a
decimal that was found on a grid, if the layout uses an exponent from ten to the thirteenth on. -/
theorem exists_spelled (l : Layout) (hpoint : l.keepsPoint = true) {least : Int}
    (hpositional : l.positional = some (least, 13))
    (hs : Format.single.Canonical significand exponent) (hpos : 0 < significand) :
    (l.spelling .single significand exponent).WellFormed ∧
      0 < (l.spelling .single significand exponent).coefficient ∧
      (l.spelling .single significand exponent).coefficient < 10 ^ 14 ∧
      ∃ c k, IsShortest significand exponent c k ∧
        (l.spelling .single significand exponent).coefficient
          * (10 : Rat) ^ (l.spelling .single significand exponent).place = c * (10 : Rat) ^ k := by
  obtain ⟨c, k, hshortest, hvalue, hd, hle⟩ := exists_isShortest l.tie hs hpos
  obtain ⟨padding, hspells, hpadding⟩ :=
    spells_spell (shortestDecimal l.tie .single significand exponent) hpoint
  refine ⟨wellFormed_spell _ hpoint hd, ?_, ?_, c, k, hshortest, hspells.value_eq.trans hvalue⟩
  · rw [spelling, hspells.coefficient]
    exact Nat.mul_pos hd (Nat.pow_pos (by decide))
  · rcases hpadding with rfl | ⟨hpositional', hlength⟩
    · rw [spelling, hspells.coefficient, pow_zero, mul_one]
      exact lt_of_le_of_lt (hle.trans hshortest.le) (by decide)
    · simp only [isPositional, hpositional, Bool.and_eq_true, decide_eq_true_eq] at hpositional'
      exact hspells.coefficient_lt (by omega)

end Layout

end FakeQuant
