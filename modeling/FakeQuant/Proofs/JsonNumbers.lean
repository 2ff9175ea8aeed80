import FakeQuant.Json.Form
import FakeQuant.Proofs.ScaledReading
import FakeQuant.Proofs.Spellings

/-!
# Written numbers are read back

Every finite single-precision number is written in JSON so that reading gives the number again, bit
for bit (`Json.single_chars`). The reader takes the spelling of the number as it is, up to the
character behind it (`Json.numeral_append`); its coefficient fits 64 bits, so no digit is dropped
(`Json.parts_numeral`); and scaling the coefficient leaves a double that is rounded to the number
(`Json.scaled_convert`). The two delicate numbers are read through their own digits. Integers are
read back as they are (`Json.int32_integerChars`, `Json.value_integerChars`).
-/

namespace FakeQuant.Json

/-- What a reader does behind another one. -/
theorem bind_eq_of_ok {α β : Type} {d : Decoder α} {f : α → Decoder β} {text rest : List Char}
    {a : α} (h : d text = .ok (a, rest)) : (d >>= f) text = f a rest := by
  simp only [bind, StateT.bind, Except.bind, h]

/-- What a reader does with the value of another one. -/
theorem map_eq_of_ok {α β : Type} {d : Decoder α} {f : α → β} {text rest : List Char} {a : α}
    (h : d text = .ok (a, rest)) : (f <$> d) text = .ok (f a, rest) := by
  simp only [Functor.map, StateT.map, bind, Except.bind, h]
  rfl

theorem get_bind {β : Type} (f : List Char → Decoder β) (text : List Char) :
    ((get : Decoder (List Char)) >>= f) text = f text text := rfl

theorem modify_tail_bind {β : Type} (f : Unit → Decoder β) (c : Char) (text : List Char) :
    ((modify List.tail : Decoder Unit) >>= f) (c :: text) = f () text := rfl

/-! ### Taking a spelling -/

/-- No digit in front. -/
def NoDigit (text : List Char) : Prop :=
  ∀ c ∈ text.head?, c.isDigit = false

/-- Nothing in front that could continue a number. -/
structure EndsNumber (text : List Char) : Prop where
  noDigit : NoDigit text
  no_point : text.head? ≠ some '.'
  no_mark : text.head? ≠ some 'e'
  no_upper_mark : text.head? ≠ some 'E'

/-- Some digits are taken up to the first character that is none. -/
theorem someDigits_append {ds rest : List Char} (hne : ds ≠ []) (hds : AllDigits ds)
    (hrest : NoDigit rest) : someDigits (ds ++ rest) = .ok (ds, rest) := by
  obtain ⟨d, ds, rfl⟩ := List.exists_cons_of_ne_nil hne
  have htake : takeWhile Char.isDigit (ds ++ rest) = .ok (ds, rest) := takeWhile_append
    (List.all_eq_true.2 fun c hc => hds c (List.mem_cons_of_mem _ hc)) (by
      cases rest with
      | nil => rfl
      | cons c rest => simpa using hrest c rfl)
  rw [someDigits, List.cons_append, bind_eq_of_ok (next_cons d (ds ++ rest)),
    if_pos (hds d List.mem_cons_self), bind_eq_of_ok htake]
  rfl

/-- Digits in front of a point are taken if no zero is in front of other digits. -/
theorem wholeDigits_append {ds rest : List Char} (hne : ds ≠ []) (hds : AllDigits ds)
    (hzero : ds = ['0'] ∨ ds.head? ≠ some '0') (hrest : NoDigit rest) :
    wholeDigits (ds ++ rest) = .ok (ds, rest) := by
  rw [wholeDigits, bind_eq_of_ok (someDigits_append hne hds hrest)]
  split
  · rcases hzero with h | h
    · cases h
    · exact absurd rfl h
  · rfl

/-- Without a point there are no digits behind it. -/
theorem fractionDigits_of_ne {text : List Char} (h : text.head? ≠ some '.') :
    fractionDigits text = .ok (none, text) := by
  rw [fractionDigits, get_bind]
  refine congrFun (g := (pure none : Decoder (Option (List Char)))) ?_ text
  split
  · exact absurd rfl h
  · rfl

/-- The point and the digits behind it are taken, if there are any. -/
theorem fractionDigits_append {w : Spelling} (hw : w.WellFormed) {rest : List Char}
    (hrest : NoDigit rest) (hpoint : rest.head? ≠ some '.') :
    fractionDigits ((w.fraction.elim [] fun ds => '.' :: ds) ++ rest) = .ok (w.fraction, rest) := by
  cases hfraction : w.fraction with
  | none => exact fractionDigits_of_ne hpoint
  | some ds =>
    have hne : ds ≠ [] := fun h => hw.fraction_ne_nil (by rw [hfraction, h])
    have hds : AllDigits ds := by
      have := hw.fraction_digits
      rwa [Spelling.decimals, hfraction] at this
    exact map_eq_of_ok (someDigits_append hne hds hrest)

/-- Digits in front leave no sign there. -/
private theorem head?_ne_of_digits {ds rest : List Char} {c : Char} (hne : ds ≠ [])
    (hds : AllDigits ds) (hc : c.isDigit = false) : (ds ++ rest).head? ≠ some c := by
  obtain ⟨d, ds, rfl, hd⟩ := hds.exists_cons hne
  exact fun h => ne_of_isDigit hd hc (Option.some.inj h)

/-- Without a sign an exponent is positive. -/
private theorem signedDigits_of_ne {text : List Char} (hminus : text.head? ≠ some '-')
    (hplus : text.head? ≠ some '+') :
    signedDigits text = (do return (false, ← someDigits) : Decoder (Bool × List Char)) text := by
  rw [signedDigits, get_bind]
  refine congrFun ?_ text
  split
  · exact absurd rfl hminus
  · exact absurd rfl hplus
  · rfl

/-- The sign and the digits of an exponent are taken. -/
theorem signedDigits_append (l : Layout) (z : Int) {rest : List Char} (hrest : NoDigit rest) :
    signedDigits ((l.exponentChars z).tail ++ rest)
      = .ok ((decide (z < 0), Nat.toDigits 10 z.natAbs), rest) := by
  have hne : Nat.toDigits 10 z.natAbs ≠ [] := Nat.toDigits_ne_nil
  have hds := allDigits_toDigits z.natAbs
  have hdigits := someDigits_append hne hds hrest
  have hread (negative : Bool) :
      (do return (negative, ← someDigits) : Decoder (Bool × List Char))
        (Nat.toDigits 10 z.natAbs ++ rest) = .ok ((negative, Nat.toDigits 10 z.natAbs), rest) :=
    bind_eq_of_ok hdigits
  rw [Layout.exponentChars, List.tail_cons]
  by_cases hsign : z < 0
  · rw [if_pos hsign, decide_eq_true hsign]
    exact hread true
  · rw [if_neg hsign, decide_eq_false hsign]
    split
    · exact hread false
    · rw [List.nil_append, signedDigits_of_ne (head?_ne_of_digits hne hds rfl)
        (head?_ne_of_digits hne hds rfl)]
      exact hread false

/-- Without a mark there is no exponent. -/
theorem exponentDigits_of_endsNumber {text : List Char} (h : EndsNumber text) :
    exponentDigits text = .ok (none, text) := by
  rw [exponentDigits, get_bind]
  refine congrFun (g := (pure none : Decoder (Option (Bool × List Char)))) ?_ text
  split
  · exact absurd rfl h.no_mark
  · exact absurd rfl h.no_upper_mark
  · rfl

/-- The exponent is taken, if there is one. -/
theorem exponentDigits_append (l : Layout) (exponent : Option Int) {rest : List Char}
    (hrest : EndsNumber rest) :
    exponentDigits (exponent.elim [] l.exponentChars ++ rest)
      = .ok (exponent.map fun z => (decide (z < 0), Nat.toDigits 10 z.natAbs), rest) := by
  cases exponent with
  | none => exact exponentDigits_of_endsNumber hrest
  | some z => exact map_eq_of_ok (signedDigits_append l z hrest.noDigit)

end FakeQuant.Json

namespace FakeQuant

/-- The number that a spelling is as a JSON text. -/
def Spelling.numeral (w : Spelling) (negative : Bool) : Json.Numeral where
  negative := negative
  whole := w.whole
  fraction := w.fraction
  exponent := w.exponent.map fun z => (decide (z < 0), Nat.toDigits 10 z.natAbs)

end FakeQuant

namespace FakeQuant.Json

/-- An exponent is no digit and no point. -/
private theorem head?_exponent (l : Layout) (exponent : Option Int) {rest : List Char}
    (hrest : EndsNumber rest) :
    NoDigit (exponent.elim [] l.exponentChars ++ rest) ∧
      (exponent.elim [] l.exponentChars ++ rest).head? ≠ some '.' := by
  cases exponent with
  | none => exact ⟨hrest.noDigit, hrest.no_point⟩
  | some z => exact ⟨fun c hc => by cases hc; rfl, by simp [Layout.exponentChars]⟩

/-- A number behind its sign. -/
private def unsignedNumeral (negative : Bool) : Decoder Numeral := do
  let whole ← wholeDigits
  let fraction ← fractionDigits
  let exponent ← exponentDigits
  return { negative, whole, fraction, exponent }

private theorem numeral_minus (text : List Char) :
    numeral ('-' :: text) = unsignedNumeral true text := rfl

private theorem numeral_of_ne {text : List Char} (h : text.head? ≠ some '-') :
    numeral text = unsignedNumeral false text := by
  rw [numeral, get_bind]
  refine congrFun (g := unsignedNumeral false) ?_ text
  split
  · exact absurd rfl h
  · rfl

/-- A well-formed spelling is taken as it is, up to what cannot continue a number. -/
theorem numeral_append (l : Layout) {w : Spelling} (hw : w.WellFormed) (negative : Bool)
    {rest : List Char} (hrest : EndsNumber rest) :
    numeral ((if negative then ['-'] else []) ++ w.chars l ++ rest)
      = .ok (w.numeral negative, rest) := by
  obtain ⟨hexponent, hpoint⟩ := head?_exponent l w.exponent hrest
  have hfraction : NoDigit ((w.fraction.elim [] fun ds => '.' :: ds) ++
      (w.exponent.elim [] l.exponentChars ++ rest)) := by
    cases w.fraction with
    | none => exact hexponent
    | some ds => exact fun c hc => by cases hc; rfl
  have hunsigned : unsignedNumeral negative (w.chars l ++ rest)
      = .ok (w.numeral negative, rest) := by
    rw [unsignedNumeral, Spelling.chars, List.append_assoc, List.append_assoc,
      bind_eq_of_ok (wholeDigits_append hw.whole_ne_nil hw.whole_digits hw.no_zero hfraction),
      bind_eq_of_ok (fractionDigits_append hw hexponent hpoint),
      bind_eq_of_ok (exponentDigits_append l w.exponent hrest)]
    rfl
  cases negative with
  | true => exact (numeral_minus _).trans hunsigned
  | false =>
    refine (numeral_of_ne ?_).trans hunsigned
    rw [Spelling.chars, if_neg Bool.false_ne_true, List.nil_append, List.append_assoc,
      List.append_assoc]
    exact head?_ne_of_digits hw.whole_ne_nil hw.whole_digits rfl

/-! ### The meaning of a spelling -/

/-- A coefficient that stays below the limit takes all digits. -/
theorem gather_eq {ds : List Char} {c : Nat} (h : Nat.ofDigitChars 10 ds c < coefficientLimit) :
    gather c ds = (Nat.ofDigitChars 10 ds c, 0) := by
  induction ds generalizing c with
  | nil => rfl
  | cons d ds ih =>
    rw [Nat.ofDigitChars_cons] at h ⊢
    have hle : 10 * c + (d.toNat - '0'.toNat)
        ≤ Nat.ofDigitChars 10 ds (10 * c + (d.toNat - '0'.toNat)) := by
      rw [Nat.ofDigitChars_eq_ofDigitChars_zero]
      exact (Nat.le_mul_of_pos_left _ (Nat.pow_pos (by decide))).trans (Nat.le_add_right _ _)
    rw [gather, if_pos (lt_of_le_of_lt hle h), ih h]

/-- The digits in front of a point are worth no more than all digits. -/
private theorem ofDigitChars_le_append (cs ds : List Char) :
    Nat.ofDigitChars 10 cs 0 ≤ Nat.ofDigitChars 10 (cs ++ ds) 0 := by
  rw [Nat.ofDigitChars_append, Nat.ofDigitChars_eq_ofDigitChars_zero (l := ds)]
  exact (Nat.le_mul_of_pos_left _ (Nat.pow_pos (by decide))).trans (Nat.le_add_right _ _)

section Meaning

variable {w : Spelling} (negative : Bool)

/-- The digits in front of the point all go into the coefficient. -/
private theorem gather_whole (hlimit : w.coefficient < coefficientLimit) :
    gather 0 w.whole = (digitsValue w.whole, 0) :=
  gather_eq (lt_of_le_of_lt (ofDigitChars_le_append w.whole w.decimals) hlimit)

/-- A spelling with few digits stands for its coefficient and its place. -/
theorem parts_numeral (hlimit : w.coefficient < coefficientLimit) :
    (w.numeral negative).parts = (w.coefficient, w.place) := by
  have hwhole := gather_whole hlimit
  have hall : gather (digitsValue w.whole) w.decimals = (w.coefficient, 0) := by
    have happend : Nat.ofDigitChars 10 w.decimals (digitsValue w.whole) = w.coefficient := by
      rw [Spelling.coefficient, digitsValue, digitsValue, Nat.ofDigitChars_append]
    rw [gather_eq (by rwa [happend]), happend]
  have hwhole' : gather 0 (w.numeral negative).whole = (digitsValue w.whole, 0) := hwhole
  have hfraction : (w.numeral negative).fraction.getD [] = w.decimals := rfl
  have hexponent : (w.numeral negative).exponent
      = w.exponent.map fun z => (decide (z < 0), Nat.toDigits 10 z.natAbs) := rfl
  unfold Numeral.parts
  simp only [hwhole', hfraction, hall, Spelling.place, Prod.mk.injEq, true_and, hexponent,
    Nat.cast_zero, add_zero, sub_zero]
  cases w.exponent with
  | none => rfl
  | some z =>
    simp only [Option.map_some, Nat.ofDigitChars_ten_toDigits, decide_eq_true_eq, Option.getD_some]
    split
    · rename_i h
      rw [Int.ofNat_natAbs_of_nonpos h.le, neg_neg]
    · rename_i h
      rw [Int.natAbs_of_nonneg (not_lt.1 h)]

/-- A well-formed spelling is no integer. -/
theorem isPlain_numeral (hw : w.WellFormed) : (w.numeral negative).isPlain = false := by
  have h := hw.isSome
  rw [Numeral.isPlain, Spelling.numeral]
  cases hfraction : w.fraction with
  | some ds => rfl
  | none =>
    cases hexponent : w.exponent with
    | some z => rfl
    | none => simp [hfraction, hexponent] at h

/-- A well-formed spelling stands for the double that its coefficient is scaled to. -/
theorem value_numeral (hw : w.WellFormed) (hlimit : w.coefficient < coefficientLimit) {x : Double}
    (hx : scaled w.coefficient w.place = .ok x) :
    (w.numeral negative).value = .ok (.float (if negative then -x else x)) := by
  have hdouble : (w.numeral negative).double = .ok (if negative then -x else x) := by
    rw [Numeral.double, parts_numeral negative hlimit]
    show (scaled w.coefficient w.place >>= _) = _
    rw [hx]
    rfl
  rw [Numeral.value, isPlain_numeral negative hw]
  show ((w.numeral negative).double >>= _) = _
  rw [hdouble]
  rfl

end Meaning

/-! ### Numbers -/

section Numbers

open Binary

variable {significand : Nat} {exponent : Int}

/-- The delicate numbers are read from their own digits. -/
private theorem scaled_delicate (hs : Format.single.Canonical significand exponent)
    (hdelicate : IsDelicate significand exponent) :
    ∃ n e, ∃ hd : Format.double.Canonical n e,
      scaled (Layout.json.spelling .single significand exponent).coefficient
          (Layout.json.spelling .single significand exponent).place
          = .ok (finite false n e hd) ∧
        ∀ negative, ((finite negative n e hd : Double).convert : Single)
          = finite negative significand exponent hs := by
  obtain ⟨rfl, rfl | rfl⟩ := hdelicate
  · have hconvert : ∀ negative,
        ((finite negative 6131425250115583 (-136) (by decide) : Double).convert : Single)
          = finite negative 11420669 (-107) (by decide) := by decide +kernel
    exact ⟨6131425250115583, -136, by decide, by decide +kernel, hconvert⟩
  · have hconvert : ∀ negative,
        ((finite negative 6131424814554154 (-135) (by decide) : Double).convert : Single)
          = finite negative 11420669 (-106) (by decide) := by decide +kernel
    exact ⟨6131424814554154, -135, by decide, by decide +kernel, hconvert⟩

/-- A spelled number is scaled to a double that is rounded to the number. -/
private theorem exists_scaled (hs : Format.single.Canonical significand exponent)
    (hpos : 0 < significand) :
    ∃ n e, ∃ hd : Format.double.Canonical n e,
      scaled (Layout.json.spelling .single significand exponent).coefficient
          (Layout.json.spelling .single significand exponent).place
          = .ok (finite false n e hd) ∧
        ∀ negative, ((finite negative n e hd : Double).convert : Single)
          = finite negative significand exponent hs := by
  by_cases hdelicate : IsDelicate significand exponent
  · exact scaled_delicate hs hdelicate
  · obtain ⟨-, hc, hlimit, c, k, hshortest, hvalue⟩ :=
      Layout.exists_spelled .json rfl rfl hs hpos
    exact scaled_convert hs hpos hdelicate hshortest hc (hlimit.trans (by decide)) hvalue

/-- The written form of a finite number is a sign and a well-formed spelling that stands for a
double, which is rounded to the number. -/
private theorem exists_value {x : Single} (hx : x.isFinite = true) :
    ∃ negative, ∃ w : Spelling,
      Layout.json.chars x = (if negative then ['-'] else []) ++ w.chars .json ∧ w.WellFormed ∧
        ∃ y : Double, (w.numeral negative).value = .ok (.float y) ∧ y.convert = x := by
  cases x with
  | nan => cases hx
  | infinity negative => cases hx
  | finite negative significand exponent hs =>
    rw [Layout.chars_finite]
    rcases Nat.eq_zero_or_pos significand with rfl | hpos
    · rw [if_pos rfl]
      have hexponent : exponent = Format.single.minExponent :=
        hs.2.2.2.resolve_left (by decide)
      subst hexponent
      have hconvert : ∀ negative, ((zero negative : Double).convert : Single) = zero negative := by
        decide +kernel
      refine ⟨negative, _, rfl, Layout.wellFormed_spellZero rfl, .zero negative, ?_,
        hconvert negative⟩
      cases negative <;> decide +kernel
    · rw [if_neg hpos.ne']
      obtain ⟨hwell, -, hlimit, -⟩ := Layout.exists_spelled .json rfl rfl hs hpos
      obtain ⟨n, e, hd, hscaled, hconvert⟩ := exists_scaled hs hpos
      refine ⟨negative, Layout.json.spelling .single significand exponent, rfl, hwell,
        finite negative n e hd, ?_, hconvert negative⟩
      rw [value_numeral negative hwell (hlimit.trans (by decide)) hscaled]
      cases negative <;> rfl

/-- A number does not start with a blank. -/
theorem isBlank_of_startsNumber {c : Char} (h : startsNumber c = true) : isBlank c = false := by
  by_contra hblank
  rw [Bool.not_eq_false] at hblank
  simp only [isBlank, Bool.or_eq_true, beq_iff_eq] at hblank
  obtain ((rfl | rfl) | rfl) | rfl := hblank <;> cases h

/-- A sign or a digit comes first. -/
theorem exists_head {x : Single} (hx : x.isFinite = true) :
    ∃ c cs, Layout.json.chars x = c :: cs ∧ startsNumber c = true := by
  obtain ⟨negative, w, hchars, hw, -⟩ := exists_value hx
  rw [hchars]
  cases negative with
  | true => exact ⟨'-', _, rfl, rfl⟩
  | false =>
    obtain ⟨d, ds, hds, hd⟩ := hw.whole_digits.exists_cons hw.whole_ne_nil
    refine ⟨d, _, by rw [Spelling.chars, hds]; rfl, ?_⟩
    rw [startsNumber, hd, Bool.or_true]

/-- A finite number is read back from its text, bit for bit, whatever follows that cannot continue a
number. -/
theorem single_chars {x : Single} (hx : x.isFinite = true) {rest : List Char}
    (hrest : EndsNumber rest) : single (Layout.json.chars x ++ rest) = .ok (x, rest) := by
  obtain ⟨negative, w, hchars, hw, y, hvalue, hy⟩ := exists_value hx
  have hnumber : number (Layout.json.chars x ++ rest) = .ok (.float y, rest) := by
    rw [number, hchars, bind_eq_of_ok (numeral_append .json hw negative hrest), hvalue]
    rfl
  obtain ⟨c, cs, hcs, hc⟩ := exists_head hx
  rw [hcs, List.cons_append] at hnumber ⊢
  rw [single, bind_eq_of_ok (peek_cons (isBlank_of_startsNumber hc)), if_pos hc,
    bind_eq_of_ok hnumber]
  show Except.ok (y.convert, rest) = _
  rw [hy]

end Numbers

/-! ### Integers -/

section Integers

variable {z : Int} {rest : List Char}

/-- An integer as it is written. -/
def integerNumeral (z : Int) : Numeral where
  negative := decide (z < 0)
  whole := Nat.toDigits 10 z.natAbs
  fraction := none
  exponent := none

/-- The digits of an integer are taken as they are. -/
theorem numeral_integerChars (z : Int) (hrest : EndsNumber rest) :
    numeral (integerChars z ++ rest) = .ok (integerNumeral z, rest) := by
  have hne : Nat.toDigits 10 z.natAbs ≠ [] := Nat.toDigits_ne_nil
  have hds := allDigits_toDigits z.natAbs
  have hzero : Nat.toDigits 10 z.natAbs = ['0'] ∨ (Nat.toDigits 10 z.natAbs).head? ≠ some '0' := by
    rcases Nat.eq_zero_or_pos z.natAbs with h | h
    · rw [h]
      exact .inl rfl
    · exact .inr (head?_toDigits_ne h)
  have hunsigned (negative : Bool) (hsign : decide (z < 0) = negative) :
      unsignedNumeral negative (Nat.toDigits 10 z.natAbs ++ rest)
        = .ok (integerNumeral z, rest) := by
    rw [unsignedNumeral, bind_eq_of_ok (wholeDigits_append hne hds hzero hrest.noDigit),
      bind_eq_of_ok (fractionDigits_of_ne hrest.no_point),
      bind_eq_of_ok (exponentDigits_of_endsNumber hrest), ← hsign]
    rfl
  rw [integerChars]
  split
  · next hneg => exact (numeral_minus _).trans (hunsigned true (decide_eq_true hneg))
  · next hneg =>
    exact (numeral_of_ne (head?_ne_of_digits hne hds rfl)).trans
      (hunsigned false (decide_eq_false hneg))

/-- An integer that fits 64 bits, with a minus sign or unsigned, is read as such. -/
theorem value_integerNumeral (hlow : -2 ^ 63 ≤ z) (hhigh : z < 2 ^ 64) :
    (integerNumeral z).value = .ok (.integer z) := by
  have hlimit : digitsValue (Nat.toDigits 10 z.natAbs) < coefficientLimit := by
    rw [digitsValue_toDigits, coefficientLimit, Nat.pow_eq]
    omega
  have hgather : gather 0 (integerNumeral z).whole = (z.natAbs, 0) := by
    rw [← digitsValue_toDigits z.natAbs]
    exact gather_eq hlimit
  rw [Numeral.value, hgather]
  dsimp only
  rw [if_pos ⟨rfl, rfl⟩]
  by_cases hneg : z < 0
  · have hnegative : (integerNumeral z).negative ≠ false := by simp [integerNumeral, hneg]
    have hhalf : 0 < z.natAbs ∧ z.natAbs ≤ coefficientLimit / 2 := by
      rw [coefficientLimit, Nat.pow_eq]
      omega
    rw [if_neg hnegative, if_pos hhalf, Int.ofNat_natAbs_of_nonpos hneg.le, neg_neg]
    rfl
  · have hnegative : (integerNumeral z).negative = false := by simp [integerNumeral, hneg]
    rw [if_pos hnegative, Int.natAbs_of_nonneg (not_lt.1 hneg)]
    rfl

theorem number_integerChars (hlow : -2 ^ 63 ≤ z) (hhigh : z < 2 ^ 64) (hrest : EndsNumber rest) :
    number (integerChars z ++ rest) = .ok (.integer z, rest) := by
  rw [number, bind_eq_of_ok (numeral_integerChars z hrest), value_integerNumeral hlow hhigh]
  rfl

/-- A sign or a digit comes first. -/
theorem exists_head_integerChars (z : Int) :
    ∃ c cs, integerChars z = c :: cs ∧ startsNumber c = true := by
  rw [integerChars]
  split
  · exact ⟨'-', _, rfl, rfl⟩
  · obtain ⟨d, ds, hds, hd⟩ := (allDigits_toDigits z.natAbs).exists_cons Nat.toDigits_ne_nil
    exact ⟨d, ds, hds, by rw [startsNumber, hd, Bool.or_true]⟩

/-- An integer of 32 bits is read back. -/
theorem int32_integerChars (v : Int32) (hrest : EndsNumber rest) :
    int32 (integerChars v.toInt ++ rest) = .ok (v, rest) := by
  have hle := v.le_toInt
  have hlt := v.toInt_lt
  have hnumber : number (integerChars v.toInt ++ rest) = .ok (.integer v.toInt, rest) :=
    number_integerChars (by omega) (by omega) hrest
  obtain ⟨c, cs, hcs, hc⟩ := exists_head_integerChars v.toInt
  rw [hcs, List.cons_append] at hnumber ⊢
  rw [int32, bind_eq_of_ok (peek_cons (isBlank_of_startsNumber hc)), if_pos hc,
    bind_eq_of_ok hnumber]
  have hrange : Int32.minValue.toInt ≤ v.toInt ∧ v.toInt ≤ Int32.maxValue.toInt := by
    have hmin : Int32.minValue.toInt = -2147483648 := by decide
    have hmax : Int32.maxValue.toInt = 2147483647 := by decide
    omega
  dsimp only
  rw [if_pos hrange, Int32.ofInt_toInt]
  rfl

/-- An integer that fits 64 bits is read as a value, however deep. -/
theorem value_integerChars (hlow : -2 ^ 63 ≤ z) (hhigh : z < 2 ^ 64) (hrest : EndsNumber rest)
    (depth : Nat) :
    value depth (integerChars z ++ rest) = .ok (.number (.integer z), rest) := by
  have hnumber := number_integerChars hlow hhigh hrest
  obtain ⟨c, cs, hcs, hc⟩ := exists_head_integerChars z
  rw [hcs, List.cons_append] at hnumber ⊢
  have hor (container : Char → Decoder Value) :
      valueOr container (c :: (cs ++ rest)) = .ok (.number (.integer z), rest) := by
    have hn : c ≠ 'n' := by rintro rfl; cases hc
    have ht : c ≠ 't' := by rintro rfl; cases hc
    have hf : c ≠ 'f' := by rintro rfl; cases hc
    rw [valueOr, bind_eq_of_ok (peek_cons (isBlank_of_startsNumber hc)), if_neg hn, if_neg ht,
      if_neg hf, if_pos hc, bind_eq_of_ok hnumber]
    rfl
  cases depth with
  | zero => exact hor _
  | succ depth => exact hor _

end Integers

end FakeQuant.Json
