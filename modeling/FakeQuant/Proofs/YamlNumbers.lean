import FakeQuant.Config.Yaml
import FakeQuant.Proofs.ReadingBack
import FakeQuant.Proofs.Spellings

/-!
# Numbers in YAML

A number is read from a YAML scalar as the nearest double, which is then rounded to single
precision. The digits of a spelling are read as its coefficient and its place
(`Decimal.ofChars?_chars`), and the value is so far inside the range of doubles that no bound cuts
it off (`Decimal.nearest_eq_ofMagnitude`).

Every number that is written is therefore read back, except for one magnitude. The shortest decimal
of `11420669 · 2 ^ -107` lies just below the upper end of what rounds to it, its double is that end,
and the end is rounded to the even neighbour. `Yaml.reread` is what a number is read back as.

Integers are read back in any case (`Yaml.Scalar.integerOf?_integerChars`).
-/

namespace FakeQuant

namespace Decimal

/-! ### Decimals -/

/-- Digits are taken up to the first character that is none. -/
private theorem takeWhile_digits {ds rest : List Char} (hds : AllDigits ds)
    (hrest : ∀ c ∈ rest.head?, c.isDigit = false) :
    (ds ++ rest).takeWhile Char.isDigit = ds ∧ (ds ++ rest).dropWhile Char.isDigit = rest := by
  rw [List.takeWhile_append_of_pos hds, List.dropWhile_append_of_pos hds]
  cases rest with
  | nil => simp
  | cons c rest => simp [hrest c rfl]

/-- In front of a digit there is no sign. -/
theorem splitSign_digit {d : Char} (hd : d.isDigit = true) (ds : List Char) :
    splitSign (d :: ds) = (false, d :: ds) := by
  rw [splitSign]
  · exact fun rest h => ne_of_isDigit hd rfl (List.cons.inj h).1
  · exact fun rest h => ne_of_isDigit hd rfl (List.cons.inj h).1

/-- The sign of an exponent is split off. -/
private theorem splitSign_exponent (l : Layout) (z : Int) :
    splitSign (l.exponentChars z).tail = (decide (z < 0), Nat.toDigits 10 z.natAbs) := by
  rw [Layout.exponentChars, List.tail_cons]
  by_cases hsign : z < 0
  · rw [if_pos hsign, decide_eq_true hsign]
    rfl
  · rw [if_neg hsign, decide_eq_false hsign]
    split
    · rfl
    · obtain ⟨d, ds, hds, hd⟩ := (allDigits_toDigits z.natAbs).exists_cons Nat.toDigits_ne_nil
      rw [List.nil_append, hds]
      exact splitSign_digit hd ds

/-- The exponent of a spelling is read. -/
theorem exponent?_chars (l : Layout) (exponent : Option Int) :
    exponent? (exponent.elim [] l.exponentChars) = some (exponent.getD 0) := by
  cases exponent with
  | none => rfl
  | some z =>
    have hall : (Nat.toDigits 10 z.natAbs).all Char.isDigit = true :=
      List.all_eq_true.2 (allDigits_toDigits z.natAbs)
    have hmark : 'e' = 'e' ∨ 'e' = 'E' := .inl rfl
    have hchars : l.exponentChars z = 'e' :: (l.exponentChars z).tail := rfl
    rw [Option.elim_some, hchars, exponent?, splitSign_exponent]
    dsimp only
    rw [if_pos ⟨hmark, Nat.toDigits_ne_nil, hall⟩, Nat.ofDigitChars_ten_toDigits, Option.getD_some]
    simp only [decide_eq_true_eq, Option.some.injEq]
    split
    · rename_i h
      rw [Int.ofNat_natAbs_of_nonpos h.le, neg_neg]
    · rename_i h
      exact Int.natAbs_of_nonneg (not_lt.1 h)

/-- An exponent starts with no digit. -/
private theorem head?_exponent (l : Layout) (exponent : Option Int) :
    ∀ c ∈ (exponent.elim [] l.exponentChars).head?, c.isDigit = false ∧ c ≠ '.' := by
  cases exponent with
  | none => exact fun c hc => by cases hc
  | some z => exact fun c hc => by cases hc; exact ⟨rfl, by decide⟩

/-- A spelling stands for its digits and their place. -/
theorem ofUnsigned?_chars (l : Layout) {w : Spelling} (hw : w.WellFormed) :
    ofUnsigned? (w.chars l) = some ⟨w.coefficient, w.place⟩ := by
  have hend := head?_exponent l w.exponent
  have hexponent := exponent?_chars l w.exponent
  rw [Spelling.chars, List.append_assoc, ofUnsigned?]
  generalize w.exponent.elim [] l.exponentChars = behind at *
  have hfraction : ∀ c ∈ ((w.fraction.elim [] fun ds => '.' :: ds) ++ behind).head?,
      c.isDigit = false := by
    cases w.fraction with
    | none => exact fun c hc => (hend c hc).1
    | some ds => exact fun c hc => by cases hc; rfl
  obtain ⟨htake, hdrop⟩ := takeWhile_digits hw.whole_digits hfraction
  obtain ⟨htake', hdrop'⟩ := takeWhile_digits hw.fraction_digits fun c hc => (hend c hc).1
  dsimp only
  rw [htake, hdrop]
  have hdecimals : w.decimals = w.fraction.getD [] := rfl
  cases hfr : w.fraction with
  | none =>
    rw [hfr] at hdecimals
    rw [Option.elim_none, List.nil_append]
    split
    · exact absurd rfl (hend '.' rfl).2
    · rw [if_neg (fun h => hw.whole_ne_nil h.1), hexponent, Option.map_some, Spelling.place,
        Spelling.coefficient, hdecimals]
      rfl
  | some ds =>
    rw [hfr] at hdecimals
    rw [hdecimals, Option.getD_some] at htake' hdrop'
    show (if w.whole = [] ∧ (ds ++ behind).takeWhile Char.isDigit = [] then none
      else (exponent? ((ds ++ behind).dropWhile Char.isDigit)).map
        (ofDigits w.whole ((ds ++ behind).takeWhile Char.isDigit))) = _
    rw [htake', hdrop', if_neg (fun h => hw.whole_ne_nil h.1), hexponent, Option.map_some,
      Spelling.place, Spelling.coefficient, hdecimals]
    rfl

/-- A sign and a spelling stand for the sign, the digits and their place. -/
theorem ofChars?_chars (l : Layout) {w : Spelling} (hw : w.WellFormed) (negative : Bool) :
    ofChars? ((if negative then ['-'] else []) ++ w.chars l)
      = some (negative, ⟨w.coefficient, w.place⟩) := by
  have hsplit : splitSign ((if negative then ['-'] else []) ++ w.chars l)
      = (negative, w.chars l) := by
    cases negative with
    | true => rfl
    | false =>
      obtain ⟨d, ds, hds, hd⟩ := hw.whole_digits.exists_cons hw.whole_ne_nil
      rw [if_neg Bool.false_ne_true, List.nil_append, Spelling.chars, hds]
      exact splitSign_digit hd _
  rw [ofChars?, hsplit]
  dsimp only
  rw [ofUnsigned?_chars l hw]
  rfl

/-- The point of a positive decimal says between which powers of ten it lies. -/
theorem zpow_point {d : Decimal} (hd : 0 < d.coefficient) :
    (10 : Rat) ^ (d.point - 1) ≤ d.value ∧ d.value < (10 : Rat) ^ d.point := by
  have hlength := d.length_digits_pos
  have hunit : (0 : Rat) < (10 : Rat) ^ d.exponent := by positivity
  have hlt : d.coefficient < 10 ^ d.digits.length :=
    (Nat.length_toDigits_le_iff (by decide) hlength).1 le_rfl
  have hle : 10 ^ (d.digits.length - 1) ≤ d.coefficient := by
    rcases Nat.eq_zero_or_pos (d.digits.length - 1) with hzero | hpos
    · rw [hzero]
      exact hd
    · by_contra hlt'
      have := (Nat.length_toDigits_le_iff (by decide) hpos).2 (not_le.1 hlt')
      rw [← digits] at this
      omega
  have hpoint : d.point - 1 = ((d.digits.length - 1 : Nat) : Int) + d.exponent := by
    rw [d.point_eq]
    omega
  rw [hpoint, d.point_eq, value, zpow_add₀ (by norm_num), zpow_add₀ (by norm_num), zpow_natCast,
    zpow_natCast]
  exact ⟨mul_le_mul_of_nonneg_right (by exact_mod_cast hle) hunit.le,
    mul_lt_mul_of_pos_right (by exact_mod_cast hlt) hunit⟩

/-- A decimal in the middle of the range of doubles is rounded by its magnitude. -/
theorem nearest_eq_ofMagnitude {d : Decimal} (hd : 0 < d.coefficient)
    (hmin : (2 : Rat) ^ (-150 : Int) ≤ d.value) (hmax : d.value ≤ (2 : Rat) ^ (129 : Int))
    (negative : Bool) : d.nearest .double negative = Binary.ofMagnitude negative d.value := by
  obtain ⟨hle, hlt⟩ := zpow_point hd
  -- neither bound applies: a decimal beyond one of them is outside of the given range
  have hlow : ¬ d.point < Format.double.minExponent - 1 := by
    intro h
    have hpow : (10 : Rat) ^ d.point ≤ (10 : Rat) ^ (-150 : Int) :=
      zpow_le_zpow_right₀ (by norm_num) (le_trans h.le (by decide))
    have : (10 : Rat) ^ (-150 : Int) ≤ (2 : Rat) ^ (-150 : Int) := by norm_num
    linarith
  have hhigh : ¬ Format.double.maxExponent + Format.double.precision + 1 < d.point := by
    intro h
    have hpow : (10 : Rat) ^ (130 : Int) ≤ (10 : Rat) ^ (d.point - 1) :=
      zpow_le_zpow_right₀ (by norm_num) (by
        have : (132 : Int) ≤ Format.double.maxExponent + Format.double.precision + 1 := by decide
        omega)
    have : (2 : Rat) ^ (129 : Int) < (10 : Rat) ^ (130 : Int) := by norm_num
    linarith
  rw [nearest, if_neg hd.ne', if_neg hhigh, if_neg hlow]
  exact Binary.ofRat_signed negative negative (lt_of_lt_of_le (by positivity) hmin)

end Decimal

namespace Yaml

open Binary

/-! ### Single precision -/

/-- What a number is read back as: itself, but for one magnitude, which goes to its neighbour. -/
def reread : Single → Single
  | .nan => .nan
  | .infinity negative => .infinity negative
  | .finite negative significand exponent h =>
    if significand = 11420669 ∧ exponent = -107 then .finite negative 11420670 (-107) (by decide)
    else .finite negative significand exponent h

/-- The numbers of the one magnitude that is not read back. -/
def Slips : Single → Prop
  | .nan | .infinity _ => False
  | .finite _ significand exponent _ => significand = 11420669 ∧ exponent = -107

theorem reread_eq_self_iff {x : Single} : reread x = x ↔ ¬ Slips x := by
  cases x with
  | nan => simp [reread, Slips]
  | infinity negative => simp [reread, Slips]
  | finite negative significand exponent h =>
    rw [reread, Slips]
    split
    · rename_i hslips
      obtain ⟨rfl, rfl⟩ := hslips
      simp
    · rename_i hkeeps
      simp [hkeeps]

/-- A text that starts with a digit behind its sign is no name: a name starts with a point behind
its sign, or with a plus. -/
theorem namedNumber?_digit (negative : Bool) {d : Char} (hd : d.isDigit = true) (ds : List Char) :
    Scalar.namedNumber? ((if negative then ['-'] else []) ++ d :: ds) = none := by
  have hpoint : d ≠ '.' := ne_of_isDigit hd rfl
  have hplus : d ≠ '+' := ne_of_isDigit hd rfl
  have hminus : d ≠ '-' := ne_of_isDigit hd rfl
  cases negative <;>
    simp [Scalar.namedNumber?, ← String.toList_inj, hpoint, hplus, hminus]

/-- The written form of a finite number is a sign and a well-formed spelling. -/
theorem exists_spelling {x : Single} (hx : x.isFinite = true) :
    ∃ negative : Bool, ∃ w : Spelling, w.WellFormed ∧
      Layout.yaml.chars x = (if negative then ['-'] else []) ++ w.chars .yaml := by
  cases x with
  | nan => cases hx
  | infinity negative => cases hx
  | finite negative significand exponent hs =>
    rw [Layout.chars_finite]
    rcases Nat.eq_zero_or_pos significand with rfl | hpos
    · exact ⟨negative, _, Layout.wellFormed_spellZero rfl, rfl⟩
    · rw [if_neg hpos.ne']
      exact ⟨negative, _, (Layout.exists_spelled .yaml rfl rfl hs hpos).1, rfl⟩

/-- The written form of a finite number is no name. -/
theorem namedNumber?_chars {x : Single} (hx : x.isFinite = true) :
    Scalar.namedNumber? (Layout.yaml.chars x) = none := by
  obtain ⟨negative, w, hw, hchars⟩ := exists_spelling hx
  obtain ⟨d, ds, hds, hd⟩ := hw.whole_digits.exists_cons hw.whole_ne_nil
  rw [hchars, Spelling.chars, hds]
  exact namedNumber?_digit negative hd _

/-- Zeros are read back. -/
private theorem writtenNumber?_zero : ∀ negative,
    (Scalar.writtenNumber? (Layout.yaml.chars (zero negative : Single))).map Binary.convert
      = some (reread (zero negative)) := by
  decide +kernel

/-- The delicate numbers are read from their own digits, one of them as its neighbour. -/
private theorem writtenNumber?_delicate : ∀ negative,
    ((Scalar.writtenNumber? (Layout.yaml.chars
        (finite negative 11420669 (-107) (by decide) : Single))).map Binary.convert
      = some (reread (finite negative 11420669 (-107) (by decide)))) ∧
    ((Scalar.writtenNumber? (Layout.yaml.chars
        (finite negative 11420669 (-106) (by decide) : Single))).map Binary.convert
      = some (reread (finite negative 11420669 (-106) (by decide)))) := by
  decide +kernel

/-- The digits of any other number are nearest to a double that is rounded to the number. -/
private theorem writtenNumber?_positive (negative : Bool) {significand : Nat} {exponent : Int}
    (hs : Format.single.Canonical significand exponent) (hpos : 0 < significand)
    (hdelicate : ¬ IsDelicate significand exponent) :
    (Scalar.writtenNumber? (Layout.yaml.chars (finite negative significand exponent hs))).map
      Binary.convert = some (finite negative significand exponent hs) := by
  obtain ⟨hwell, hcoefficient, -, c, k, hshortest, hvalue⟩ :=
    Layout.exists_spelled .yaml rfl rfl hs hpos
  obtain ⟨hmin, hmax⟩ := hshortest.range hs hpos
  have hnearest := Decimal.nearest_eq_ofMagnitude
    (d := ⟨(Layout.yaml.spelling .single significand exponent).coefficient,
      (Layout.yaml.spelling .single significand exponent).place⟩)
    hcoefficient (hmin.trans_eq hvalue.symm) (hvalue.trans_le hmax) negative
  rw [Decimal.value, hvalue] at hnearest
  have hconvert := hshortest.convert_ofMagnitude hs hpos hdelicate negative
  -- the double is no infinity, so the reader takes it
  obtain ⟨n, e, hd, hfinite, -⟩ := ofMagnitude_double_error negative
    (le_trans (zpow_le_zpow_right₀ (by norm_num) (by decide)) hmin)
    (hmax.trans (zpow_le_zpow_right₀ (by norm_num) (by decide)))
  rw [Layout.chars_finite, if_neg hpos.ne', Scalar.writtenNumber?, Decimal.ofChars?_chars _ hwell]
  simp only [Option.bind_eq_bind, Option.bind_some, hnearest]
  rw [← hconvert, hfinite]
  rfl

/-- The written form of a finite number is read as a double that is rounded to what is read back. -/
theorem writtenNumber?_chars {x : Single} (hx : x.isFinite = true) :
    (Scalar.writtenNumber? (Layout.yaml.chars x)).map Binary.convert = some (reread x) := by
  cases x with
  | nan => cases hx
  | infinity negative => cases hx
  | finite negative significand exponent hs =>
    rcases Nat.eq_zero_or_pos significand with rfl | hpos
    · have hexponent : exponent = Format.single.minExponent :=
        hs.2.2.2.resolve_left (by decide)
      subst hexponent
      exact writtenNumber?_zero negative
    by_cases hdelicate : IsDelicate significand exponent
    · obtain ⟨rfl, rfl | rfl⟩ := hdelicate
      · exact (writtenNumber?_delicate negative).1
      · exact (writtenNumber?_delicate negative).2
    · have hkeeps : reread (finite negative significand exponent hs)
          = finite negative significand exponent hs :=
        reread_eq_self_iff.2 fun h => hdelicate ⟨h.1, .inl h.2⟩
      rw [hkeeps]
      exact writtenNumber?_positive negative hs hpos hdelicate

namespace Scalar

variable {s : Scalar}

theorem canHold_of_plain (hs : s.style = .plain) (type : String) : s.canHold type = true := by
  rw [canHold, hs]
  rfl

/-- A plain scalar with the text of a number is read as what the number is read back as. -/
theorem single?_chars (hs : s.style = .plain) {x : Single} (htext : s.text = Layout.yaml.chars x) :
    s.single? = some (reread x) := by
  rw [single?, (Option.guard_eq_some' ()).2 (canHold_of_plain hs _), htext]
  cases x with
  | nan => decide +kernel
  | infinity negative => cases negative <;> decide +kernel
  | finite negative significand exponent h =>
    have hnamed := namedNumber?_chars (x := finite negative significand exponent h) rfl
    have hwritten := writtenNumber?_chars (x := finite negative significand exponent h) rfl
    rw [hnamed, ← hwritten]
    generalize writtenNumber? _ = read
    cases read <;> rfl

/-! ### Integers -/

/-- The digits of a natural number are read. No zero stands in front of them, so they are not taken
for a number of another base. -/
theorem magnitude?_toDigits (n : Nat) : magnitude? (Nat.toDigits 10 n) = some n := by
  have hread : naturalIn? 10 (Nat.toDigits 10 n) = some n := by
    rw [naturalIn?_ten Nat.toDigits_ne_nil (allDigits_toDigits n), digitsValue_toDigits]
  rcases Nat.eq_zero_or_pos n with rfl | hpos
  · rfl
  · have hhead (rest : List Char) : Nat.toDigits 10 n ≠ '0' :: rest := fun h =>
      head?_toDigits_ne hpos (by rw [h]; rfl)
    rw [magnitude?]
    · exact hread
    · exact fun digits => hhead _
    · exact fun digits => hhead _
    · exact fun digits => hhead _
    · exact fun c rest => hhead _

/-- Digits start with no sign. -/
private theorem toDigits_ne_cons (n : Nat) {c : Char} (hc : c.isDigit = false) (rest : List Char) :
    Nat.toDigits 10 n ≠ c :: rest := by
  obtain ⟨d, ds, hds, hd⟩ := (allDigits_toDigits n).exists_cons Nat.toDigits_ne_nil
  rw [hds]
  exact fun h => ne_of_isDigit hd hc (List.cons.inj h).1

/-- A written integer is read back. -/
theorem integerOf?_integerChars (z : Int) : integerOf? (integerChars z) = some z := by
  rw [integerChars]
  split
  · rename_i h
    rw [integerOf?, magnitude?_toDigits]
    show some (-(z.natAbs : Int)) = some z
    rw [Int.ofNat_natAbs_of_nonpos h.le, neg_neg]
  · rename_i h
    rw [integerOf?, magnitude?_toDigits]
    · show some (z.natAbs : Int) = some z
      rw [Int.natAbs_of_nonneg (not_lt.1 h)]
    · exact fun rest => toDigits_ne_cons _ rfl rest
    · exact fun rest => toDigits_ne_cons _ rfl rest

/-- A written natural number is read back. -/
theorem naturalOf?_integerChars (n : Nat) : naturalOf? (integerChars n) = some n := by
  rw [integerChars_natCast, naturalOf?, magnitude?_toDigits]
  exact fun rest => toDigits_ne_cons _ rfl rest

/-- A plain scalar with the text of an integer of 32 bits is read as the integer. -/
theorem int32?_integerChars (hs : s.style = .plain) {v : Int32}
    (htext : s.text = integerChars v.toInt) : s.int32? = some v := by
  have hmin : Int32.minValue.toInt ≤ v.toInt := by
    rw [Int32.toInt_minValue]
    exact v.le_toInt
  have hmax : v.toInt ≤ Int32.maxValue.toInt := by
    rw [Int32.toInt_maxValue]
    exact Int.le_sub_one_of_lt v.toInt_lt
  rw [int32?, canHold_of_plain hs, htext, integerOf?_integerChars]
  show ((guard (Int32.minValue.toInt ≤ v.toInt ∧ v.toInt ≤ Int32.maxValue.toInt) : Option Unit)
    >>= fun _ => some (Int32.ofInt v.toInt)) = some v
  rw [(Option.guard_eq_some' ()).2 ⟨hmin, hmax⟩, Int32.ofInt_toInt]
  rfl

/-- A digit is no start of a name for nothing. -/
private theorem isNullText_integerChars {n : Nat} (htext : s.text = integerChars n) :
    s.isNullText = false := by
  rw [integerChars_natCast] at htext
  have hne (name : String) (h : ∃ c rest, name.toList = c :: rest ∧ c.isDigit = false) :
      String.ofList s.text ≠ name := by
    rintro rfl
    obtain ⟨c, rest, hname, hc⟩ := h
    rw [String.toList_ofList, htext] at hname
    exact toDigits_ne_cons n hc rest hname
  rw [isNullText, List.contains_eq_mem, decide_eq_false_iff_not]
  simp only [List.mem_cons, List.not_mem_nil, or_false, not_or]
  exact ⟨hne _ ⟨'n', _, rfl, rfl⟩, hne _ ⟨'N', _, rfl, rfl⟩, hne _ ⟨'N', _, rfl, rfl⟩,
    hne _ ⟨'~', _, rfl, rfl⟩⟩

/-- A plain scalar without a tag that has the text of a size is read as the size. -/
theorem optionalSize?_integerChars (hs : s.style = .plain) (htag : s.tag = none) {n : Nat}
    (hn : n < sizeLimit) (htext : s.text = integerChars n) : s.optionalSize? = some (some n) := by
  have hsize : s.size? = some n := by
    rw [size?, canHold_of_plain hs, htext, naturalOf?_integerChars]
    show ((guard (n < sizeLimit) : Option Unit) >>= fun _ => some n) = some n
    rw [(Option.guard_eq_some' ()).2 hn]
    rfl
  have hempty : s.text.isEmpty = false := by
    rw [htext, integerChars_natCast, List.isEmpty_eq_false_iff]
    exact Nat.toDigits_ne_nil
  rw [optionalSize?, hs, htag]
  dsimp only
  rw [hempty, isNullText_integerChars htext, hsize]
  rfl

/-- A plain scalar without a tag that has the text of a size or nothing is read as that. -/
theorem optionalSize?_elim (hs : s.style = .plain) (htag : s.tag = none) {size : Option Nat}
    (hsize : ∀ n ∈ size, n < sizeLimit)
    (htext : s.text = size.elim "null".toList fun n => integerChars n) :
    s.optionalSize? = some size := by
  cases size with
  | none =>
    have hnull : s.isNullText = true := by
      rw [isNullText, htext]
      decide
    rw [optionalSize?, hs, htag]
    dsimp only
    rw [hnull, Bool.or_true, if_pos rfl]
  | some n => exact optionalSize?_integerChars hs htag (hsize n rfl) htext

end Scalar

end Yaml

end FakeQuant
