import FakeQuant.Binary.Encoding
import FakeQuant.Proofs.Construction
import FakeQuant.Proofs.YamlLines
import FakeQuant.Proofs.YamlNumbers

/-!
# Configurations are read back from YAML

Every value of a configuration is written as one plain word, so a configuration is a document of
plain lines (`Config.fieldLine_eq`, `Config.wellFormed_line`). The value of a line sets its field
(`Config.setField?_line`), and lines of different fields, in any order, set one after the other what
the defaults are replaced by (`Config.ofDocument?_lines`).

A valid configuration is therefore read back up to the numbers that are not read back
(`Config.ofYaml_yaml`), and as it is exactly when it has no such number
(`Config.yaml_restores_iff`). One scale that is lost stands in `Config.yaml_moves_scale`.
-/

namespace FakeQuant

namespace Yaml

/-! ### Words of configurations -/

theorem isWordChar_digit {c : Char} (hc : c.isDigit = true) : isWordChar c = true := by
  have hle : '0' ≤ c ∧ c ≤ '9' := by
    simpa [Char.isDigit, Char.le_def] using hc
  have hlow : '0'.toNat ≤ c.toNat := hle.1
  have hhigh : c.toNat ≤ '9'.toNat := hle.2
  have hne (x : Char) (hx : x.isDigit = false) : c ≠ x := ne_of_isDigit hc hx
  have hallowed : isAllowed c = true := by
    have : '0'.toNat = 48 := rfl
    have : '9'.toNat = 57 := rfl
    simp only [isAllowed, Bool.or_eq_true, Bool.and_eq_true, beq_iff_eq, decide_eq_true_eq]
    omega
  refine isWordChar_iff.2 ⟨hallowed, ?_, ?_, hne _ rfl, hne _ rfl⟩
  · simp [isBlank, hne]
  · simp [isBreak, hne]

/-- A digit starts a plain scalar, and so does a minus in front of one. -/
theorem startsPlain_digit (negative : Bool) {d : Char} (hd : d.isDigit = true) (ds : List Char) :
    startsPlain false ((if negative then ['-'] else []) ++ d :: ds) = true := by
  obtain ⟨-, hblank, hbreak, -⟩ := isWordChar_iff.1 (isWordChar_digit hd)
  cases negative with
  | true => simp [startsPlain, atWordEnd, hblank, hbreak]
  | false =>
    have hne (x : Char) (hx : x.isDigit = false) : d ≠ x := ne_of_isDigit hd hx
    have hindicator : isIndicator d = false := by
      simp [isIndicator, hne]
    simp [startsPlain, hblank, hbreak, hindicator, hne]

/-- A sign, a digit and characters of words are a word. -/
theorem isWord_signed (negative : Bool) {cs : List Char} (hne : cs ≠ [])
    (hhead : ∀ c ∈ cs.head?, c.isDigit = true) (hcs : ∀ c ∈ cs, isWordChar c = true) :
    IsWord ((if negative then ['-'] else []) ++ cs) := by
  obtain ⟨d, ds, rfl⟩ := List.exists_cons_of_ne_nil hne
  refine ⟨?_, startsPlain_digit negative (hhead d rfl) ds⟩
  intro c hc
  rcases List.mem_append.1 hc with hc | hc
  · cases negative with
    | true =>
      rw [List.mem_singleton.1 hc]
      rfl
    | false => cases hc
  · exact hcs c hc

theorem isWordChar_digits {ds : List Char} (h : AllDigits ds) : ∀ c ∈ ds, isWordChar c = true :=
  fun c hc => isWordChar_digit (h c hc)

theorem isWord_integerChars (z : Int) : IsWord (integerChars z) := by
  have hdigits := allDigits_toDigits z.natAbs
  obtain ⟨d, ds, hds, hd⟩ := hdigits.exists_cons Nat.toDigits_ne_nil
  have hword := isWord_signed (decide (z < 0)) (Nat.toDigits_ne_nil (b := 10) (n := z.natAbs))
    (by rw [hds]; exact fun c hc => by cases hc; exact hd) (isWordChar_digits hdigits)
  rw [integerChars]
  by_cases hz : z < 0
  · rw [if_pos hz]
    rwa [decide_eq_true hz] at hword
  · rw [if_neg hz]
    rwa [decide_eq_false hz] at hword

/-- A spelling has only characters of words. -/
theorem isWordChar_spelling {w : Spelling} (hw : w.WellFormed) :
    ∀ c ∈ w.chars .yaml, isWordChar c = true := by
  have hfraction : ∀ c ∈ (w.fraction.elim [] fun ds => '.' :: ds), isWordChar c = true := by
    have hdecimals := isWordChar_digits hw.fraction_digits
    rw [Spelling.decimals] at hdecimals
    cases hfraction : w.fraction with
    | none => exact fun c hc => by cases hc
    | some ds =>
      rw [hfraction, Option.getD_some] at hdecimals
      exact List.forall_mem_cons.2 ⟨rfl, hdecimals⟩
  have hexponent : ∀ c ∈ w.exponent.elim [] Layout.yaml.exponentChars, isWordChar c = true := by
    cases w.exponent with
    | none => exact fun c hc => by cases hc
    | some z =>
      have hdigits := isWordChar_digits (allDigits_toDigits z.natAbs)
      have hsign : ∀ c ∈ (if z < 0 then ['-'] else if Layout.yaml.signsExponent then ['+'] else []),
          isWordChar c = true := by
        split
        · exact List.forall_mem_singleton.2 rfl
        · exact fun c hc => by cases hc
      exact List.forall_mem_cons.2 ⟨rfl, List.forall_mem_append.2 ⟨hsign, hdigits⟩⟩
  exact List.forall_mem_append.2 ⟨List.forall_mem_append.2
    ⟨isWordChar_digits hw.whole_digits, hfraction⟩, hexponent⟩

/-- The written form of a number is a word. -/
theorem isWord_chars (x : Single) : IsWord (Layout.yaml.chars x) := by
  cases x with
  | nan => decide
  | infinity negative => cases negative <;> decide
  | finite negative significand exponent h =>
    obtain ⟨negative', w, hw, hchars⟩ :=
      exists_spelling (x := .finite negative significand exponent h) rfl
    obtain ⟨d, ds, hds, hd⟩ := hw.whole_digits.exists_cons hw.whole_ne_nil
    rw [hchars]
    refine isWord_signed negative' ?_ ?_ (isWordChar_spelling hw)
    · rw [Spelling.chars, hds]
      exact List.cons_ne_nil _ _
    · rw [Spelling.chars, hds]
      exact fun c hc => by cases hc; exact hd

end Yaml

/-! ### Lines of configurations -/

/-- The tag of a gradient scaling: only one with a number has a tag. -/
def GradientScaling.tagName : GradientScaling → Option (List Char)
  | disabled | elementCount => none
  | fixed _ => some "fixed".toList

/-- The word of a gradient scaling. -/
def GradientScaling.word : GradientScaling → List Char
  | disabled => "disabled".toList
  | fixed factor => Layout.yaml.chars factor
  | elementCount => "element_count".toList

namespace Config

/-- The tag of a field, which only the gradient scaling has. -/
def fieldTag (c : Config) : Field → Option (List Char)
  | .gradientScaling => c.gradientScaling.tagName
  | .quantMin | .quantMax | .scale | .zeroPoint | .channelLength | .mode => none

/-- The word of a field. -/
def fieldWord (c : Config) : Field → List Char
  | .gradientScaling => c.gradientScaling.word
  | f => c.fieldChars f

/-- The line of a field. -/
def line (c : Config) (f : Field) : Yaml.Line where
  key := f.key.toList
  tag := c.fieldTag f
  value := c.fieldWord f

/-- What is written for a field is its tag and its word. -/
theorem fieldChars_eq (c : Config) (f : Field) :
    c.fieldChars f = (c.line f).tagChars ++ c.fieldWord f := by
  cases f with
  | gradientScaling =>
    rw [fieldChars, Yaml.Line.tagChars, line, fieldTag, fieldWord]
    cases c.gradientScaling with
    | disabled => rfl
    | fixed factor => rfl
    | elementCount => rfl
  | quantMin | quantMax | scale | zeroPoint | channelLength | mode =>
    simp only [Yaml.Line.tagChars, line, fieldTag, fieldWord, Option.elim_none, List.nil_append]

/-- The written line of a field has its key, its tag and its word. -/
theorem fieldLine_eq (c : Config) (f : Field) : c.fieldLine f = (c.line f).chars := by
  rw [fieldLine, fieldChars_eq, List.append_assoc]
  rfl

theorem isWord_key (f : Field) : Yaml.IsWord f.key.toList := by
  cases f <;> decide

theorem length_key (f : Field) : f.key.toList.length ≤ Yaml.maxKeyLength := by
  cases f <;> decide

theorem isWord_fieldWord (c : Config) (f : Field) : Yaml.IsWord (c.fieldWord f) := by
  cases f with
  | quantMin => exact Yaml.isWord_integerChars _
  | quantMax => exact Yaml.isWord_integerChars _
  | scale => exact Yaml.isWord_chars _
  | zeroPoint => exact Yaml.isWord_chars _
  | channelLength =>
    show Yaml.IsWord (c.fieldChars .channelLength)
    rw [fieldChars]
    cases c.channelLength with
    | none => decide
    | some n => exact Yaml.isWord_integerChars n
  | gradientScaling =>
    show Yaml.IsWord c.gradientScaling.word
    cases c.gradientScaling with
    | disabled => decide
    | fixed factor => exact Yaml.isWord_chars factor
    | elementCount => decide
  | mode =>
    show Yaml.IsWord c.mode.name.toList
    cases c.mode <;> decide

/-- The only tag is that of a number for the gradient scaling. -/
theorem fieldTag_eq {c : Config} {f : Field} {name : List Char} (h : c.fieldTag f = some name) :
    name = "fixed".toList := by
  cases f with
  | gradientScaling =>
    rw [fieldTag] at h
    cases hscaling : c.gradientScaling with
    | disabled | elementCount =>
      rw [hscaling] at h
      cases h
    | fixed factor =>
      rw [hscaling] at h
      exact (Option.some.inj h).symm
  | quantMin | quantMax | scale | zeroPoint | channelLength | mode => cases h

theorem wellFormed_line (c : Config) (f : Field) : (c.line f).WellFormed where
  key := isWord_key f
  key_length := length_key f
  tag := by
    intro name h
    rw [fieldTag_eq h]
    have hall : "fixed".toList.all (fun c => Yaml.isAllowed c && Yaml.isNameChar c) = true := by
      decide
    exact ⟨by decide, fun c hc => Bool.and_eq_true_iff.1 (List.all_eq_true.1 hall c hc)⟩
  value := c.isWord_fieldWord f

/-! ### Reading lines -/

/-- The configuration `d` with a field of `c`. -/
def copyField (c d : Config) : Field → Config
  | .quantMin => { d with quantMin := c.quantMin }
  | .quantMax => { d with quantMax := c.quantMax }
  | .scale => { d with scale := c.scale }
  | .zeroPoint => { d with zeroPoint := c.zeroPoint }
  | .channelLength => { d with channelLength := c.channelLength }
  | .gradientScaling => { d with gradientScaling := c.gradientScaling }
  | .mode => { d with mode := c.mode }

end Config

/-- What a gradient scaling is read back as. -/
def GradientScaling.reread : GradientScaling → GradientScaling
  | disabled => disabled
  | fixed factor => fixed (Yaml.reread factor)
  | elementCount => elementCount

/-- What a configuration is read back as: itself, up to the numbers that are not read back. -/
def Config.reread (c : Config) : Config where
  quantMin := c.quantMin
  quantMax := c.quantMax
  scale := Yaml.reread c.scale
  zeroPoint := Yaml.reread c.zeroPoint
  channelLength := c.channelLength
  gradientScaling := c.gradientScaling.reread
  mode := c.mode

/-- Without a tag the text names the alternative. -/
theorem Yaml.Scalar.plainChoice?_of_none {α : Type} {s : Yaml.Scalar} (htag : s.tag = none)
    (ofName? : String → Option α) : s.plainChoice? ofName? = ofName? (String.ofList s.text) := by
  have hchosen : s.chosen = (String.ofList s.text, false) := by
    rw [chosen, htag]
    rfl
  rw [plainChoice?, hchosen]
  rfl

/-- The tag of the document's own that names the alternative with a number. -/
theorem Yaml.Tag.ownName?_fixed :
    Yaml.Tag.ownName? (Yaml.asciiBytes ('!' :: "fixed".toList)) = some "fixed" := by
  decide +kernel

/-- A tagged number is the gradient scaling with the number it is read back as. -/
theorem GradientScaling.ofScalar?_fixed {s : Yaml.Scalar} (hs : s.style = .plain)
    (htag : s.tag = some (Yaml.asciiBytes ('!' :: "fixed".toList))) {factor : Single}
    (htext : s.text = Layout.yaml.chars factor) :
    GradientScaling.ofScalar? s = some (fixed (Yaml.reread factor)) := by
  have hchosen : s.chosen = ("fixed", true) := by
    rw [Yaml.Scalar.chosen, htag, Option.bind_some, Yaml.Tag.ownName?_fixed]
  -- the name is none of the alternatives without a number, whatever the scalar holds
  have hplain : s.plainChoice? GradientScaling.ofName? = none := by
    have hname : GradientScaling.ofName? "fixed" = none := by decide
    rw [Yaml.Scalar.plainChoice?, hchosen]
    show Option.bind _ (fun _ => ofName? "fixed") = none
    rw [hname, Option.bind_fun_none]
  have hheld : s.heldSingle? "fixed" = some (Yaml.reread factor) := by
    rw [Yaml.Scalar.heldSingle?, (Option.guard_eq_some' ()).2 ⟨hchosen, hs⟩]
    exact Yaml.Scalar.single?_chars hs htext
  rw [GradientScaling.ofScalar?, hplain, hheld]
  rfl

/-- A gradient scaling is read back from its tag and its word. -/
theorem GradientScaling.ofScalar?_word (g : GradientScaling) :
    GradientScaling.ofScalar?
        ⟨g.tagName.map fun name => Yaml.asciiBytes ('!' :: name), g.word, .plain⟩
      = some g.reread := by
  cases g with
  | disabled => decide +kernel
  | elementCount => decide +kernel
  | fixed factor => exact GradientScaling.ofScalar?_fixed rfl rfl rfl

namespace Config

variable {c : Config}

/-- The value of a line sets its field. -/
theorem setField?_line (hlength : ∀ n ∈ c.channelLength, n < Yaml.Scalar.sizeLimit) (d : Config)
    (f : Field) : d.setField? f (c.line f).scalars.2 = some (c.reread.copyField d f) := by
  cases f with
  | quantMin =>
    exact congrArg (Option.map _) (Yaml.Scalar.int32?_integerChars (v := c.quantMin) rfl rfl)
  | quantMax =>
    exact congrArg (Option.map _) (Yaml.Scalar.int32?_integerChars (v := c.quantMax) rfl rfl)
  | scale => exact congrArg (Option.map _) (Yaml.Scalar.single?_chars (x := c.scale) rfl rfl)
  | zeroPoint =>
    exact congrArg (Option.map _) (Yaml.Scalar.single?_chars (x := c.zeroPoint) rfl rfl)
  | channelLength =>
    have htext : (c.line .channelLength).scalars.2.text
        = c.channelLength.elim "null".toList fun n => integerChars n := by
      show c.fieldChars .channelLength = _
      rw [fieldChars]
      cases c.channelLength <;> rfl
    exact congrArg (Option.map _) (Yaml.Scalar.optionalSize?_elim rfl rfl hlength htext)
  | gradientScaling => exact congrArg (Option.map _) c.gradientScaling.ofScalar?_word
  | mode =>
    have hname := Yaml.Scalar.plainChoice?_of_none (s := (c.line .mode).scalars.2) rfl Mode.ofName?
    have htext : String.ofList (c.line .mode).scalars.2.text = c.mode.name :=
      String.ofList_toList
    rw [htext, Mode.ofName?_name] at hname
    exact congrArg (Option.map _) hname

/-- The lines of different fields set these fields, one after the other. -/
theorem setFields?_lines (hlength : ∀ n ∈ c.channelLength, n < Yaml.Scalar.sizeLimit)
    {fs : List Field} (hnodup : fs.Nodup) {seen : List Field} (hseen : ∀ f ∈ fs, f ∉ seen)
    (d : Config) :
    d.setFields? seen (fs.map fun f => (c.line f).scalars)
      = some (fs.foldl c.reread.copyField d) := by
  induction fs generalizing seen d with
  | nil => rfl
  | cons f fs ih =>
    obtain ⟨hf, hfs⟩ := List.nodup_cons.1 hnodup
    have hkey : Field.ofKey? (String.ofList (c.line f).scalars.1.text) = some f :=
      (congrArg Field.ofKey? String.ofList_toList).trans f.ofKey?_key
    have hfresh : (!seen.contains f) = true := by
      simpa using hseen f List.mem_cons_self
    -- the field is seen from now on, and none of the others is the same
    have hrest : ∀ g ∈ fs, g ∉ f :: seen := fun g hg => by
      rw [List.mem_cons, not_or]
      exact ⟨fun h => hf (h ▸ hg), hseen g (List.mem_cons_of_mem f hg)⟩
    rw [List.map_cons, setFields?, hkey]
    show ((guard ((!seen.contains f) = true) : Option Unit) >>= fun _ =>
      d.setField? f (c.line f).scalars.2 >>= fun d => d.setFields? (f :: seen) _) = _
    rw [(Option.guard_eq_some' ()).2 hfresh, setField?_line hlength]
    exact ih hfs hrest _

theorem flatMap_fieldLine (c : Config) (fs : List Field) :
    fs.flatMap c.fieldLine = (fs.map c.line).flatMap Yaml.Line.chars := by
  rw [List.flatMap_map]
  exact congrArg (fun f => fs.flatMap f) (funext c.fieldLine_eq)

theorem wellFormed_lines (c : Config) (fs : List Field) : ∀ l ∈ fs.map c.line, l.WellFormed := by
  intro l hl
  obtain ⟨f, -, rfl⟩ := List.mem_map.1 hl
  exact c.wellFormed_line f

/-- A document with the lines of some fields, repeated or not, is read as their keys and values. -/
theorem ofDocument?_eq (c : Config) (fs : List Field) :
    ofDocument? (String.ofList (fs.flatMap c.fieldLine))
      = default.setFields? [] (fs.map fun f => (c.line f).scalars) := by
  rw [ofDocument?, String.toList_ofList, flatMap_fieldLine, Yaml.read_lines (c.wellFormed_lines fs)]
  show (Yaml.Document.resolve _ >>= _) = _
  rw [Yaml.resolve_lines, List.map_map]
  rfl

/-- A document with the lines of some fields gives these fields, and the defaults of the others. -/
theorem ofDocument?_lines (hlength : ∀ n ∈ c.channelLength, n < Yaml.Scalar.sizeLimit)
    {fs : List Field} (hnodup : fs.Nodup) :
    ofDocument? (String.ofList (fs.flatMap c.fieldLine))
      = some (fs.foldl c.reread.copyField default) := by
  rw [ofDocument?_eq]
  exact setFields?_lines hlength hnodup (fun f _ => List.not_mem_nil (a := f)) default

/-- A configuration is read back, up to the numbers that are not. -/
theorem ofDocument?_yaml (hlength : ∀ n ∈ c.channelLength, n < Yaml.Scalar.sizeLimit) :
    ofDocument? c.yaml = some c.reread :=
  ofDocument?_lines hlength (by decide)

end Config

/-! ### Valid configurations -/

namespace Yaml

theorem isFinite_reread (x : Single) : (reread x).isFinite = x.isFinite := by
  cases x with
  | nan => rfl
  | infinity negative => rfl
  | finite negative significand exponent h =>
    rw [reread]
    split <;> rfl

/-- The number that is not read back keeps its sign. -/
theorem reread_pos {x : Single} (hx : 0 < x) : 0 < reread x := by
  by_cases hslips : Slips x
  · cases x with
    | nan => cases hslips
    | infinity negative => cases hslips
    | finite negative significand exponent h =>
      obtain ⟨rfl, rfl⟩ := hslips
      have hpositive : ¬ (0 : Single) < .finite true 11420669 (-107) (by decide) := by
        decide +kernel
      have hneighbour : (0 : Single) < .finite false 11420670 (-107) (by decide) := by
        decide +kernel
      cases negative with
      | true => exact absurd hx hpositive
      | false => exact hneighbour
  · rwa [reread_eq_self_iff.2 hslips]

end Yaml

namespace Config

variable {c : Config}

/-- What a valid configuration is read back as is valid. -/
theorem validate_reread (hvalid : c.validate = .ok ()) : c.reread.validate = .ok () := by
  obtain ⟨hbounds, hlength, ⟨hfinite, hpos⟩, hscaling⟩ := validate_eq_ok.1 hvalid
  refine validate_eq_ok.2 ⟨hbounds, hlength, ⟨?_, Yaml.reread_pos hpos⟩, ?_⟩
  · exact (Yaml.isFinite_reread c.scale).trans hfinite
  · intro factor h
    have h : c.gradientScaling.reread = .fixed factor := h
    cases hgiven : c.gradientScaling with
    | disabled | elementCount =>
      rw [hgiven] at h
      cases h
    | fixed given =>
      rw [hgiven] at h
      cases h
      exact (Yaml.isFinite_reread given).trans (hscaling given hgiven)

/-- A valid configuration is read from what is written, up to the numbers that are not read back. -/
theorem ofYaml_yaml (hvalid : c.validate = .ok ())
    (hlength : ∀ n ∈ c.channelLength, n < Yaml.Scalar.sizeLimit) :
    ofYaml c.yaml = .ok c.reread := by
  rw [ofYaml, ofDocument?_yaml hlength]
  show (c.reread.validate >>= fun _ => .ok c.reread) = _
  rw [validate_reread hvalid]
  rfl

end Config

theorem GradientScaling.reread_eq_self_iff {g : GradientScaling} :
    g.reread = g ↔ ∀ factor, g = .fixed factor → ¬ Yaml.Slips factor := by
  cases g with
  | disabled => exact ⟨fun _ _ h => (nomatch h), fun _ => rfl⟩
  | elementCount => exact ⟨fun _ _ h => (nomatch h), fun _ => rfl⟩
  | fixed given =>
    rw [reread, fixed.injEq, Yaml.reread_eq_self_iff]
    exact ⟨fun h _ hfactor => by cases hfactor; exact h, fun h => h given rfl⟩

namespace Config

variable {c : Config}

/-- A configuration is read back as it is when all its numbers are. -/
theorem reread_eq_self_iff : c.reread = c ↔
    ¬ Yaml.Slips c.scale ∧ ¬ Yaml.Slips c.zeroPoint ∧
      ∀ factor, c.gradientScaling = .fixed factor → ¬ Yaml.Slips factor := by
  rw [← Yaml.reread_eq_self_iff, ← Yaml.reread_eq_self_iff, ← GradientScaling.reread_eq_self_iff]
  constructor
  · intro h
    exact ⟨congrArg Config.scale h, congrArg zeroPoint h, congrArg gradientScaling h⟩
  · rintro ⟨hscale, hzero, hscaling⟩
    rw [reread, hscale, hzero, hscaling]

/-- A valid configuration that was written as YAML is read back with all its fields exactly when
none of its numbers is `7.038531e-26` or the negative of it. -/
theorem yaml_restores_iff (hvalid : c.validate = .ok ())
    (hlength : ∀ n ∈ c.channelLength, n < Yaml.Scalar.sizeLimit) :
    ofYaml c.yaml = .ok c ↔
      ¬ Yaml.Slips c.scale ∧ ¬ Yaml.Slips c.zeroPoint ∧
        ∀ factor, c.gradientScaling = .fixed factor → ¬ Yaml.Slips factor := by
  rw [ofYaml_yaml hvalid hlength, Except.ok.injEq]
  exact reread_eq_self_iff

/-- The least scale, an infinite zero point, the most channels and a negative zero as factor come
back. -/
theorem yaml_restores_iff_extremes :
    let c : Config :=
      { quantMin := Int32.minValue, quantMax := Int32.maxValue, scale := .ofBits 1
        zeroPoint := .infinity true, channelLength := some (Yaml.Scalar.sizeLimit - 1)
        gradientScaling := .fixed (.zero true), mode := .learning }
    c.validate = .ok () ∧ (∀ n ∈ c.channelLength, n < Yaml.Scalar.sizeLimit) ∧
      ofYaml c.yaml = .ok c := by
  intro c
  have hvalid : c.validate = .ok () := by decide +kernel
  have hlength : ∀ n ∈ c.channelLength, n < Yaml.Scalar.sizeLimit := by decide +kernel
  have hscale : ¬ Yaml.Slips c.scale := Yaml.reread_eq_self_iff.1 (by decide +kernel)
  have hscaling : ∀ factor, c.gradientScaling = .fixed factor → ¬ Yaml.Slips factor :=
    GradientScaling.reread_eq_self_iff.1 (by decide +kernel)
  exact ⟨hvalid, hlength, (yaml_restores_iff hvalid hlength).2 ⟨hscale, id, hscaling⟩⟩

/-- The scale `7.038531e-26` is read back as the next larger number: its digits are nearest to a
double that is halfway between the two, and the larger one is even. -/
theorem yaml_moves_scale :
    let c : Config := { default with scale := .ofBits 0x15ae43fd }
    let d : Config := { default with scale := .ofBits 0x15ae43fe }
    c.validate = .ok () ∧ ofYaml c.yaml = .ok d ∧ c.agrees d = false := by
  intro c d
  have hvalid : c.validate = .ok () := by decide +kernel
  have hmoves : c.reread = d := by decide +kernel
  exact ⟨hvalid, hmoves ▸ ofYaml_yaml hvalid (by decide), by decide +kernel⟩

end Config

end FakeQuant
