import FakeQuant.Proofs.ConfigurationText
import FakeQuant.Proofs.YamlKeys

/-!
# Documents with some of the fields

A configuration can be read from the lines of some of its fields, in whatever order they stand
there. It then has these fields, and the others are as in the default configuration (`Config.mix`),
so that bounds which were in order may no longer be. What a document may not do is to name a field
twice or to name something else: the keys of entries that are taken are the keys of different fields
(`Config.exists_fields_of_setFields?`).
-/

namespace FakeQuant

/-- The written form of a number is read back as the number. -/
def Yaml.ReadsBack (x : Single) : Prop :=
  Yaml.Scalar.single? ⟨none, Layout.yaml.chars x, .plain⟩ = some x

/-- All numbers are read back but `7.038531e-26` and the negative of it. -/
theorem Yaml.readsBack_iff {x : Single} : Yaml.ReadsBack x ↔ ¬ Yaml.Slips x := by
  have hread : Yaml.Scalar.single? ⟨none, Layout.yaml.chars x, .plain⟩ = some (Yaml.reread x) :=
    Yaml.Scalar.single?_chars rfl rfl
  rw [Yaml.ReadsBack, hread, Option.some.injEq, Yaml.reread_eq_self_iff]

/-- Different fields have different keys. -/
theorem Field.key_injective : Function.Injective Field.key := by
  intro f g h
  rw [← Option.some.injEq, ← f.ofKey?_key, h, g.ofKey?_key]

namespace Config

/-- The numbers of a configuration are read back as they are. -/
structure ReadsBack (c : Config) : Prop where
  scale : Yaml.ReadsBack c.scale
  zeroPoint : Yaml.ReadsBack c.zeroPoint
  factor : ∀ factor, c.gradientScaling = .fixed factor → Yaml.ReadsBack factor

variable {c d : Config} {fs : List Field}

theorem ReadsBack.reread (h : c.ReadsBack) : c.reread = c :=
  reread_eq_self_iff.2 ⟨Yaml.readsBack_iff.1 h.scale, Yaml.readsBack_iff.1 h.zeroPoint,
    fun factor hfactor => Yaml.readsBack_iff.1 (h.factor factor hfactor)⟩

/-- The configuration with some fields of `c` and the others of `d`. -/
def mix (c d : Config) (fs : List Field) : Config where
  quantMin := if .quantMin ∈ fs then c.quantMin else d.quantMin
  quantMax := if .quantMax ∈ fs then c.quantMax else d.quantMax
  scale := if .scale ∈ fs then c.scale else d.scale
  zeroPoint := if .zeroPoint ∈ fs then c.zeroPoint else d.zeroPoint
  channelLength := if .channelLength ∈ fs then c.channelLength else d.channelLength
  gradientScaling := if .gradientScaling ∈ fs then c.gradientScaling else d.gradientScaling
  mode := if .mode ∈ fs then c.mode else d.mode

/-- Fields that are copied one after the other come from there, the others stay. -/
theorem foldl_copyField (c d : Config) (fs : List Field) :
    fs.foldl c.copyField d = c.mix d fs := by
  induction fs generalizing d with
  | nil => rfl
  | cons f fs ih =>
    rw [List.foldl_cons, ih]
    cases f <;> simp [mix, copyField]

/-! ### Documents that are taken -/

theorem ofYaml_of_eq_some {text : String} (h : ofDocument? text = some d) :
    ofYaml text = d.validate >>= fun _ => .ok d := by
  rw [ofYaml, h]
  rfl

theorem ofYaml_of_eq_none {text : String} (h : ofDocument? text = none) :
    ofYaml text = .error (.configuration .document) := by
  rw [ofYaml, h]

/-- The lines of different fields give these fields, and the defaults of the others. -/
theorem ofDocument?_mix (hlength : ∀ n ∈ c.channelLength, n < Yaml.Scalar.sizeLimit)
    (hback : c.ReadsBack) (hnodup : fs.Nodup) :
    ofDocument? (String.ofList (fs.flatMap c.fieldLine)) = some (c.mix default fs) := by
  rw [ofDocument?_lines hlength hnodup, hback.reread, foldl_copyField]

/-! ### Documents that are refused -/

/-- The keys of entries. -/
def keys (entries : List (Yaml.Scalar × Yaml.Scalar)) : List String :=
  entries.map fun entry => String.ofList entry.1.text

/-- The keys of entries that are taken are the keys of different fields, none of which was seen
before. -/
theorem exists_fields_of_setFields? {entries : List (Yaml.Scalar × Yaml.Scalar)}
    {seen : List Field} {d' : Config} (h : d.setFields? seen entries = some d') :
    ∃ fs : List Field, keys entries = fs.map Field.key ∧ fs.Nodup ∧ ∀ f ∈ fs, f ∉ seen := by
  induction entries generalizing seen d with
  | nil => exact ⟨[], rfl, List.nodup_nil, fun _ hf => absurd hf List.not_mem_nil⟩
  | cons entry entries ih =>
    obtain ⟨f, hkey, h⟩ := Option.bind_eq_some_iff.1 h
    obtain ⟨_, hguard, h⟩ := Option.bind_eq_some_iff.1 h
    obtain ⟨d₁, -, h⟩ := Option.bind_eq_some_iff.1 h
    obtain ⟨fs, hkeys, hnodup, hfresh⟩ := ih h
    have hf : f ∉ seen := by
      have hcontains := (Option.guard_eq_some' ()).1 hguard
      simpa using hcontains
    refine ⟨f :: fs, ?_, List.nodup_cons.2 ⟨fun hmem => ?_, hnodup⟩, ?_⟩
    · rw [List.map_cons, Field.key_of_ofKey? hkey, ← hkeys, keys, List.map_cons]
      rfl
    · exact hfresh f hmem List.mem_cons_self
    · rintro g (_ | ⟨_, hg⟩)
      · exact hf
      · exact fun hseen => hfresh g hg (List.mem_cons_of_mem f hseen)

/-- Entries with a key twice, or with a key that is none of a field, are not taken. -/
theorem setFields?_eq_none {entries : List (Yaml.Scalar × Yaml.Scalar)} {seen : List Field}
    (h : ¬ (keys entries).Nodup ∨ ∃ key ∈ keys entries, ∀ f : Field, f.key ≠ key) :
    d.setFields? seen entries = none := by
  rw [Option.eq_none_iff_forall_ne_some]
  intro d' hd
  obtain ⟨fs, hkeys, hnodup, -⟩ := exists_fields_of_setFields? hd
  rw [hkeys] at h
  rcases h with hrepeated | ⟨key, hmem, hunknown⟩
  · exact hrepeated (hnodup.map Field.key_injective)
  · obtain ⟨f, -, hf⟩ := List.mem_map.1 hmem
    exact hunknown f hf

/-- A document with a key twice, or with a key that is none of a field, is none of a
configuration. -/
theorem ofDocument?_of_keys {text : String} {entries : List (Yaml.Scalar × Yaml.Scalar)}
    (hentries : (Yaml.Document.read text.toList).bind Yaml.Document.resolve = some entries)
    (h : ¬ (keys entries).Nodup ∨ ∃ key ∈ keys entries, ∀ f : Field, f.key ≠ key) :
    ofDocument? text = none := by
  obtain ⟨document, hread, hresolve⟩ := Option.bind_eq_some_iff.1 hentries
  rw [ofDocument?, hread]
  show (document.resolve >>= _) = _
  rw [hresolve]
  exact setFields?_eq_none h

/-- A document that has the line of a field twice is none of a configuration. -/
theorem ofDocument?_of_not_nodup (c : Config) (h : ¬ fs.Nodup) :
    ofDocument? (String.ofList (fs.flatMap c.fieldLine)) = none := by
  have hkeys : keys (fs.map fun f => (c.line f).scalars) = fs.map Field.key := by
    rw [keys, List.map_map]
    exact List.map_congr_left fun f _ => String.ofList_toList
  rw [ofDocument?_eq]
  refine setFields?_eq_none (.inl ?_)
  rwa [hkeys, List.nodup_map_iff Field.key_injective]

/-- A document with the key of something else is none of a configuration, whatever stands behind the
key. -/
theorem ofDocument?_of_isKey (c : Config) (fs : List Field) {key name rest : List Char}
    (hkey : Yaml.IsKey key name) (hname : ∀ f : Field, f.key ≠ String.ofList name)
    (hrest : Yaml.atWordEnd rest = true) :
    ofDocument? (String.ofList (fs.flatMap c.fieldLine ++ (key ++ ':' :: rest))) = none := by
  rw [ofDocument?, String.toList_ofList, flatMap_fieldLine, Option.eq_none_iff_forall_ne_some]
  intro d hd
  obtain ⟨document, hread, hd⟩ := Option.bind_eq_some_iff.1 hd
  obtain ⟨scalars, hresolve, hset⟩ := Option.bind_eq_some_iff.1 hd
  obtain ⟨entries, rfl, e, he, hhas⟩ :=
    Yaml.exists_hasName_of_read (c.wellFormed_lines fs) hkey hrest hread
  obtain ⟨pair, hpair, htext⟩ := Yaml.exists_text_of_resolve hhas he hresolve
  have hmem : String.ofList name ∈ keys scalars := htext ▸ List.mem_map_of_mem hpair
  rw [setFields?_eq_none (.inr ⟨_, hmem, hname⟩)] at hset
  cases hset

/-- **Documents with some of the fields**, for every configuration whose numbers are read back as
they are. The lines of different fields, in any order, give the configuration with these fields and
the defaults of the others, if it is valid, and otherwise the error of its validation; no line at
all gives the defaults. A document that has a line twice is an error of configuration. So is a
document that has, among such lines or behind them, the key of something that is no field, whatever
else stands there, and every other document in which a key is read twice or is none of a field. -/
theorem ofYaml_fieldLines (hlength : ∀ n ∈ c.channelLength, n < Yaml.Scalar.sizeLimit)
    (hback : c.ReadsBack) (fs : List Field) :
    let lines := fs.flatMap c.fieldLine
    let d := c.mix default fs
    (fs.Nodup →
      (d.validate = .ok () → ofYaml (String.ofList lines) = .ok d) ∧
      ∀ e, d.validate = .error e → ofYaml (String.ofList lines) = .error e) ∧
    (¬ fs.Nodup → ofYaml (String.ofList lines) = .error (.configuration .document)) ∧
    (∀ key name rest : List Char, Yaml.IsKey key name →
      (∀ f : Field, f.key ≠ String.ofList name) → Yaml.atWordEnd rest = true →
      ofYaml (String.ofList (lines ++ (key ++ ':' :: rest))) =
        .error (.configuration .document)) ∧
    ∀ text entries,
      (Yaml.Document.read text.toList).bind Yaml.Document.resolve = some entries →
      (¬ (keys entries).Nodup ∨ ∃ key ∈ keys entries, ∀ f : Field, f.key ≠ key) →
      ofYaml text = .error (.configuration .document) := by
  refine ⟨fun hnodup => ?_, fun hrepeated => ?_, fun key name rest hkey hname hrest => ?_,
    fun text entries hentries hbad => ?_⟩
  · rw [ofYaml_of_eq_some (ofDocument?_mix hlength hback hnodup)]
    constructor
    · intro hvalid
      rw [hvalid]
      rfl
    · intro e hinvalid
      rw [hinvalid]
      rfl
  · exact ofYaml_of_eq_none (c.ofDocument?_of_not_nodup hrepeated)
  · exact ofYaml_of_eq_none (c.ofDocument?_of_isKey fs hkey hname hrest)
  · exact ofYaml_of_eq_none (ofDocument?_of_keys hentries hbad)

/-- The upper bound is read in front of the lower one; alone, the lower bound is above the default
upper one. A repeated line, an unknown key between the lines and a quoted one are refused. -/
theorem ofYaml_fieldLines_of_bounds :
    let c : Config := { default with quantMin := 300, quantMax := 400 }
    ofYaml "quant_max: 400\nquant_min: 300\n" = .ok c ∧
    ofYaml "quant_min: 300\n" = .error (.invalidRange 300 255) ∧
    ofYaml "quant_min: 300\nquant_min: 300\n" = .error (.configuration .document) ∧
    ofYaml "quant_max: 400\nbits: 8\nquant_min: 300\n" = .error (.configuration .document) ∧
    ofYaml "'bits': 8\n" = .error (.configuration .document) := by
  intro c
  have hlength : ∀ n ∈ c.channelLength, n < Yaml.Scalar.sizeLimit := fun _ h => nomatch h
  have hscale : ¬ Yaml.Slips c.scale := Yaml.reread_eq_self_iff.1 (by decide +kernel)
  have hzero : ¬ Yaml.Slips c.zeroPoint := Yaml.reread_eq_self_iff.1 (by decide +kernel)
  have hback : c.ReadsBack :=
    ⟨Yaml.readsBack_iff.2 hscale, Yaml.readsBack_iff.2 hzero, fun _ h => nomatch h⟩
  refine ⟨?_, ?_, ?_, ?_, ?_⟩
  · have htext : String.ofList ([.quantMax, .quantMin].flatMap c.fieldLine) =
        "quant_max: 400\nquant_min: 300\n" := by decide +kernel
    have hvalid : (c.mix default [.quantMax, .quantMin]).validate = .ok () := by decide +kernel
    rw [← htext]
    exact ((ofYaml_fieldLines hlength hback [.quantMax, .quantMin]).1 (by decide)).1 hvalid
  · have htext : String.ofList ([.quantMin].flatMap c.fieldLine) = "quant_min: 300\n" := by
      decide +kernel
    have hinvalid : (c.mix default [.quantMin]).validate = .error (.invalidRange 300 255) := by
      decide +kernel
    rw [← htext]
    exact ((ofYaml_fieldLines hlength hback [.quantMin]).1 (by decide)).2 _ hinvalid
  · have htext : String.ofList ([.quantMin, .quantMin].flatMap c.fieldLine) =
        "quant_min: 300\nquant_min: 300\n" := by decide +kernel
    rw [← htext]
    exact (ofYaml_fieldLines hlength hback [.quantMin, .quantMin]).2.1 (by decide)
  · have htext : String.ofList ([.quantMax].flatMap c.fieldLine ++
          ("bits".toList ++ ':' :: " 8\nquant_min: 300\n".toList)) =
        "quant_max: 400\nbits: 8\nquant_min: 300\n" := by decide +kernel
    have hkey : Yaml.IsKey "bits".toList "bits".toList := Yaml.isKey_of_isWord (by decide)
    have hname (f : Field) : f.key ≠ String.ofList "bits".toList := by cases f <;> decide
    rw [← htext]
    exact (ofYaml_fieldLines hlength hback [.quantMax]).2.2.1 _ _ _ hkey hname rfl
  · have hentries : (Yaml.Document.read "'bits': 8\n".toList).bind Yaml.Document.resolve =
        some [(⟨none, "bits".toList, .quoted⟩, ⟨none, "8".toList, .plain⟩)] := by
      decide +kernel
    have hname (f : Field) : f.key ≠ "bits" := by cases f <;> decide
    exact (ofYaml_fieldLines hlength hback []).2.2.2 _ _ hentries
      (.inr ⟨"bits", by decide +kernel, hname⟩)

end Config

end FakeQuant
