import FakeQuant.Proofs.YamlWords
import FakeQuant.Yaml.Anchor

/-!
# Documents of plain lines

A `Line` has a key and a value that are plain words, and the value may have a tag of the document's
own. A text of such lines is read as their keys and values, in their order
(`read_lines`, `resolve_lines`).

What carries the induction over the lines is that behind every line there is column zero again, a
key is allowed, and something with a meaning follows or nothing at all (`simpleEntry_line`).
-/

namespace FakeQuant.Yaml

/-! ### Lines -/

/-- A line of a document: a key and a value, which may have a tag of the document's own. -/
structure Line where
  key : List Char
  tag : Option (List Char)
  value : List Char

namespace Line

/-- The tag and the blank behind it, if there is a tag. -/
def tagChars (l : Line) : List Char :=
  l.tag.elim [] fun name => '!' :: (name ++ [' '])

/-- The text of a line. -/
def chars (l : Line) : List Char :=
  l.key ++ ':' :: ' ' :: (l.tagChars ++ (l.value ++ ['\n']))

/-- The properties of the value. -/
def properties (l : Line) : Properties where
  anchor := none
  tag := l.tag.map fun name => asciiBytes ('!' :: name)

/-- What a line is read as. -/
def entry (l : Line) : Entry :=
  (.scalar .none ⟨l.key, .plain⟩, .scalar l.properties ⟨l.value, .plain⟩)

/-- What a line means. -/
def scalars (l : Line) : Scalar × Scalar :=
  (⟨none, l.key, .plain⟩, ⟨l.properties.tag, l.value, .plain⟩)

/-- A line of words, with a key that is not too long. -/
structure WellFormed (l : Line) : Prop where
  key : IsWord l.key
  key_length : l.key.length ≤ maxKeyLength
  tag : ∀ name ∈ l.tag, name ≠ [] ∧ ∀ c ∈ name, isAllowed c = true ∧ isNameChar c = true
  value : IsWord l.value

end Line

section Entries

variable {l : Line} {rest : List Char}

/-- The value of a line is read, and the next line comes. -/
theorem node_value (hl : l.WellFormed) (hrest : Meaningful rest) (line column offset : Nat)
    (keyAllowed : Bool) :
    ∃ offset', node standardHandles (.value 0)
        ⟨' ' :: (l.tagChars ++ (l.value ++ '\n' :: rest)), line, column, offset, keyAllowed⟩
      = some (.scalar l.properties ⟨l.value, .plain⟩, ⟨rest, line + 1, 0, offset', true⟩) := by
  have hvalue := hl.value
  have hword := hvalue.meaningful_append ('\n' :: rest)
  have hstarts := startsPlain_append hvalue.starts ('\n' :: rest)
  have hpast (column offset : Nat) (keyAllowed : Bool) : (Surroundings.value 0).isPast
      ⟨l.value ++ '\n' :: rest, line, column + 1, offset, keyAllowed⟩ = false := by
    simp [Surroundings.isPast]
  rw [Line.tagChars, Line.properties]
  cases htag : l.tag with
  | none =>
    exact ⟨_, node_plain rfl (toToken_blank hword)
      (propertiesFrom_word hvalue rfl standardHandles (.value 0) 2 .none) (hpast _ _ _) rfl hstarts
      (plainScalar_newline hvalue hrest rfl)⟩
  | some name =>
    obtain ⟨hne, hname⟩ := hl.tag name htag
    have hmark : Meaningful ('!' :: (name ++ ' ' :: (l.value ++ '\n' :: rest))) :=
      fun c hc => by cases hc; decide
    -- the tag comes first, and the word is found behind the blank that ends it
    have hread := node_plain rfl (toToken_blank hmark)
      (properties_tag hne (fun c hc => (hname c hc).2) hvalue line column (offset + 1) keyAllowed)
      (hpast _ _ _) rfl hstarts (plainScalar_newline hvalue hrest rfl)
    have hkept : (asciiBytes ('!' :: name) != Tag.nonSpecific) = true := by
      obtain ⟨c, cs, rfl⟩ := List.exists_cons_of_ne_nil hne
      simp [asciiBytes, Tag.nonSpecific]
    refine ⟨offset + 1 + 1 + name.length + 1 + l.value.length + 1, ?_⟩
    rw [Node.ofContent, Option.filter_some, hkept, if_pos rfl] at hread
    simpa using hread

/-- A line is read as its entry. -/
theorem simpleEntry_line (hl : l.WellFormed) (hrest : Meaningful rest) (line offset : Nat) :
    ∃ offset', simpleEntry standardHandles 0 ⟨l.chars ++ rest, line, 0, offset, true⟩
      = some (l.entry, ⟨rest, line + 1, 0, offset', true⟩) := by
  have hchars : l.chars ++ rest
      = l.key ++ ':' :: ' ' :: (l.tagChars ++ (l.value ++ '\n' :: rest)) := by
    simp only [Line.chars, List.append_assoc, List.cons_append, List.nil_append]
  have hend : atWordEnd (' ' :: (l.tagChars ++ (l.value ++ '\n' :: rest))) = true := rfl
  have hkey := node_key hl.key hend standardHandles line 0 offset true
  have hcolon : Meaningful (':' :: ' ' :: (l.tagChars ++ (l.value ++ '\n' :: rest))) :=
    fun c hc => by cases hc; decide
  obtain ⟨offset', hvalue⟩ := node_value hl hrest line (0 + l.key.length + 1)
    (offset + l.key.length + 1) false
  refine ⟨offset', ?_⟩
  rw [simpleEntry, get_bind, hchars, bind_eq_of_some hkey,
    bind_eq_of_some (toToken_meaningful hcolon), get_bind, guard_bind]
  · rw [sign, modify_bind]
    exact bind_eq_of_some hvalue
  · have := hl.key_length
    simp [inKeyRange, startsColon, atWordEnd, isBlank, this]

end Entries

/-! ### Documents -/

/-- A line is not empty. -/
theorem Line.length_chars_pos (l : Line) : 0 < l.chars.length := by
  simp only [Line.chars, List.length_append, List.length_cons]
  omega

/-- There are no more lines than characters. -/
theorem length_le_length_flatMap (lines : List Line) :
    lines.length ≤ (lines.flatMap Line.chars).length := by
  induction lines with
  | nil => exact Nat.le_refl 0
  | cons l lines ih =>
    have := l.length_chars_pos
    rw [List.flatMap_cons, List.length_append, List.length_cons]
    omega

/-- A plain scalar does not start with a question mark that is a word of its own. -/
theorem startsQuestion_of_startsPlain {text : List Char} (h : startsPlain false text = true) :
    startsQuestion text = false := by
  cases text with
  | nil => rfl
  | cons c text =>
    by_cases hc : c = '?'
    · subst hc
      simpa [startsPlain, startsQuestion] using h
    · simp [startsQuestion, hc]

/-- What starts with a key starts with no sign of anything else. -/
structure StartsKey (text : List Char) : Prop where
  meaningful : Meaningful text
  isEmpty : text.isEmpty = false
  startsQuestion : Yaml.startsQuestion text = false
  atStartMark : ∀ line offset, Cursor.atStartMark ⟨text, line, 0, offset, true⟩ = false
  atEndMark : ∀ line offset, Cursor.atEndMark ⟨text, line, 0, offset, true⟩ = false
  no_directive : text.head? ≠ some '%'
  no_brace : text.head? ≠ some '\x7b'
  no_anchor : text.head? ≠ some '&'
  no_tag : text.head? ≠ some '!'

theorem StartsKey.atMark {text : List Char} (h : StartsKey text) (line offset : Nat) :
    Cursor.atMark ⟨text, line, 0, offset, true⟩ = false := by
  rw [Cursor.atMark, h.atStartMark, h.atEndMark]
  rfl

/-- A word in front of a colon starts a key. -/
theorem IsWord.startsKey {cs : List Char} (h : IsWord cs) (behind : List Char) :
    StartsKey (cs ++ ':' :: behind) where
  meaningful := h.meaningful_append _
  isEmpty := List.isEmpty_eq_false_iff.2 (List.append_ne_nil_of_left_ne_nil h.ne_nil _)
  startsQuestion := startsQuestion_of_startsPlain (startsPlain_append h.starts _)
  atStartMark := fun line offset => (atMark_colon h.chars behind line 0 offset true).1
  atEndMark := fun line offset => (atMark_colon h.chars behind line 0 offset true).2
  no_directive := h.head?_append _ rfl
  no_brace := h.head?_append _ rfl
  no_anchor := h.head?_append _ rfl
  no_tag := h.head?_append _ rfl

/-- A line starts with its key. -/
theorem Line.WellFormed.startsKey {l : Line} (h : l.WellFormed) (rest : List Char) :
    StartsKey (l.chars ++ rest) := by
  obtain ⟨behind, hchars⟩ : ∃ behind, l.chars ++ rest = l.key ++ ':' :: behind :=
    ⟨_, by rw [Line.chars, List.append_assoc, List.cons_append]⟩
  rw [hchars]
  exact h.key.startsKey behind

/-- Lines start with a meaning. -/
theorem meaningful_flatMap {lines : List Line} (h : ∀ l ∈ lines, l.WellFormed) :
    Meaningful (lines.flatMap Line.chars) := by
  cases lines with
  | nil => exact fun c hc => by cases hc
  | cons l lines => exact ((h l List.mem_cons_self).startsKey (lines.flatMap Line.chars)).meaningful

/-- Where a key starts, there is one more entry. -/
theorem entriesAt_eq {text : List Char} (h : StartsKey text) (bound line offset : Nat) :
    entriesAt standardHandles 0 (bound + 1) ⟨text, line, 0, offset, true⟩
      = (do
          let entry ← simpleEntry standardHandles 0
          return entry :: (← entriesAt standardHandles 0 bound) : Scanner (List Entry))
        ⟨text, line, 0, offset, true⟩ := by
  rw [entriesAt, bind_eq_of_some (toToken_meaningful h.meaningful), get_bind,
    if_neg (by simp [h.isEmpty, h.atMark]), guard_bind rfl,
    if_neg (ne_true_of_eq_false h.startsQuestion)]

/-- Lines are read as their entries, up to the end of the text. -/
theorem entriesAt_lines {lines : List Line} (h : ∀ l ∈ lines, l.WellFormed) {bound : Nat}
    (hbound : lines.length < bound) (line offset : Nat) :
    ∃ line' offset', entriesAt standardHandles 0 bound
        ⟨lines.flatMap Line.chars, line, 0, offset, true⟩
      = some (lines.map Line.entry, ⟨[], line', 0, offset', true⟩) := by
  induction lines generalizing bound line offset with
  | nil =>
    obtain ⟨bound, rfl⟩ := Nat.exists_eq_add_one_of_ne_zero (Nat.ne_zero_of_lt hbound)
    exact ⟨line, offset, rfl⟩
  | cons l lines ih =>
    obtain ⟨bound, rfl⟩ := Nat.exists_eq_add_one_of_ne_zero (Nat.ne_zero_of_lt hbound)
    have hl := h l List.mem_cons_self
    have hlines := fun m hm => h m (List.mem_cons_of_mem l hm)
    have hkey := hl.startsKey (lines.flatMap Line.chars)
    -- behind the first line the scanner stands at the start of the others
    obtain ⟨offset', hentry⟩ := simpleEntry_line hl (meaningful_flatMap hlines) line offset
    obtain ⟨line', offset'', hrest⟩ :=
      ih hlines (Nat.lt_of_succ_lt_succ hbound) (line + 1) offset'
    refine ⟨line', offset'', ?_⟩
    rw [List.flatMap_cons, entriesAt_eq hkey, bind_eq_of_some hentry]
    exact bind_eq_of_some hrest

/-- From a place on where a key starts, the root of a document is a mapping. -/
theorem rootFrom_eq {handles : Handles} {c : Cursor} (hmeaningful : Meaningful c.rest)
    (hempty : c.rest.isEmpty = false) (hmark : c.atMark = false)
    (hanchor : c.rest.head? ≠ some '&') (htag : c.rest.head? ≠ some '!')
    (hbrace : c.rest.head? ≠ some '\x7b') (hallowed : c.keyAllowed = true) (bound : Nat) :
    rootFrom handles (bound + 1) .none .none c c
      = (do return .mapping none (← entriesAt handles c.column (c.rest.length + 1)) :
          Scanner Document) c := by
  have hline : (c.line != c.line) = false := bne_self_eq_false _
  have howned : Properties.none.isEmpty = true := rfl
  rw [rootFrom, bind_eq_of_some (toToken_meaningful hmeaningful), get_bind]
  simp only [hline, howned, Bool.false_eq_true, if_false, Bool.or_true, if_true, pure_bind]
  rw [if_neg (by simp [hempty, hmark]), bind_eq_of_some (property?_none hanchor htag _ _ _)]
  dsimp only
  rw [if_neg hbrace, guard_bind hallowed, bind_eq_of_some (s := c) (a := ()) rfl]
  rfl

/-- What starts with a key is a mapping. -/
theorem root_eq {text : List Char} (h : StartsKey text) :
    root standardHandles ⟨text, 0, 0, 0, true⟩
      = (do return .mapping none (← entriesAt standardHandles 0 (text.length + 1)) :
          Scanner Document) ⟨text, 0, 0, 0, true⟩ := by
  rw [root, get_bind]
  exact rootFrom_eq h.meaningful h.isEmpty (h.atMark 0 0) h.no_anchor h.no_tag h.no_brace rfl _

/-- Lines are the root of a document. -/
theorem root_lines {lines : List Line} (h : ∀ l ∈ lines, l.WellFormed) :
    ∃ line offset, root standardHandles ⟨lines.flatMap Line.chars, 0, 0, 0, true⟩
      = some (if lines = [] then .empty else .mapping none (lines.map Line.entry),
          ⟨[], line, 0, offset, true⟩) := by
  cases lines with
  | nil => exact ⟨0, 0, rfl⟩
  | cons l lines =>
    have hkey := (h l List.mem_cons_self).startsKey (lines.flatMap Line.chars)
    have hlength := Nat.lt_succ_of_le (length_le_length_flatMap (l :: lines))
    obtain ⟨line, offset, hentries⟩ := entriesAt_lines h hlength 0 0
    exact ⟨line, offset, (root_eq hkey).trans (bind_eq_of_some hentries)⟩

/-- A key is no directive. -/
theorem StartsKey.atDirective {text : List Char} (h : StartsKey text) :
    Cursor.atDirective ⟨text, 0, 0, 0, true⟩ = false := by
  rw [Cursor.atDirective, Bool.and_eq_false_iff]
  exact .inr (beq_eq_false_iff_ne.2 h.no_directive)

/-- In front of lines there are no marks and no directives. -/
theorem noMark_lines {lines : List Line} (h : ∀ l ∈ lines, l.WellFormed) :
    Cursor.atStartMark ⟨lines.flatMap Line.chars, 0, 0, 0, true⟩ = false ∧
      Cursor.atEndMark ⟨lines.flatMap Line.chars, 0, 0, 0, true⟩ = false ∧
      Cursor.atDirective ⟨lines.flatMap Line.chars, 0, 0, 0, true⟩ = false := by
  cases lines with
  | nil => decide
  | cons l lines =>
    have hkey := (h l List.mem_cons_self).startsKey (lines.flatMap Line.chars)
    exact ⟨hkey.atStartMark 0 0, hkey.atEndMark 0 0, hkey.atDirective⟩

/-- Without marks and directives in front, a document is its root and what may follow. -/
theorem document_eq {text : List Char} (hmeaningful : Meaningful text)
    (hstart : Cursor.atStartMark ⟨text, 0, 0, 0, true⟩ = false)
    (hend : Cursor.atEndMark ⟨text, 0, 0, 0, true⟩ = false)
    (hdirective : Cursor.atDirective ⟨text, 0, 0, 0, true⟩ = false) :
    document ⟨text, 0, 0, 0, true⟩
      = (do
          let found ← root standardHandles
          documentEnd (text.length + 1)
          return found : Scanner Document) ⟨text, 0, 0, 0, true⟩ := by
  have hdirectives (bound : Nat) : directivesFrom (bound + 1) { hasVersion := false, handles := [] }
      ⟨text, 0, 0, 0, true⟩
      = some ({ hasVersion := false, handles := [] }, ⟨text, 0, 0, 0, true⟩) := by
    rw [directivesFrom, bind_eq_of_some (toToken_meaningful hmeaningful), get_bind,
      if_neg (ne_true_of_eq_false hdirective)]
    rfl
  rw [document, get_bind, bind_eq_of_some (hdirectives _), get_bind,
    if_neg (ne_true_of_eq_false hstart), guard_bind (by rw [hend]; rfl)]
  rfl

/-- Lines are a document. -/
theorem document_lines {lines : List Line} (h : ∀ l ∈ lines, l.WellFormed) :
    ∃ last, document ⟨lines.flatMap Line.chars, 0, 0, 0, true⟩
      = some (if lines = [] then .empty else .mapping none (lines.map Line.entry), last) := by
  obtain ⟨line, offset, hroot⟩ := root_lines h
  obtain ⟨hstart, hend, hdirective⟩ := noMark_lines h
  have hbehind (bound : Nat) : documentEnd (bound + 1) ⟨[], line, 0, offset, true⟩
      = some ((), ⟨[], line, 0, offset, true⟩) := rfl
  refine ⟨⟨[], line, 0, offset, true⟩, ?_⟩
  rw [document_eq (meaningful_flatMap h) hstart hend hdirective, bind_eq_of_some hroot]
  exact bind_eq_of_some (hbehind _)

namespace Line

variable {l : Line}

/-- A line has only characters that a document may contain. -/
theorem WellFormed.isAllowed (h : l.WellFormed) : ∀ c ∈ l.chars, isAllowed c = true := by
  have hword {cs : List Char} (hcs : IsWord cs) (c : Char) (hc : c ∈ cs) :
      Yaml.isAllowed c = true :=
    (isWordChar_iff.1 (hcs.chars c hc)).1
  have htag (c : Char) (hc : c ∈ l.tagChars) : Yaml.isAllowed c = true := by
    rw [tagChars] at hc
    cases htag : l.tag with
    | none =>
      rw [htag] at hc
      cases hc
    | some name =>
      rw [htag, Option.elim_some, List.mem_cons, List.mem_append, List.mem_singleton] at hc
      rcases hc with rfl | hc | rfl
      · rfl
      · exact ((h.tag name htag).2 c hc).1
      · rfl
  intro c hc
  simp only [chars, List.mem_append, List.mem_cons, List.not_mem_nil, or_false] at hc
  rcases hc with hc | rfl | rfl | hc | hc | rfl
  · exact hword h.key c hc
  · rfl
  · rfl
  · exact htag c hc
  · exact hword h.value c hc
  · rfl

/-- A line starts with no byte order mark. -/
theorem WellFormed.head?_ne (h : l.WellFormed) (rest : List Char) :
    (l.chars ++ rest).head? ≠ some byteOrderMark := by
  obtain ⟨c, cs, hkey⟩ := List.exists_cons_of_ne_nil h.key.ne_nil
  have hc := (isWordChar_iff.1 (h.key.chars c (by rw [hkey]; exact List.mem_cons_self))).2.2.2.2
  rw [chars, hkey]
  exact fun h => hc (Option.some.inj h)

end Line

/-- A text without a byte order mark starts at its first character. -/
theorem ofText_eq {text : List Char} (h : text.head? ≠ some byteOrderMark) :
    Cursor.ofText text = ⟨text, 0, 0, 0, true⟩ := by
  cases text with
  | nil => rfl
  | cons c rest => rw [Cursor.ofText, if_neg (fun hc => h (congrArg some hc))]

theorem ofText_lines {lines : List Line} (h : ∀ l ∈ lines, l.WellFormed) :
    Cursor.ofText (lines.flatMap Line.chars) = ⟨lines.flatMap Line.chars, 0, 0, 0, true⟩ := by
  cases lines with
  | nil => rfl
  | cons l lines => exact ofText_eq ((h l List.mem_cons_self).head?_ne _)

/-- A text of lines is a document with their entries. -/
theorem read_lines {lines : List Line} (h : ∀ l ∈ lines, l.WellFormed) :
    Document.read (lines.flatMap Line.chars)
      = some (if lines = [] then .empty else .mapping none (lines.map Line.entry)) := by
  obtain ⟨last, hdocument⟩ := document_lines h
  have hall : (lines.flatMap Line.chars).all isAllowed = true := by
    rw [List.all_eq_true]
    intro c hc
    obtain ⟨l, hl, hc⟩ := List.mem_flatMap.1 hc
    exact (h l hl).isAllowed c hc
  rw [Document.read, if_pos hall, ofText_lines h, StateT.run, hdocument]
  rfl

/-! ### Scalars of a document -/

/-- Entries without anchors are their own scalars. -/
theorem mapM_number (lines : List Line) (a : Anchors) :
    (lines.map Line.entry).mapM Entry.number a
      = some (lines.map fun l => (.direct l.scalars.1, .direct l.scalars.2), a) := by
  induction lines with
  | nil => rfl
  | cons l lines ih =>
    have hnumber : Entry.number l.entry a
        = some ((.direct l.scalars.1, .direct l.scalars.2), a) := rfl
    rw [List.map_cons, List.mapM_cons, bind_eq_of_some hnumber, bind_eq_of_some ih]
    rfl

private theorem mapM_resolvePair (lines : List Line) (a : Anchors) :
    (lines.map fun l => (Reference.direct l.scalars.1, Reference.direct l.scalars.2)).mapM
      (resolvePair a) = some (lines.map Line.scalars) := by
  induction lines with
  | nil => rfl
  | cons l lines ih =>
    have hpair : resolvePair a (.direct l.scalars.1, .direct l.scalars.2) = some l.scalars := rfl
    rw [List.map_cons, List.mapM_cons, hpair, ih]
    rfl

/-- The scalars of lines are their keys and values. -/
theorem resolve_lines (lines : List Line) :
    Document.resolve (if lines = [] then .empty else .mapping none (lines.map Line.entry))
      = some (lines.map Line.scalars) := by
  split
  · rename_i h
    subst h
    rfl
  · rw [Document.resolve, StateT.run, mapM_number]
    exact mapM_resolvePair lines _

end FakeQuant.Yaml
