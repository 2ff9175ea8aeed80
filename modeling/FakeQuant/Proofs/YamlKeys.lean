import FakeQuant.Proofs.YamlLines

/-!
# Keys of a document

A text that goes on with a key behind some plain lines is a document with that key or no document at
all, whatever stands behind the colon: the scanners only ever add entries, and no later entry takes
an earlier one back. `IsKey` says when characters are a key, in terms of what the scanner of nodes
makes of them; every word is one (`isKey_of_isWord`). A document that is read has the key
(`exists_hasName_of_read`), and it is still there among the scalars (`exists_text_of_resolve`).
-/

namespace FakeQuant.Yaml

/-- What a scanner of two steps gives, it gives by the first step and then the second. -/
theorem exists_of_bind_eq_some {σ α β : Type} {m : StateT σ Option α} {f : α → StateT σ Option β}
    {s s'' : σ} {b : β} (h : (m >>= f) s = some (b, s'')) :
    ∃ a s', m s = some (a, s') ∧ f a s' = some (b, s'') := by
  obtain ⟨⟨a, s'⟩, hm, hf⟩ := Option.bind_eq_some_iff.1 h
  exact ⟨a, s', hm, hf⟩

/-! ### Keys -/

/-- The characters are a key of this name: in front of a colon that ends a word they start a line,
and the scanner takes them for a scalar with that text, without anchor and tag. -/
structure IsKey (chars name : List Char) : Prop where
  startsKey : ∀ rest, StartsKey (chars ++ ':' :: rest)
  no_byteOrderMark : ∀ rest, (chars ++ ':' :: rest).head? ≠ some byteOrderMark
  node : ∀ rest, atWordEnd rest = true → ∀ line offset, ∃ style c,
    Yaml.node standardHandles .key ⟨chars ++ ':' :: rest, line, 0, offset, true⟩
      = some (.scalar .none ⟨name, style⟩, c)

/-- A word is a key of its own name. -/
theorem isKey_of_isWord {cs : List Char} (h : IsWord cs) : IsKey cs cs where
  startsKey := h.startsKey
  no_byteOrderMark := by
    obtain ⟨c, cs, rfl⟩ := List.exists_cons_of_ne_nil h.ne_nil
    obtain ⟨-, -, -, -, hmark⟩ := isWordChar_iff.1 (h.chars c List.mem_cons_self)
    exact fun rest hhead => hmark (Option.some.inj hhead)
  node := fun _ hrest line offset =>
    ⟨.plain, _, node_key h hrest standardHandles line 0 offset true⟩

/-- The entry has a key of this name, without anchor and tag. -/
def HasName (name : List Char) (e : Entry) : Prop :=
  ∃ style, e.1 = .scalar .none ⟨name, style⟩

section Document

variable {chars name rest : List Char} {lines : List Line}

/-- If an entry is read from a key on, it has this key. -/
theorem hasName_of_simpleEntry (hkey : IsKey chars name) (hrest : atWordEnd rest = true)
    {line offset : Nat} {e : Entry} {last : Cursor}
    (h : simpleEntry standardHandles 0 ⟨chars ++ ':' :: rest, line, 0, offset, true⟩
      = some (e, last)) : HasName name e := by
  obtain ⟨style, c, hnode⟩ := hkey.node rest hrest line offset
  rw [simpleEntry, get_bind, bind_eq_of_some hnode] at h
  -- only the key matters of what is read from here on
  obtain ⟨_, _, -, h⟩ := exists_of_bind_eq_some h
  obtain ⟨_, _, -, h⟩ := exists_of_bind_eq_some h
  obtain ⟨_, _, -, h⟩ := exists_of_bind_eq_some h
  obtain ⟨_, _, -, h⟩ := exists_of_bind_eq_some h
  obtain ⟨value, _, -, h⟩ := exists_of_bind_eq_some h
  cases h
  exact ⟨style, rfl⟩

/-- Lines in front of a key start like a key. -/
theorem startsKey_lines (hlines : ∀ l ∈ lines, l.WellFormed) (hkey : IsKey chars name) :
    StartsKey (lines.flatMap Line.chars ++ (chars ++ ':' :: rest)) := by
  cases lines with
  | nil => exact hkey.startsKey rest
  | cons l lines =>
    rw [List.flatMap_cons, List.append_assoc]
    exact (hlines l List.mem_cons_self).startsKey _

/-- If the entries of some lines and a key behind them are read, one of them has this key: by
induction on the lines, each of which is read up to the next. -/
theorem exists_hasName_of_entriesAt (hlines : ∀ l ∈ lines, l.WellFormed) (hkey : IsKey chars name)
    (hrest : atWordEnd rest = true) {bound line offset : Nat} {entries : List Entry}
    {last : Cursor}
    (h : entriesAt standardHandles 0 bound
        ⟨lines.flatMap Line.chars ++ (chars ++ ':' :: rest), line, 0, offset, true⟩
      = some (entries, last)) : ∃ e ∈ entries, HasName name e := by
  induction lines generalizing bound line offset entries with
  | nil =>
    cases bound with
    | zero => cases h
    | succ bound =>
      rw [List.flatMap_nil, List.nil_append, entriesAt_eq (hkey.startsKey rest)] at h
      obtain ⟨entry, c, hentry, h⟩ := exists_of_bind_eq_some h
      obtain ⟨others, c', -, h⟩ := exists_of_bind_eq_some h
      cases h
      exact ⟨entry, List.mem_cons_self, hasName_of_simpleEntry hkey hrest hentry⟩
  | cons l lines ih =>
    cases bound with
    | zero => cases h
    | succ bound =>
      have hothers := fun m hm => hlines m (List.mem_cons_of_mem l hm)
      have hbehind : StartsKey (lines.flatMap Line.chars ++ (chars ++ ':' :: rest)) :=
        startsKey_lines hothers hkey
      obtain ⟨offset', hentry⟩ :=
        simpleEntry_line (hlines l List.mem_cons_self) hbehind.meaningful line offset
      rw [entriesAt_eq (startsKey_lines hlines hkey), List.flatMap_cons, List.append_assoc,
        bind_eq_of_some hentry] at h
      obtain ⟨others, c, hread, h⟩ := exists_of_bind_eq_some h
      cases h
      obtain ⟨e, he, hname⟩ := ih hothers hread
      exact ⟨e, List.mem_cons_of_mem _ he, hname⟩

/-- A document that is read from lines and a key behind them is a mapping with this key. -/
theorem exists_hasName_of_read (hlines : ∀ l ∈ lines, l.WellFormed) (hkey : IsKey chars name)
    (hrest : atWordEnd rest = true) {d : Document}
    (h : Document.read (lines.flatMap Line.chars ++ (chars ++ ':' :: rest)) = some d) :
    ∃ entries, d = .mapping none entries ∧ ∃ e ∈ entries, HasName name e := by
  have hstarts : StartsKey (lines.flatMap Line.chars ++ (chars ++ ':' :: rest)) :=
    startsKey_lines hlines hkey
  have hmark : (lines.flatMap Line.chars ++ (chars ++ ':' :: rest)).head? ≠ some byteOrderMark := by
    cases lines with
    | nil => exact hkey.no_byteOrderMark rest
    | cons l lines =>
      rw [List.flatMap_cons, List.append_assoc]
      exact (hlines l List.mem_cons_self).head?_ne _
  rw [Document.read] at h
  split at h
  · obtain ⟨⟨d, last⟩, hdocument, rfl⟩ := Option.map_eq_some_iff.1 h
    rw [ofText_eq hmark, StateT.run, document_eq hstarts.meaningful (hstarts.atStartMark 0 0)
      (hstarts.atEndMark 0 0) hstarts.atDirective] at hdocument
    obtain ⟨found, c, hroot, hdocument⟩ := exists_of_bind_eq_some hdocument
    obtain ⟨_, _, -, hdocument⟩ := exists_of_bind_eq_some hdocument
    cases hdocument
    rw [root_eq hstarts] at hroot
    obtain ⟨entries, c', hentries, hroot⟩ := exists_of_bind_eq_some hroot
    cases hroot
    exact ⟨entries, rfl, exists_hasName_of_entriesAt hlines hkey hrest hentries⟩
  · cases h

/-! ### Scalars -/

/-- Whatever an item of a list is turned into is among the results. -/
theorem exists_mem_of_mapM {α β : Type} {f : α → Option β} {a : α} {as : List α} (ha : a ∈ as)
    {bs : List β} (h : as.mapM f = some bs) : ∃ b ∈ bs, f a = some b := by
  induction as generalizing bs with
  | nil => cases ha
  | cons a' as ih =>
    rw [List.mapM_cons] at h
    obtain ⟨b, hb, h⟩ := Option.bind_eq_some_iff.1 h
    obtain ⟨bs', hbs, h⟩ := Option.bind_eq_some_iff.1 h
    cases h
    rcases List.mem_cons.1 ha with rfl | ha
    · exact ⟨b, List.mem_cons_self, hb⟩
    · obtain ⟨b', hb', hf⟩ := ih ha hbs
      exact ⟨b', List.mem_cons_of_mem b hb', hf⟩

/-- An entry with a key is numbered, and the key stands for itself. -/
theorem exists_direct_of_mapM {e : Entry} (hname : HasName name e) {entries : List Entry}
    (he : e ∈ entries) {a a' : Anchors} {pairs : List (Reference × Reference)}
    (h : entries.mapM Entry.number a = some (pairs, a')) :
    ∃ pair ∈ pairs, ∃ style, pair.1 = .direct ⟨none, name, style⟩ := by
  induction entries generalizing a pairs with
  | nil => cases he
  | cons e' entries ih =>
    rw [List.mapM_cons] at h
    obtain ⟨pair, a₁, hpair, h⟩ := exists_of_bind_eq_some h
    obtain ⟨pairs', a₂, hpairs, h⟩ := exists_of_bind_eq_some h
    cases h
    rcases List.mem_cons.1 he with rfl | he
    · obtain ⟨style, hkey⟩ := hname
      rw [Entry.number, hkey] at hpair
      obtain ⟨key, a₃, hnumber, hvalue⟩ := exists_of_bind_eq_some hpair
      obtain ⟨value, a₄, -, hreturn⟩ := exists_of_bind_eq_some hvalue
      cases hnumber
      cases hreturn
      exact ⟨_, List.mem_cons_self, style, rfl⟩
    · obtain ⟨pair', hpair', hdirect⟩ := ih he hpairs
      exact ⟨pair', List.mem_cons_of_mem pair hpair', hdirect⟩

/-- The key is still there when aliases have been replaced. -/
theorem exists_text_of_resolve {e : Entry} (hname : HasName name e) {anchor : Option (List Char)}
    {entries : List Entry} (he : e ∈ entries) {scalars : List (Scalar × Scalar)}
    (h : (Document.mapping anchor entries).resolve = some scalars) :
    ∃ pair ∈ scalars, pair.1.text = name := by
  obtain ⟨⟨pairs, anchors⟩, hnumber, hresolve⟩ := Option.bind_eq_some_iff.1 h
  obtain ⟨pair, hpair, style, hdirect⟩ := exists_direct_of_mapM hname he hnumber
  obtain ⟨resolved, hmem, hpairResolved⟩ := exists_mem_of_mapM hpair hresolve
  rw [resolvePair, hdirect] at hpairResolved
  obtain ⟨key, hkey, hvalue⟩ := Option.bind_eq_some_iff.1 hpairResolved
  obtain ⟨value, -, hpairEq⟩ := Option.bind_eq_some_iff.1 hvalue
  cases hkey
  cases hpairEq
  exact ⟨_, hmem, rfl⟩

end Document

end FakeQuant.Yaml
