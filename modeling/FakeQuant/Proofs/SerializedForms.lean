import FakeQuant.Proofs.JsonRecords

/-!
# Serialized forms are lossless

The compact JSON texts of grids, storage types, modes and schemes are read back, so that different
values have different texts (`Lossless`). A grid is read through the raw record of its two bounds
(`Grid.decoder_of_bounds`): it does not matter in which of its forms the record stands, and bounds
that are not in order are refused whatever the text is. A scheme's axis is read back as long as it
fits 64 bits; past that the reader takes the digits for a double.
-/

namespace FakeQuant

open Json

/-- The values of a kind that can be written are read back from what is written for them, and so
different ones are written differently. -/
structure Lossless {α : Type} (write : α → List Char) (decoder : Decoder α)
    (writable : α → Prop) : Prop where
  read_back : ∀ a, writable a → decoder.run (String.ofList (write a)) = .ok a
  injective : ∀ a b, writable a → writable b → write a = write b → a = b

theorem Lossless.of_decoder {α : Type} {write : α → List Char} {decoder : Decoder α}
    {writable : α → Prop}
    (h : ∀ a, writable a → ∀ rest, decoder (write a ++ rest) = .ok (a, rest)) :
    Lossless write decoder writable where
  read_back := by
    intro a ha
    have hread := h a ha []
    rw [List.append_nil] at hread
    exact Decoder.run_ofList hread
  injective := by
    intro a b ha hb hab
    have hread := h a ha []
    rw [hab, h b hb []] at hread
    exact (congrArg Prod.fst (Except.ok.inj hread)).symm

/-! ### Names -/

theorem Dtype.decoder_json (d : Dtype) (rest : List Char) :
    decoder (d.json ++ rest) = .ok (d, rest) := by
  have hname : IsPlainName d.name := by cases d <;> decide
  exact choice_inQuotes hname d.ofName?_name rest

theorem Mode.decoder_json (m : Mode) (rest : List Char) :
    decoder (m.json ++ rest) = .ok (m, rest) := by
  have hname : IsPlainName m.name := by cases m <;> decide
  exact choice_inQuotes hname m.ofName?_name rest

/-! ### Grids -/

/-- The two bounds of a grid as they are read, in order or not. -/
def Grid.bounds : Decoder (Int32 × Int32) :=
  pair "qmin" "qmax" int32

/-- A grid is read by reading its bounds and then comparing them. -/
theorem Grid.decoder_of_bounds {chars rest : List Char} {low high : Int32}
    (h : bounds chars = .ok ((low, high), rest)) :
    decoder chars =
      if h : low < high then .ok (⟨low, high, h⟩, rest) else .error .mismatched := by
  rw [decoder]
  show (bounds >>= _) chars = _
  rw [bind_eq_of_ok h]
  dsimp only
  unfold ofBounds
  by_cases hlt : low < high
  · rw [dif_pos hlt, dif_pos hlt]
    rfl
  · rw [dif_neg hlt, dif_neg hlt]
    rfl

/-- So the bounds of a grid that was read are what stood in the text. -/
theorem Grid.bounds_of_decoder {chars rest : List Char} {g : Grid}
    (h : decoder chars = .ok (g, rest)) : bounds chars = .ok ((g.low, g.high), rest) := by
  cases hbounds : bounds chars with
  | error fault =>
    have herror : decoder chars = .error fault := by
      rw [decoder]
      show (bounds >>= _) chars = _
      simp only [bind, StateT.bind, Except.bind, hbounds]
    rw [herror] at h
    cases h
  | ok taken =>
    obtain ⟨⟨low, high⟩, rest'⟩ := taken
    rw [decoder_of_bounds hbounds] at h
    split at h
    · cases h
      rfl
    · cases h

/-- Whatever text the bounds are read from, the grid is read from it if they are in order. -/
theorem Grid.run_decoder {text : String} {low high : Int32}
    (h : bounds.run text = .ok (low, high)) :
    decoder.run text =
      if h : low < high then .ok ⟨low, high, h⟩ else .error .mismatched := by
  obtain ⟨rest, hread, hrest⟩ := Decoder.run_eq_ok.1 h
  have hdecoder := decoder_of_bounds hread
  split
  · next hlt =>
    rw [dif_pos hlt] at hdecoder
    exact Decoder.run_eq_ok.2 ⟨rest, hdecoder, hrest⟩
  · next hlt =>
    rw [dif_neg hlt] at hdecoder
    exact Decoder.run_eq_error hdecoder

theorem Grid.run_bounds {text : String} {g : Grid} (h : decoder.run text = .ok g) :
    bounds.run text = .ok (g.low, g.high) := by
  obtain ⟨rest, hread, hrest⟩ := Decoder.run_eq_ok.1 h
  exact Decoder.run_eq_ok.2 ⟨rest, bounds_of_decoder hread, hrest⟩

/-- A bound is an item of a record. -/
theorem readsBack_int32 (v : Int32) : ReadsBack int32 (integerChars v.toInt) v where
  read := by
    intro blanks rest hblanks hrest
    rw [← int32_integerChars v hrest, int32]
    simp only [bind, StateT.bind, peek_blanks hblanks]
  head := by
    obtain ⟨c, cs, hcs, hc⟩ := exists_head_integerChars v.toInt
    refine ⟨c, cs, hcs, isBlank_of_startsNumber hc, ?_⟩
    rintro rfl
    cases hc

/-- The three compact texts of two bounds: an object with the fields in either order, and a list. -/
def Grid.boundsTexts (low high : Int32) : List (List Char) :=
  [objectChars [("qmin", integerChars low.toInt), ("qmax", integerChars high.toInt)],
    objectChars [("qmax", integerChars high.toInt), ("qmin", integerChars low.toInt)],
    listChars [integerChars low.toInt, integerChars high.toInt]]

theorem Grid.bounds_append {low high : Int32} {chars : List Char}
    (h : chars ∈ boundsTexts low high) (rest : List Char) :
    bounds (chars ++ rest) = .ok ((low, high), rest) := by
  have hmin : IsPlainName "qmin" := by decide
  have hmax : IsPlainName "qmax" := by decide
  have hobject := pair_objectChars hmin hmax (by decide) (readsBack_int32 low)
    (readsBack_int32 high) rest
  have hlist := pair_listChars "qmin" "qmax" (readsBack_int32 low) (readsBack_int32 high) rest
  simp only [boundsTexts, List.mem_cons, List.not_mem_nil, or_false] at h
  rcases h with rfl | rfl | rfl
  · exact hobject.1
  · exact hobject.2
  · exact hlist

theorem Grid.decoder_json (g : Grid) (rest : List Char) :
    decoder (g.json ++ rest) = .ok (g, rest) := by
  have hbounds : bounds (g.json ++ rest) = .ok ((g.low, g.high), rest) :=
    bounds_append List.mem_cons_self rest
  rw [decoder_of_bounds hbounds, dif_pos g.low_lt_high]

/-! ### Schemes -/

namespace Scheme

/-- The kind of a scheme, as it is found by name. -/
def kind : Scheme → Kind
  | perTensorAffine => .complete perTensorAffine
  | perTensorSymmetric => .complete perTensorSymmetric
  | perChannelAffine _ => .channel perChannelAffine
  | perChannelSymmetric _ => .channel perChannelSymmetric

/-- The axis, if there is one, fits 64 bits. -/
def HasWritableAxis (s : Scheme) : Prop :=
  ∀ axis, s.axis? = some axis → axis < 2 ^ 64

theorem isPlainName_kindName (s : Scheme) : IsPlainName s.kindName := by
  have hnames : ∀ name ∈ ["per_tensor_affine", "per_tensor_symmetric", "per_channel_affine",
      "per_channel_symmetric"], IsPlainName name := by decide
  cases s <;> exact hnames _ (by simp [kindName])

theorem kind_decoder (s : Scheme) (rest : List Char) :
    Kind.decoder (inQuotes s.kindName ++ rest) = .ok (s.kind, rest) := by
  have hkind : Kind.ofName? s.kindName = some s.kind := by cases s <;> rfl
  have hstring : Json.name (inQuotes s.kindName ++ rest) = .ok (s.kindName, rest) := by
    have hpeek : peek (inQuotes s.kindName ++ rest) = .ok ('"', inQuotes s.kindName ++ rest) :=
      peek_cons rfl
    rw [Json.name, bind_eq_of_ok hpeek, if_pos rfl]
    exact string_inQuotes (show AllBlank [] from rfl) s.isPlainName_kindName rest
  rw [Kind.decoder, bind_eq_of_ok hstring, hkind]
  rfl

/-- The kind is read while there is none. -/
theorem entry_kind (s : Scheme) (others : List (String × Value)) (rest : List Char) :
    entry (none, others) (entryChars ("kind", inQuotes s.kindName) ++ rest)
      = .ok ((some s.kind, others), rest) := by
  have hkey : IsPlainName "kind" := by decide
  rw [entry, entryChars_bind hkey, if_pos rfl]
  show (colon >>= fun _ => Kind.decoder >>= fun kind => pure (some kind, others)) _ = _
  rw [colon_bind, bind_eq_of_ok (s.kind_decoder rest)]
  rfl

/-- The axis is read among the other entries. -/
theorem entry_axis (found : Option Kind) (others : List (String × Value)) {axis : Nat}
    (haxis : axis < 2 ^ 64) {rest : List Char} (hrest : EndsNumber rest) :
    entry (found, others) (entryChars ("axis", integerChars axis) ++ rest)
      = .ok ((found, ("axis", .number (.integer axis)) :: others), rest) := by
  have hkey : IsPlainName "axis" := by decide
  have hvalue : value maxDepth (integerChars axis ++ rest) = .ok (.number (.integer axis), rest) :=
    value_integerChars (by omega) (by omega) hrest maxDepth
  rw [entry, entryChars_bind hkey, if_neg (by decide), colon_bind, bind_eq_of_ok hvalue]
  rfl

/-- The entries of a scheme are read as its kind and what belongs to it, which make the scheme. -/
theorem exists_consumes (s : Scheme) (h : s.HasWritableAxis) :
    ∃ entries values,
      s.json = objectChars (("kind", inQuotes s.kindName) :: entries) ∧
      Consumes entry (none, [])
        ((("kind", inQuotes s.kindName) :: entries).map entryChars) (some s.kind, values) ∧
      ofEntries s.kind values = .ok s := by
  have hkind (rest : List Char) (_ : EndsNumber rest) := s.entry_kind [] rest
  cases s with
  | perTensorAffine => exact ⟨[], [], rfl, .cons hkind (.nil _), rfl⟩
  | perTensorSymmetric => exact ⟨[], [], rfl, .cons hkind (.nil _), rfl⟩
  | perChannelAffine axis =>
    have haxis (rest : List Char) (hrest : EndsNumber rest) :=
      entry_axis (some (kind (perChannelAffine axis))) [] (h axis rfl) hrest
    exact ⟨_, _, rfl, .cons hkind (.cons haxis (.nil _)), rfl⟩
  | perChannelSymmetric axis =>
    have haxis (rest : List Char) (hrest : EndsNumber rest) :=
      entry_axis (some (kind (perChannelSymmetric axis))) [] (h axis rfl) hrest
    exact ⟨_, _, rfl, .cons hkind (.cons haxis (.nil _)), rfl⟩

theorem decoder_json (s : Scheme) (h : s.HasWritableAxis) (rest : List Char) :
    decoder (s.json ++ rest) = .ok (s, rest) := by
  obtain ⟨entries, values, hjson, hconsumes, hscheme⟩ := s.exists_consumes h
  rw [hjson, objectChars_append, decoder, bind_eq_of_ok (peek_cons rfl), if_pos rfl,
    modify_tail_bind, bind_eq_of_ok (foldItems_entries hconsumes rest)]
  show (ofEntries s.kind values : Decoder Scheme) rest = _
  rw [hscheme]
  rfl

end Scheme

/-! ### All serialized forms -/

/-- **JSON is lossless and lets no bad range in.** Every grid, storage type, mode and scheme whose
axis fits 64 bits is read back from its compact text, and different ones have different texts. Any
two bounds are read from an object with the two fields in either order and from a list of the two:
as the grid between them if they are in order, and otherwise they are refused as data. Nothing else
makes a text a grid, however it is written: what is read as a grid is read as two bounds, which are
in order, and two bounds that are not in order are refused. -/
theorem json_is_lossless :
    (Lossless Grid.json Grid.decoder fun _ => True) ∧
    (Lossless Dtype.json Dtype.decoder fun _ => True) ∧
    (Lossless Mode.json Mode.decoder fun _ => True) ∧
    (Lossless Scheme.json Scheme.decoder Scheme.HasWritableAxis) ∧
    (∀ low high : Int32, ∀ chars ∈ Grid.boundsTexts low high,
      Grid.decoder.run (String.ofList chars) =
        if h : low < high then .ok ⟨low, high, h⟩ else .error .mismatched) ∧
    ∀ text,
      (∀ g, Grid.decoder.run text = .ok g →
        Grid.bounds.run text = .ok (g.low, g.high) ∧ g.low < g.high) ∧
      ∀ low high, Grid.bounds.run text = .ok (low, high) →
        Grid.decoder.run text =
          if h : low < high then .ok ⟨low, high, h⟩ else .error .mismatched := by
  have hbounds (low high : Int32) (chars : List Char) (h : chars ∈ Grid.boundsTexts low high) :
      Grid.bounds.run (String.ofList chars) = .ok (low, high) := by
    have hread := Grid.bounds_append h []
    rw [List.append_nil] at hread
    exact Decoder.run_ofList hread
  refine ⟨.of_decoder fun g _ => g.decoder_json, .of_decoder fun d _ => d.decoder_json,
    .of_decoder fun m _ => m.decoder_json, .of_decoder Scheme.decoder_json, ?_,
    fun text => ⟨?_, ?_⟩⟩
  · exact fun low high chars h => Grid.run_decoder (hbounds low high chars h)
  · exact fun g hg => ⟨Grid.run_bounds hg, g.low_lt_high⟩
  · exact fun low high h => Grid.run_decoder h

/-- The largest axis is read back; bounds are read in either order and from a list, and two equal
ones are refused. -/
theorem json_is_lossless_at_the_edge :
    let s : Scheme := .perChannelSymmetric 18446744073709551615
    let swapped := "\x7b\"qmax\":2147483647,\"qmin\":-2147483648\x7d"
    Scheme.decoder.run (String.ofList s.json) = .ok s ∧
    Grid.decoder.run swapped = .ok ⟨-2147483648, 2147483647, by decide⟩ ∧
    Grid.bounds.run swapped = .ok (-2147483648, 2147483647) ∧
    Grid.decoder.run "[5,5]" = .error .mismatched := by
  intro s swapped
  obtain ⟨-, -, -, hscheme, hgrid, htext⟩ := json_is_lossless
  have hswapped : Grid.decoder.run swapped = .ok ⟨-2147483648, 2147483647, by decide⟩ :=
    hgrid (-2147483648) 2147483647 _ (.tail _ (.head _))
  refine ⟨hscheme.read_back s ?_, hswapped, ((htext swapped).1 _ hswapped).1, ?_⟩
  · rintro axis ⟨⟩
    decide
  · exact hgrid 5 5 _ (.tail _ (.tail _ (.head _)))

end FakeQuant
