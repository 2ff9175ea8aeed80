import FakeQuant.Proofs.Runs

/-!
# Loading a scope in parts

A load from a dictionary that is not strict takes the entries that are there and keeps the current
values for the others. `StateDict.fault?` is what can be wrong with a load: first an entry of the
scales with a wrong number of values, then one of the zero points, and only then keys that a strict
load misses.

Dictionaries that are loaded one after the other act as one dictionary in which the later ones come
first and hide what the earlier ones have (`Quantizer.loadAll_eq`). So parts of a scope can be
loaded in any order and any number of times: `Quantizer.loads_in_parts`.
-/

namespace FakeQuant

/-! ### What can be wrong with a load -/

namespace StateDict

/-- What is wrong with the entry under a key, if the key is there: it has not one value for each
channel. A single value does not count for all of them. -/
def entryFault? (state : StateDict) (key what : String) (channels : Nat) : Option Error :=
  match state.lookup key with
  | none => none
  | some values =>
    if values.length = channels then none
    else some (.shapeMismatch what [channels] [values.length])

/-- What is wrong with a load of a scope, in this order: the number of scales, the number of zero
points, keys that a strict load misses. -/
def fault? (state : StateDict) (scope : String) (strict : Bool) (channels : Nat) : Option Error :=
  (state.entryFault? (scaleKey scope) "scale" channels).or <|
    (state.entryFault? (zeroPointKey scope) "zero_point" channels).or <|
      if strict = true ∧ state.missing scope ≠ [] then some (.missingState (state.missing scope))
      else none

/-- A wrong number of values is reported before a missing key. -/
example : fault? [("zero_point", [0])] "" true 2 = some (.shapeMismatch "zero_point" [2] [1]) :=
  rfl

theorem failsWith_row (state : StateDict) (key what : String) (channels : Nat) :
    FailsWith (state.row key what channels) (state.entryFault? key what channels) := by
  rw [row, entryFault?]
  cases state.lookup key with
  | none => exact ⟨none, rfl⟩
  | some values => exact failsWith_ite _ (some (Row.ofList values)) _

end StateDict

namespace Quantizer

variable {σ : Type}

/-- A load fails with what is wrong with it. -/
theorem failsWith_loadStateDict (q : Quantizer σ) (state : StateDict) (scope : String)
    (strict : Bool) :
    FailsWith (q.loadStateDict state scope strict) (state.fault? scope strict q.channels) := by
  refine (state.failsWith_row _ _ _).or fun scale hscale => ?_
  refine (state.failsWith_row _ _ _).or fun zeroPoint hzero => ?_
  obtain ⟨-, rfl⟩ := StateDict.row_eq_ok.mp hscale
  obtain ⟨-, rfl⟩ := StateDict.row_eq_ok.mp hzero
  rw [Option.isNone_map, Option.isNone_map, ← StateDict.missing_eq]
  dsimp only
  by_cases hstrict : strict = true ∧ state.missing scope ≠ []
  · rw [if_pos hstrict, if_pos hstrict]
    rfl
  · rw [if_neg hstrict, if_neg hstrict]
    exact ⟨_, rfl⟩

/-! ### Several loads -/

/-- The quantizer after loads of a scope from one dictionary after the other, none of them
strict. -/
def loadAll (q : Quantizer σ) (states : List StateDict) (scope : String) :
    Except Error (Quantizer σ) :=
  states.foldlM (fun q state => Prod.fst <$> q.loadStateDict state scope false) q

end Quantizer

namespace StateDict

variable {state later earlier : StateDict} {states : List StateDict} {scope key : String}

/-- Entries of a dictionary in front of another one hide those of the other one, as writing them
later does. -/
theorem parameters_append (later earlier : StateDict) (scope : String) (old : Parameters) :
    (later ++ earlier).parameters scope old =
      later.parameters scope (earlier.parameters scope old) := by
  simp only [parameters, List.lookup_append, Option.map_or, Option.getD_or]

/-- Under a key, dictionaries one after the other have what the first one with the key has. -/
theorem lookup_flatten (states : List StateDict) (key : String) :
    List.lookup key states.flatten = states.findSome? fun state => state.lookup key := by
  induction states with
  | nil => rfl
  | cons state states ih =>
    rw [List.flatten_cons, List.lookup_append, ih, List.findSome?_cons]
    cases List.lookup key state <;> rfl

/-- If each dictionary has nothing or `found` under a key and one of them has `found`, so have all
of them together. -/
theorem lookup_flatten_of_agree {found : Option (List Single)}
    (hagree : ∀ state ∈ states, state.lookup key = none ∨ state.lookup key = found)
    (hsome : ∃ state ∈ states, state.lookup key = found) :
    List.lookup key states.flatten = found := by
  rw [lookup_flatten]
  cases hfirst : states.findSome? fun state => state.lookup key with
  | none =>
    obtain ⟨state, hmem, hstate⟩ := hsome
    rw [← hstate, List.findSome?_eq_none_iff.mp hfirst state hmem]
  | some values =>
    obtain ⟨state, hmem, hstate⟩ := List.exists_of_findSome?_eq_some hfirst
    rcases hagree state hmem with hnone | hfound
    · rw [hnone] at hstate
      cases hstate
    · rw [← hstate, hfound]

/-- The key of one of the two lists in a scope. -/
def IsKey (scope key : String) : Prop :=
  key = scaleKey scope ∨ key = zeroPointKey scope

/-- Under the keys of a scope each of the dictionaries has nothing or what the whole has, and what
the whole has is in one of them. -/
structure AddUpTo (states : List StateDict) (whole : StateDict) (scope : String) : Prop where
  agree : ∀ state ∈ states, ∀ key, IsKey scope key →
    state.lookup key = none ∨ state.lookup key = whole.lookup key
  cover : ∀ key, IsKey scope key → ∃ state ∈ states, state.lookup key = whole.lookup key

theorem AddUpTo.lookup_reverse {whole : StateDict} (h : AddUpTo states whole scope)
    (hkey : IsKey scope key) : List.lookup key states.reverse.flatten = whole.lookup key := by
  obtain ⟨state, hmem, hstate⟩ := h.cover key hkey
  exact lookup_flatten_of_agree
    (fun state hmem => h.agree state (List.mem_reverse.mp hmem) key hkey)
    ⟨state, List.mem_reverse.mpr hmem, hstate⟩

theorem AddUpTo.parameters_reverse {whole : StateDict} (h : AddUpTo states whole scope)
    (old : Parameters) :
    StateDict.parameters states.reverse.flatten scope old = whole.parameters scope old := by
  rw [parameters, parameters, h.lookup_reverse (.inl rfl), h.lookup_reverse (.inr rfl)]

theorem addUpTo_replicate (n : Nat) (whole : StateDict) (scope : String) :
    AddUpTo (List.replicate (n + 1) whole) whole scope where
  agree state hmem key _ := .inr (by rw [List.eq_of_mem_replicate hmem])
  cover _ _ := ⟨whole, List.mem_cons_self, rfl⟩

/-! ### Two parts of a scope -/

/-- Under the keys of a scope the whole has what the two parts have, and no key is in both. -/
structure IsSumOf (whole a b : StateDict) (scope : String) : Prop where
  disjoint : ∀ key, IsKey scope key → a.lookup key = none ∨ b.lookup key = none
  union : ∀ key, IsKey scope key → whole.lookup key = (a.lookup key).or (b.lookup key)

namespace IsSumOf

variable {whole a b : StateDict}

theorem symm (h : whole.IsSumOf a b scope) : whole.IsSumOf b a scope where
  disjoint key hkey := (h.disjoint key hkey).symm
  union key hkey := by
    rw [h.union key hkey]
    rcases h.disjoint key hkey with hnone | hnone
    · rw [hnone, Option.none_or, Option.or_none]
    · rw [hnone, Option.none_or, Option.or_none]

/-- A part has nothing under a key that the other part has. -/
theorem agree (h : whole.IsSumOf a b scope) (hkey : IsKey scope key) :
    a.lookup key = none ∨ a.lookup key = whole.lookup key := by
  rcases h.disjoint key hkey with hnone | hnone
  · exact .inl hnone
  · rw [h.union key hkey, hnone, Option.or_none]
    exact .inr rfl

theorem lookup_eq_some (h : whole.IsSumOf a b scope) (hkey : IsKey scope key)
    {values : List Single} (hlookup : whole.lookup key = some values) :
    a.lookup key = some values ∨ b.lookup key = some values := by
  rw [h.union key hkey, Option.or_eq_some_iff] at hlookup
  exact hlookup.imp_right And.right

theorem serves {channels : Nat} (h : whole.IsSumOf a b scope)
    (ha : a.Serves scope false channels) (hb : b.Serves scope false channels) :
    whole.Serves scope false channels where
  scale values hvalues := by
    rcases h.lookup_eq_some (.inl rfl) hvalues with hpart | hpart
    · exact ha.scale values hpart
    · exact hb.scale values hpart
  zeroPoint values hvalues := by
    rcases h.lookup_eq_some (.inr rfl) hvalues with hpart | hpart
    · exact ha.zeroPoint values hpart
    · exact hb.zeroPoint values hpart
  complete := nofun

/-- The whole and its parts add up to the whole if the whole or both parts are among them. -/
theorem addUpTo (h : whole.IsSumOf a b scope)
    (hdrawn : ∀ state ∈ states, state = a ∨ state = b ∨ state = whole)
    (hall : whole ∈ states ∨ a ∈ states ∧ b ∈ states) : AddUpTo states whole scope where
  agree state hmem key hkey := by
    rcases hdrawn state hmem with rfl | rfl | rfl
    · exact h.agree hkey
    · exact h.symm.agree hkey
    · exact .inr rfl
  cover key hkey := by
    rcases hall with hwhole | ⟨ha, hb⟩
    · exact ⟨whole, hwhole, rfl⟩
    · rcases h.disjoint key hkey with hnone | hnone
      · refine ⟨b, hb, ?_⟩
        rw [h.union key hkey, hnone, Option.none_or]
      · refine ⟨a, ha, ?_⟩
        rw [h.union key hkey, hnone, Option.or_none]

end IsSumOf

/-- One dictionary in front of another one is their sum when they have no key in common. -/
theorem isSumOf_append {a b : StateDict}
    (h : ∀ key, IsKey scope key → a.lookup key = none ∨ b.lookup key = none) :
    (a ++ b).IsSumOf a b scope where
  disjoint := h
  union _ _ := List.lookup_append

end StateDict

namespace Quantizer

variable {σ : Type} {q : Quantizer σ} {scope : String}

/-- A load keeps the number of channels. -/
theorem channels_loaded {state : StateDict} {strict : Bool}
    (h : state.Serves scope strict q.channels) :
    (q.replaceParameters (state.parameters scope q.parameters)).channels = q.channels := by
  change (((state.lookup (scaleKey scope)).map Row.ofList).getD q.parameters.scale).length = _
  cases hscale : state.lookup (scaleKey scope) with
  | none => rfl
  | some values => exact h.scale values hscale

/-- **Loads one after the other** write what the dictionaries hold in reverse order, the later ones
in front of the earlier ones. By induction on the loads: each of them finds as many channels as the
first one. -/
theorem loadAll_eq {states : List StateDict}
    (h : ∀ state ∈ states, state.Serves scope false q.channels) :
    q.loadAll states scope =
      .ok (q.replaceParameters
        (StateDict.parameters states.reverse.flatten scope q.parameters)) := by
  induction states generalizing q with
  | nil => rfl
  | cons state states ih =>
    have hstate := h state List.mem_cons_self
    have hload := loadStateDict_eq_ok.mpr ⟨hstate, rfl, rfl⟩
    have hrest : ∀ state' ∈ states, state'.Serves scope false
        (q.replaceParameters (state.parameters scope q.parameters)).channels := by
      intro state' hmem
      rw [channels_loaded hstate]
      exact h state' (List.mem_cons_of_mem state hmem)
    rw [loadAll, List.foldlM_cons, hload, List.reverse_cons, List.flatten_append,
      List.flatten_singleton, StateDict.parameters_append]
    exact ih hrest

/-- Dictionaries that add up to one are loaded as that one is. -/
theorem loadAll_of_addUpTo {states : List StateDict} {whole : StateDict}
    (h : ∀ state ∈ states, state.Serves scope false q.channels)
    (hsum : StateDict.AddUpTo states whole scope) :
    q.loadAll states scope = .ok (q.replaceParameters (whole.parameters scope q.parameters)) := by
  rw [loadAll_eq h, hsum.parameters_reverse]

/-- **Loading a scope in parts**, into a quantizer that can be reached. A load fails with what is
wrong with the dictionary; otherwise it writes the entries that are there and returns the keys that
are not. Take two dictionaries that are accepted when the load is not strict, with no key of the
scope in common, and the sum of both. In whatever order and however often these are loaded, if both
parts or the sum are among them, the quantizer is the one after a single load of the sum. And one of
them has the same effect loaded many times as loaded once. -/
theorem loads_in_parts [Observer σ] {channels : Nat} (h : q.Reachable channels) (scope : String) :
    (∀ state strict,
      FailsWith (q.loadStateDict state scope strict) (state.fault? scope strict channels) ∧
      ∀ done, q.loadStateDict state scope strict = .ok done →
        done = (q.replaceParameters (state.parameters scope q.parameters), state.missing scope)) ∧
    ∀ {a b whole : StateDict}, (∃ done, q.loadStateDict a scope false = .ok done) →
      (∃ done, q.loadStateDict b scope false = .ok done) → whole.IsSumOf a b scope →
        (∀ states : List StateDict, (∀ state ∈ states, state = a ∨ state = b ∨ state = whole) →
          whole ∈ states ∨ a ∈ states ∧ b ∈ states →
            q.loadAll states scope =
              .ok (q.replaceParameters (whole.parameters scope q.parameters))) ∧
        ∀ state, state = a ∨ state = b ∨ state = whole → ∀ n,
          q.loadAll (List.replicate (n + 1) state) scope =
            .ok (q.replaceParameters (state.parameters scope q.parameters)) := by
  have hchannels : q.channels = channels := h.hasLength.1.scale
  subst hchannels
  refine ⟨fun state strict => ⟨q.failsWith_loadStateDict state scope strict, ?_⟩, ?_⟩
  · rintro ⟨q', missing⟩ hload
    obtain ⟨-, rfl, rfl⟩ := loadStateDict_eq_ok.mp hload
    rfl
  · rintro a b whole ⟨⟨qa, missing⟩, ha⟩ ⟨⟨qb, missing'⟩, hb⟩ hsum
    have hserves : ∀ state, state = a ∨ state = b ∨ state = whole →
        state.Serves scope false q.channels := by
      have ha := (loadStateDict_eq_ok.mp ha).1
      have hb := (loadStateDict_eq_ok.mp hb).1
      rintro state (rfl | rfl | rfl)
      · exact ha
      · exact hb
      · exact hsum.serves ha hb
    refine ⟨fun states hdrawn hall => ?_, fun state hstate n => ?_⟩
    · exact loadAll_of_addUpTo (fun state hmem => hserves state (hdrawn state hmem))
        (hsum.addUpTo hdrawn hall)
    · refine loadAll_of_addUpTo (fun state' hmem => ?_) (StateDict.addUpTo_replicate n state scope)
      rw [List.eq_of_mem_replicate hmem]
      exact hserves state hstate

/-- Two scales in one dictionary and two zero points in another one, for two channels. -/
theorem loads_in_two_parts :
    let c : Config := { Config.default with channelLength := some 2 }
    let o : ConstantObserver :=
      { parameters := .single 2 3, dtype := .quint8, scheme := .perChannelAffine 0, batches := 0 }
    let a : StateDict := [("fq.scale", [2, 3])]
    let b : StateDict := [("fq.zero_point", [4, 5])]
    ∃ q, ofConfig c o = .ok q ∧
      q.loadStateDict a "fq." true = .error (.missingState ["fq.zero_point"]) ∧
      q.loadAll [a, b] "fq." = .ok (q.replaceParameters ⟨.ofList [2, 3], .ofList [4, 5]⟩) ∧
      q.loadAll [b, b, a] "fq." = .ok (q.replaceParameters ⟨.ofList [2, 3], .ofList [4, 5]⟩) := by
  intro c o a b
  have hvalid : c.validate = .ok () :=
    Config.validate_eq_ok.mpr ⟨by decide, by decide, by decide +kernel, fun _ h => nomatch h⟩
  have h : ofConfig c o = .ok _ :=
    ofConfig_eq_ok.mpr
      ⟨hvalid, ⟨0, 255, by decide⟩, 2, Grid.ofBounds_eq_ok.mpr ⟨rfl, rfl⟩, rfl, rfl, rfl⟩
  obtain ⟨hload, hparts⟩ := loads_in_parts (reachable_ofConfig h) "fq."
  have hsum : (a ++ b).IsSumOf a b "fq." := by
    refine StateDict.isSumOf_append fun key hkey => ?_
    rcases hkey with rfl | rfl
    · exact .inr (by decide)
    · exact .inl (by decide)
  obtain ⟨hall, -⟩ := hparts (hload a false).1 (hload b false).1 hsum
  exact ⟨_, h, (hload a true).1, hall [a, b] (by simp) (.inr (by simp)),
    hall [b, b, a] (by simp) (.inr (by simp))⟩

end Quantizer

end FakeQuant
