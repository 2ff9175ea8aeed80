import FakeQuant.Proofs.Writers

/-!
# Dictionaries that quantizers share

Many quantizers can keep their parameters in one dictionary, each under a scope of its own
(`StateDict.Shares`). A key tells its scope and which of the two lists it is for, whatever the
scopes look like: two scopes with a key in common are the same (`scaleKey_injective`,
`zeroPointKey_injective`), and no key is for both lists (`scaleKey_ne_zeroPointKey`). So in a shared
dictionary each quantizer finds its own parameters again: `load_from_shared_dictionary`.
-/

namespace FakeQuant

/-! ### Keys -/

theorem scaleKey_injective : Function.Injective scaleKey := by
  intro scope scope' h
  exact (String.append_left_inj "scale").mp h

theorem zeroPointKey_injective : Function.Injective zeroPointKey := by
  intro scope scope' h
  exact (String.append_left_inj "zero_point").mp h

/-- Keys for the two lists end in different characters. -/
theorem scaleKey_ne_zeroPointKey (scope scope' : String) :
    scaleKey scope ≠ zeroPointKey scope' := by
  intro h
  have hlast : (scaleKey scope).toList.getLast? = (zeroPointKey scope').toList.getLast? := by
    rw [h]
  have hscale : (scaleKey scope).toList.getLast? = some 'e' := by
    simp [scaleKey]
  have hzero : (zeroPointKey scope').toList.getLast? = some 't' := by
    simp [zeroPointKey]
  rw [hscale, hzero] at hlast
  cases hlast

namespace StateDict

/-! ### Looking up -/

/-- A key under which there is one value only is looked up to that value. -/
theorem lookup_of_unique {state : StateDict} {key : String} {values : List Single}
    (hmem : (key, values) ∈ state)
    (hunique : ∀ values', (key, values') ∈ state → values' = values) :
    state.lookup key = some values := by
  cases hlookup : state.lookup key with
  | none =>
    have hne := List.lookup_eq_none_iff.mp hlookup _ hmem
    simp at hne
  | some found =>
    obtain ⟨before, after, rfl, -⟩ := List.lookup_eq_some_iff.mp hlookup
    have hfound : found = values := hunique found (by simp)
    rw [hfound]

/-- Only entries with the key matter for looking it up. -/
theorem lookup_filter {state : StateDict} {key : String} {p : String × List Single → Bool}
    (hkey : ∀ values, p (key, values) = true) :
    (state.filter p).lookup key = state.lookup key := by
  induction state with
  | nil => rfl
  | cons entry state ih =>
    obtain ⟨key', values⟩ := entry
    by_cases hkept : p (key', values) = true
    · rw [List.filter_cons_of_pos hkept, List.lookup_cons, List.lookup_cons, ih]
    · have hne : (key == key') = false := by
        refine beq_false_of_ne fun h => hkept ?_
        rw [← h]
        exact hkey values
      rw [List.filter_cons_of_neg hkept, List.lookup_cons, hne, ih]

/-- The entries under the two keys of a scope. -/
def restrict (state : StateDict) (scope : String) : StateDict :=
  state.filter fun e => e.1 = scaleKey scope ∨ e.1 = zeroPointKey scope

theorem lookup_scaleKey_restrict (state : StateDict) (scope : String) :
    (state.restrict scope).lookup (scaleKey scope) = state.lookup (scaleKey scope) :=
  lookup_filter fun _ => decide_eq_true (.inl rfl)

theorem lookup_zeroPointKey_restrict (state : StateDict) (scope : String) :
    (state.restrict scope).lookup (zeroPointKey scope) = state.lookup (zeroPointKey scope) :=
  lookup_filter fun _ => decide_eq_true (.inr rfl)

/-! ### Sharing -/

/-- The dictionary holds the entries of all these quantizers, each under a scope of its own, and
other entries under none of their keys, in any order. -/
structure Shares {ι : Type} {σ : ι → Type} (state : StateDict) (q : ∀ i, Quantizer (σ i))
    (scope : ι → String) (others : StateDict) : Prop where
  scopes : Function.Injective scope
  entries : ∀ e, e ∈ state ↔ e ∈ others ∨ ∃ i, e ∈ (q i).stateDict (scope i)
  others : ∀ e ∈ others, ∀ i, e.1 ≠ scaleKey (scope i) ∧ e.1 ≠ zeroPointKey (scope i)

variable {ι : Type} {σ : ι → Type} {q : ∀ i, Quantizer (σ i)} {scope : ι → String}
  {state others : StateDict}

/-- One key, one list: also in the entries of different quantizers. -/
theorem values_eq_of_mem_stateDict (hscopes : Function.Injective scope) {i j : ι} {key : String}
    {values values' : List Single} (h : (key, values) ∈ (q i).stateDict (scope i))
    (h' : (key, values') ∈ (q j).stateDict (scope j)) : values' = values := by
  simp only [Quantizer.stateDict, List.mem_cons, Prod.mk.injEq, List.not_mem_nil, or_false] at h h'
  obtain ⟨rfl, rfl⟩ | ⟨rfl, rfl⟩ := h
  · obtain ⟨hkey, rfl⟩ | ⟨hkey, -⟩ := h'
    · have hij : i = j := hscopes (scaleKey_injective hkey)
      rw [hij]
    · exact absurd hkey (scaleKey_ne_zeroPointKey _ _)
  · obtain ⟨hkey, -⟩ | ⟨hkey, rfl⟩ := h'
    · exact absurd hkey.symm (scaleKey_ne_zeroPointKey _ _)
    · have hij : i = j := hscopes (zeroPointKey_injective hkey)
      rw [hij]

/-- In a shared dictionary every entry of every quantizer is found. -/
theorem Shares.lookup (h : state.Shares q scope others) {i : ι} {key : String}
    {values : List Single} (hmem : (key, values) ∈ (q i).stateDict (scope i)) :
    state.lookup key = some values := by
  refine lookup_of_unique ((h.entries _).mpr (.inr ⟨i, hmem⟩)) fun values' hvalues' => ?_
  obtain hother | ⟨j, hj⟩ := (h.entries _).mp hvalues'
  · have hforeign := h.others _ hother i
    simp only [Quantizer.stateDict, List.mem_cons, Prod.mk.injEq, List.not_mem_nil,
      or_false] at hmem
    obtain ⟨hkey, -⟩ | ⟨hkey, -⟩ := hmem
    · exact absurd hkey hforeign.1
    · exact absurd hkey hforeign.2
  · exact values_eq_of_mem_stateDict h.scopes hmem hj

end StateDict

namespace Quantizer

variable {σ : Type}

/-- A load sees nothing but the entries of its scope. -/
theorem loadStateDict_restrict (q : Quantizer σ) (state : StateDict) (scope : String)
    (strict : Bool) :
    q.loadStateDict (state.restrict scope) scope strict = q.loadStateDict state scope strict := by
  simp only [loadStateDict, StateDict.row, StateDict.lookup_scaleKey_restrict,
    StateDict.lookup_zeroPointKey_restrict]

/-- **A shared dictionary loses nothing**: it holds the parameters of each of its quantizers, and a
strict load of a scope, into any quantizer with as many channels, misses nothing and writes exactly
the values that were saved there, in new rows. A quantizer that can be reached has as many scales
and zero points as channels. Entries outside a scope have no influence on loads of that scope. -/
theorem load_from_shared_dictionary {ι : Type} {σ : ι → Type} {q : ∀ i, Quantizer (σ i)}
    {scope : ι → String} {state others : StateDict} (h : state.Shares q scope others) (i : ι) :
    (state.lookup (scaleKey (scope i)) = some (q i).parameters.scale.values ∧
      state.lookup (zeroPointKey (scope i)) = some (q i).parameters.zeroPoint.values) ∧
    (∀ {τ : Type} (target : Quantizer τ), (q i).parameters.HasLength target.channels →
      target.loadStateDict state (scope i) true =
        .ok (target.replaceParameters (q i).parameters.renewed, [])) ∧
    ∀ {τ : Type} (target : Quantizer τ) (strict : Bool),
      target.loadStateDict state (scope i) strict =
        target.loadStateDict (state.restrict (scope i)) (scope i) strict := by
  have hscale : state.lookup (scaleKey (scope i)) = some (q i).parameters.scale.values :=
    h.lookup (i := i) (.head _)
  have hzero : state.lookup (zeroPointKey (scope i)) = some (q i).parameters.zeroPoint.values :=
    h.lookup (i := i) (.tail _ (.head _))
  refine ⟨⟨hscale, hzero⟩, fun target hlength => ?_,
    fun target strict => (loadStateDict_restrict target state (scope i) strict).symm⟩
  have hserves : state.Serves (scope i) true target.channels := by
    refine ⟨fun values hvalues => ?_, fun values hvalues => ?_, fun _ => ?_⟩
    · rw [hscale] at hvalues
      cases hvalues
      exact hlength.scale
    · rw [hzero] at hvalues
      cases hvalues
      exact hlength.zeroPoint
    · rw [hscale, hzero]
      exact ⟨rfl, rfl⟩
  have hparameters : state.parameters (scope i) target.parameters = (q i).parameters.renewed := by
    rw [StateDict.parameters, hscale, hzero]
    rfl
  have hmissing : state.missing (scope i) = [] :=
    StateDict.missing_eq_nil.mpr (hserves.complete rfl)
  refine loadStateDict_eq_ok.mpr ⟨hserves, ?_, hmissing.symm⟩
  rw [hparameters]

/-- Two quantizers in one dictionary: each scope is a prefix of a key of the other one, and the
scales are no numbers to divide by. One of the rows is stored backwards. -/
theorem load_from_two_scopes :
    let q : Bool → Quantizer ConstantObserver := fun b =>
      { grid := ⟨0, 255, by decide⟩
        parameters :=
          if b then ⟨.ofList [.nan, 1], .ofList [3, 4]⟩
          else ⟨⟨[.infinity true, 2], -1⟩, .ofList [5, 6]⟩
        mode := .learning, gradientScaling := .disabled
        observer := .perTensor 1 0 .quint8 }
    let scope : Bool → String := fun b => if b then "" else "scale"
    let others : StateDict := [("zero_pointscale", [])]
    let state : StateDict :=
      [("scalezero_point", [5, 6]), ("scale", [.nan, 1]), ("zero_pointscale", []),
        ("zero_point", [3, 4]), ("scalescale", [.infinity true, 2])]
    state.Shares q scope others ∧
      ∀ b, (q !b).loadStateDict state (scope b) true =
        .ok ((q !b).replaceParameters (q b).parameters.renewed, []) := by
  intro q scope others state
  have h : state.Shares q scope others := by
    refine ⟨?_, fun e => ?_, ?_⟩
    · intro b b'
      cases b <;> cases b' <;> decide
    · have hperm : state.Perm
          (others ++ ((q false).stateDict (scope false) ++ (q true).stateDict (scope true))) := by
        decide +kernel
      rw [hperm.mem_iff, List.mem_append, List.mem_append, Bool.exists_bool]
    · decide +kernel
  refine ⟨h, fun b => ?_⟩
  have hlength : (q b).parameters.HasLength (q !b).channels := by
    cases b <;> exact ⟨rfl, rfl⟩
  exact (load_from_shared_dictionary h b).2.1 (q !b) hlength

end Quantizer

end FakeQuant
