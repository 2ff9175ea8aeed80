import FakeQuant.Error

/-!
# Outcomes of fallible steps

When a sequence of steps that may fail has a given value or a given error. `FailsWith` is what a
rule for errors says about an outcome: with which error it fails, or that there is a result.
`SameOutcome` compares two outcomes: they have the same error, or results that belong together.
-/

namespace FakeQuant

variable {α β : Type} {r : Except Error α} {e : Error}

/-- Two steps succeed when the first does and then the second, on its result. -/
theorem bind_eq_ok {f : α → Except Error β} {b : β} :
    (r >>= f) = .ok b ↔ ∃ a, r = .ok a ∧ f a = .ok b := by
  cases r with
  | error e =>
    constructor
    · intro h
      cases h
    · rintro ⟨a, h, -⟩
      cases h
  | ok a =>
    constructor
    · exact fun h => ⟨a, rfl, h⟩
    · rintro ⟨a', h, hf⟩
      cases h
      exact hf

/-- Two steps fail when the first does, or the second on its result. -/
theorem bind_eq_error {f : α → Except Error β} :
    (r >>= f) = .error e ↔ r = .error e ∨ ∃ a, r = .ok a ∧ f a = .error e := by
  cases r with
  | error e' =>
    constructor
    · intro h
      cases h
      exact .inl rfl
    · rintro (h | ⟨a, h, -⟩)
      · cases h
        rfl
      · cases h
  | ok a =>
    constructor
    · exact fun h => .inr ⟨a, rfl, h⟩
    · rintro (h | ⟨a', h, hf⟩)
      · cases h
      · cases h
        exact hf

/-- A function of a result has a value when the result has. -/
theorem map_eq_ok {f : α → β} {b : β} : f <$> r = .ok b ↔ ∃ a, r = .ok a ∧ f a = b := by
  cases r with
  | error e =>
    constructor
    · intro h
      cases h
    · rintro ⟨a, h, -⟩
      cases h
  | ok a =>
    constructor
    · exact fun h => ⟨a, rfl, Except.ok.inj h⟩
    · rintro ⟨a', h, rfl⟩
      cases h
      rfl

/-- A function of a result fails when the result does. -/
theorem map_eq_error {f : α → β} : f <$> r = .error e ↔ r = .error e := by
  cases r with
  | error e' =>
    constructor
    · intro h
      cases h
      rfl
    · intro h
      cases h
      rfl
  | ok a =>
    constructor
    · intro h
      cases h
    · intro h
      cases h

/-- A step behind a check succeeds when the check and the step do. -/
theorem ite_throw_eq_ok {p : Prop} [Decidable p] {f : β → Except Error α} {a : α} :
    (if p then throw e >>= f else r) = .ok a ↔ ¬p ∧ r = .ok a := by
  by_cases h : p
  · rw [if_pos h]
    constructor
    · intro h'
      cases h'
    · exact fun h' => absurd h h'.1
  · rw [if_neg h]
    exact ⟨fun h' => ⟨h, h'⟩, And.right⟩

/-- The outcome is the given error, or a result if no error is given. -/
def FailsWith (r : Except Error α) : Option Error → Prop
  | some e => r = .error e
  | none => ∃ a, r = .ok a

/-- A rule that tells all errors apart also tells when there is a result. -/
theorem failsWith_iff {fault : Option Error} :
    FailsWith r fault ↔ ∀ e, r = .error e ↔ fault = some e := by
  cases fault with
  | some e =>
    constructor
    · rintro rfl e'
      rw [Except.error.injEq, Option.some.injEq]
    · exact fun h => (h e).mpr rfl
  | none =>
    constructor
    · rintro ⟨a, rfl⟩ e
      exact ⟨(nomatch ·), (nomatch ·)⟩
    · intro h
      cases r with
      | error e => exact nomatch (h e).mp rfl
      | ok a => exact ⟨a, rfl⟩

/-- Where there is a result there is no fault. -/
theorem FailsWith.eq_none {fault : Option Error} {a : α} (h : FailsWith r fault) (hr : r = .ok a) :
    fault = none := by
  refine Option.eq_none_iff_forall_ne_some.mpr fun e he => ?_
  rw [← failsWith_iff.mp h, hr] at he
  cases he

/-- A test that is passed or refused with an error. -/
theorem failsWith_ite (p : Prop) [Decidable p] (a : α) (e : Error) :
    FailsWith (if p then .ok a else .error e) (if p then none else some e) := by
  split
  · exact ⟨a, rfl⟩
  · rfl

theorem failsWith_ite_error (p : Prop) [Decidable p] (a : α) (e : Error) :
    FailsWith (if p then .error e else .ok a) (if p then some e else none) := by
  split
  · rfl
  · exact ⟨a, rfl⟩

/-- A function of the result fails as the outcome does. -/
theorem FailsWith.map {fault : Option Error} (h : FailsWith r fault) (f : α → β) :
    FailsWith (f <$> r) fault := by
  rw [failsWith_iff] at h ⊢
  exact fun e => map_eq_error.trans (h e)

/-- Two steps fail with the fault of the first, or else with the fault of the second. -/
theorem FailsWith.or {fault fault' : Option Error} {f : α → Except Error β} (h : FailsWith r fault)
    (hf : ∀ a, r = .ok a → FailsWith (f a) fault') : FailsWith (r >>= f) (fault.or fault') := by
  cases fault with
  | some e => exact bind_eq_error.mpr (.inl h)
  | none =>
    obtain ⟨a, rfl⟩ := h
    exact hf a rfl

/-- Of a list of things that can be wrong, the first is looked at first. -/
theorem FailsWith.cons {ι : Type} {fault : ι → Option Error} {k : ι} {ks : List ι}
    {f : α → Except Error β} (h : FailsWith r (fault k))
    (hf : ∀ a, r = .ok a → FailsWith (f a) (ks.findSome? fault)) :
    FailsWith (r >>= f) ((k :: ks).findSome? fault) := by
  have hor := h.or hf
  rw [List.findSome?_cons]
  cases hk : fault k with
  | some e => rwa [hk] at hor
  | none => rwa [hk] at hor

theorem FailsWith.singleton {ι : Type} {fault : ι → Option Error} {k : ι}
    (h : FailsWith r (fault k)) : FailsWith r ([k].findSome? fault) := by
  rwa [List.findSome?_singleton]

/-- A second step that always succeeds adds no way to fail. -/
theorem FailsWith.bind {fault : Option Error} {f : α → Except Error β} (h : FailsWith r fault)
    (hf : ∀ a, r = .ok a → ∃ b, f a = .ok b) : FailsWith (r >>= f) fault := by
  have hor : FailsWith (r >>= f) (fault.or none) := h.or hf
  rwa [Option.or_none] at hor

/-- The same error, or two results that are related. -/
inductive SameOutcome (related : α → β → Prop) : Except Error α → Except Error β → Prop where
  | error (e : Error) : SameOutcome related (.error e) (.error e)
  | ok {a : α} {b : β} (h : related a b) : SameOutcome related (.ok a) (.ok b)

theorem SameOutcome.self (r : Except Error α) : SameOutcome (· = ·) r r := by
  cases r with
  | error e => exact .error e
  | ok a => exact .ok rfl

section SameOutcome

variable {α' β' : Type} {related : α → β → Prop} {related' : α' → β' → Prop}
  {r' : Except Error β}

theorem SameOutcome.map {f : α → α'} {g : β → β'} (h : SameOutcome related r r')
    (hfg : ∀ a b, related a b → related' (f a) (g b)) :
    SameOutcome related' (f <$> r) (g <$> r') := by
  cases h with
  | error e => exact .error e
  | ok h => exact .ok (hfg _ _ h)

/-- Steps that have the same outcome on related results have it one after the other, too. -/
theorem SameOutcome.bind {f : α → Except Error α'} {g : β → Except Error β'}
    (h : SameOutcome related r r')
    (hfg : ∀ a b, related a b → SameOutcome related' (f a) (g b)) :
    SameOutcome related' (r >>= f) (r' >>= g) := by
  cases h with
  | error e => exact .error e
  | ok h => exact hfg _ _ h

end SameOutcome

/-- Two functions of one result have the same outcome when their values are related. -/
theorem SameOutcome.map_self {α' β' : Type} {related : α' → β' → Prop} {f : α → α'} {g : α → β'}
    (h : ∀ a, related (f a) (g a)) : SameOutcome related (f <$> r) (g <$> r) := by
  refine (SameOutcome.self r).map fun a b hab => ?_
  subst hab
  exact h a

end FakeQuant
