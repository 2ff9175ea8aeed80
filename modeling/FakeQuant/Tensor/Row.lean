/-!
# Rows of values

The scales of the channels of a tensor, and their zero points, stand in rows. A row is the list of
its values together with its stride, the distance at which neighbours are stored: it is negative in
a row that was turned round without moving a value, and more than one in a row that was cut out of
other values.

What a row means are its values; no operation computes with the stride. But a row can be laid out in
another shape only if its values stand one right behind the other (`Row.isStandard`), so the stride
decides whether some operations fail. A copy has the stride of its original. `Row.map` goes through
values that fill their storage in the order in which they are stored, and so keeps the stride of
such a row; from any other row it makes one in standard layout (`Row.isStandard_map`).
-/

namespace FakeQuant

/-- Values in a row. -/
structure Row (α : Type) where
  values : List α
  /-- How far behind a value the next one is stored. -/
  stride : Int
deriving DecidableEq

namespace Row

variable {α β γ : Type}

/-- The number of values. -/
def length (r : Row α) : Nat :=
  r.values.length

/-- A new row of the given values. -/
def ofList (values : List α) : Row α where
  values := values
  stride := if values.isEmpty then 0 else 1

/-- Whether the values stand one right behind the other. No stride spoils that where there are no
neighbours. -/
def isStandard (r : Row α) : Bool :=
  decide (r.length ≤ 1 ∨ r.stride = 1)

/-- Whether the values stand one right before the other. -/
def isBackward (r : Row α) : Bool :=
  decide (1 < r.length ∧ r.stride = -1)

/-- A new row with a function of every value. Neighbours stay neighbours in storage. -/
def map (f : α → β) (r : Row α) : Row β :=
  if r.stride = 1 ∨ r.stride = -1 then { values := r.values.map f, stride := r.stride }
  else ofList (r.values.map f)

/-- The row with every value replaced, where it is stored, by a function of its position and it. -/
def update (f : Nat → α → α) (r : Row α) : Row α :=
  { r with values := r.values.mapIdx f }

@[simp]
theorem length_update (f : Nat → α → α) (r : Row α) : (r.update f).length = r.length :=
  List.length_mapIdx

/-- What is stored anew is in standard layout. -/
@[simp]
theorem isStandard_ofList (values : List α) : (ofList values).isStandard = true := by
  cases values with
  | nil => rfl
  | cons v rest => exact decide_eq_true (.inr rfl)

@[simp]
theorem values_map (f : α → β) (r : Row α) : (r.map f).values = r.values.map f := by
  unfold map
  split <;> rfl

@[simp]
theorem length_map (f : α → β) (r : Row α) : (r.map f).length = r.length := by
  rw [length, values_map, List.length_map]
  rfl

/-- A function of every value leaves a row backwards that is stored backwards. Every other row gets
into standard layout. -/
theorem isStandard_map (f : α → β) (r : Row α) : (r.map f).isStandard = !r.isBackward := by
  by_cases hkept : r.stride = 1 ∨ r.stride = -1
  · have hstride : (r.map f).stride = r.stride := by rw [map, if_pos hkept]
    rw [isStandard, length_map, hstride, isBackward, ← decide_not]
    exact decide_eq_decide.mpr (by omega)
  · have hback : r.isBackward = false :=
      decide_eq_false fun h => hkept (.inr h.2)
    rw [map, if_neg hkept, isStandard_ofList, hback]
    rfl

/-- A row in standard layout is not stored backwards. -/
theorem isBackward_of_isStandard {r : Row α} (h : r.isStandard = true) : r.isBackward = false := by
  simp only [isStandard, isBackward, decide_eq_true_eq, decide_eq_false_iff_not] at h ⊢
  omega

/-! ### Rows of a given length -/

variable {n : Nat}

/-- A row of so many values, stored at a stride. -/
def ofVector (values : Vector α n) (stride : Int) : Row α where
  values := values.toList
  stride := stride

@[simp]
theorem length_ofVector (values : Vector α n) (stride : Int) :
    (ofVector values stride).length = n :=
  values.length_toList

/-- A function of every value of a row of so many values. -/
theorem map_ofVector (f : α → β) (values : Vector α n) (stride : Int) :
    (ofVector values stride).map f =
      ofVector (values.map f) ((ofVector values stride).map f).stride := by
  have hvalues : ((ofVector values stride).map f).values = (values.map f).toList := by
    rw [values_map, Vector.toList_map]
    rfl
  exact congrArg (mk · _) hvalues

end Row

end FakeQuant
