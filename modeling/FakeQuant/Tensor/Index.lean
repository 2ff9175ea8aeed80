/-!
# Shapes, multi-indices and storage orders

A shape lists the extents of the axes of a tensor, outermost first; a shape without axes has one
element and a shape with a zero extent has none. An `Index` of a shape picks one position on every
axis. A storage order places the elements of a shape in a row: `Order.offset` gives the place of an
index, and `Index.ofRank` gives the index at a place of the row-major order.

Along an axis, `Index.coordinate` reads the position of an index and `Index.insert` puts a position
into an index of the remaining axes.
-/

namespace FakeQuant

/-- The extents of the axes, outermost axis first. -/
abbrev Shape := List Nat

/-- The number of elements of a shape. -/
def Shape.size : Shape → Nat
  | [] => 1
  | extent :: rest => extent * Shape.size rest

/-- An axis that is not the first is an axis of the shape without the first. -/
theorem Shape.axis_lt {extent : Nat} {rest : Shape} {k : Nat}
    (h : k + 1 < (extent :: rest).length) : k < rest.length :=
  Nat.lt_of_succ_lt_succ h

/-- One position on every axis of a shape. -/
def Index : Shape → Type
  | [] => Unit
  | extent :: rest => Fin extent × Index rest

/-- The order in which a tensor is stored. -/
inductive Order where
  /-- The last index runs fastest. -/
  | rowMajor
  /-- The first index runs fastest. -/
  | columnMajor
deriving DecidableEq, Repr

private theorem row_lt {extent size i j : Nat} (hi : i < extent) (hj : j < size) :
    i * size + j < extent * size := by
  have h : (i + 1) * size ≤ extent * size := Nat.mul_le_mul_right size hi
  rw [Nat.succ_mul] at h
  omega

private theorem column_lt {extent size i j : Nat} (hi : i < extent) (hj : j < size) :
    i + extent * j < extent * size := by
  have h : extent * (j + 1) ≤ extent * size := Nat.mul_le_mul_left extent hj
  rw [Nat.mul_succ] at h
  omega

/-- The place of an index in storage. -/
def Order.offset (order : Order) : {s : Shape} → Index s → Fin s.size
  | [], _ => ⟨0, Nat.one_pos⟩
  | extent :: rest, (i, r) =>
    let inner := order.offset r
    match order with
    | .rowMajor => ⟨i * Shape.size rest + inner, row_lt i.isLt inner.isLt⟩
    | .columnMajor => ⟨i + extent * inner, column_lt i.isLt inner.isLt⟩

namespace Index

private theorem size_pos_of_lt {extent size k : Nat} (h : k < extent * size) : 0 < size := by
  rcases Nat.eq_zero_or_pos size with rfl | hpos
  · simp at h
  · exact hpos

/-- The index at a place of the row-major order. -/
def ofRank : {s : Shape} → Fin s.size → Index s
  | [], _ => ()
  | _ :: rest, k =>
    (⟨k / Shape.size rest, Nat.div_lt_of_lt_mul (Nat.mul_comm _ _ ▸ k.isLt)⟩,
      ofRank ⟨k % Shape.size rest, Nat.mod_lt _ (size_pos_of_lt k.isLt)⟩)

/-- Reading the index at the place of an index gives that index back. -/
@[simp]
theorem ofRank_offset : {s : Shape} → (i : Index s) → ofRank (Order.rowMajor.offset i) = i
  | [], _ => rfl
  | extent :: rest, (i, r) => by
    have hr := (Order.rowMajor.offset r).isLt
    have hdiv :
        (i.val * Shape.size rest + (Order.rowMajor.offset r).val) / Shape.size rest = i := by
      rw [Nat.mul_comm, Nat.mul_add_div (Nat.zero_lt_of_lt hr), Nat.div_eq_of_lt hr, Nat.add_zero]
    have hmod : (i.val * Shape.size rest + (Order.rowMajor.offset r).val) % Shape.size rest
        = Order.rowMajor.offset r := by
      rw [Nat.mul_comm, Nat.mul_add_mod, Nat.mod_eq_of_lt hr]
    have ih := ofRank_offset r
    simp only [Order.offset, ofRank, hdiv, hmod]
    exact congrArg (Prod.mk i) ih

/-- The place of the index at a place is that place. -/
@[simp]
theorem offset_ofRank : {s : Shape} → (k : Fin s.size) → Order.rowMajor.offset (ofRank k) = k
  | [], k => by
    have : k.val < 1 := k.isLt
    exact Fin.ext (by simp only [Order.offset]; omega)
  | _ :: rest, k => by
    have ih := offset_ofRank (s := rest)
      ⟨k % Shape.size rest, Nat.mod_lt _ (size_pos_of_lt k.isLt)⟩
    refine Fin.ext ?_
    simp only [ofRank, Order.offset, ih]
    exact Nat.div_add_mod' _ _

/-- The position on one axis. -/
def coordinate : {s : Shape} → (axis : Fin s.length) → Index s → Fin (s.get axis)
  | _ :: _, ⟨0, _⟩, (i, _) => i
  | _ :: _, ⟨k + 1, h⟩, (_, r) => coordinate ⟨k, Shape.axis_lt h⟩ r

/-- The index that has a given position on one axis and the given index on the others. -/
def insert : {s : Shape} → (axis : Fin s.length) → Fin (s.get axis) →
    Index (s.eraseIdx axis) → Index s
  | _ :: _, ⟨0, _⟩, c, r => (c, r)
  | _ :: _, ⟨k + 1, h⟩, c, (i, r) => (i, insert ⟨k, Shape.axis_lt h⟩ c r)

@[simp]
theorem coordinate_insert : {s : Shape} → (axis : Fin s.length) → (c : Fin (s.get axis)) →
    (r : Index (s.eraseIdx axis)) → coordinate axis (insert axis c r) = c
  | _ :: _, ⟨0, _⟩, _, _ => rfl
  | _ :: _, ⟨k + 1, h⟩, c, (_, r) => coordinate_insert ⟨k, Shape.axis_lt h⟩ c r

/-- Every index arises by inserting its own position. -/
theorem exists_insert_eq : {s : Shape} → (axis : Fin s.length) → (i : Index s) →
    ∃ r, insert axis (coordinate axis i) r = i
  | _ :: _, ⟨0, _⟩, (_, r) => ⟨r, rfl⟩
  | _ :: _, ⟨k + 1, h⟩, (i, r) => by
    obtain ⟨r', hr'⟩ := exists_insert_eq ⟨k, Shape.axis_lt h⟩ r
    exact ⟨(i, r'), congrArg (Prod.mk i) hr'⟩

end Index

end FakeQuant
