import FakeQuant.Tensor.Index

/-!
# Tensors

A tensor of a shape holds its elements in one of the two storage orders. What it means is said by
`Tensor.get`, the element at a multi-index; no operation lets the storage order show in that view.
Elementwise operations act on the elements at equal indices, `mapAlong` also knows the position on
one axis, and `slice` is the tensor of the other axes at one such position. `toList` lists the
elements in row-major order whatever the storage.
-/

namespace FakeQuant

/-- The elements of a shape, in a storage order. -/
structure Tensor (α : Type) (s : Shape) where
  order : Order
  data : Vector α s.size

namespace Tensor

variable {α β γ : Type} {s : Shape}

/-- The element at an index. -/
def get (t : Tensor α s) (i : Index s) : α :=
  t.data[t.order.offset i]

/-- The tensor with the given element at every index. -/
def ofFn (f : Index s → α) : Tensor α s where
  order := .rowMajor
  data := Vector.ofFn fun k => f (Index.ofRank k)

@[simp]
theorem get_ofFn (f : Index s → α) (i : Index s) : (ofFn f).get i = f i := by
  simp [get, ofFn]

/-- The tensor stored as the given list, if the list has the right length. -/
def ofStorage? (order : Order) (s : Shape) (elements : List α) : Option (Tensor α s) :=
  if h : elements.length = s.size then
    some { order, data := ⟨elements.toArray, by simpa using h⟩ }
  else none

/-- The elements in row-major order. -/
def toList (t : Tensor α s) : List α :=
  List.ofFn fun k => t.get (Index.ofRank k)

/-- A function of every element. The storage order is kept. -/
def map (f : α → β) (t : Tensor α s) : Tensor β s where
  order := t.order
  data := t.data.map f

@[simp]
theorem get_map (f : α → β) (t : Tensor α s) (i : Index s) : (t.map f).get i = f (t.get i) := by
  simp [get, map]

theorem map_ofFn (f : α → β) (g : Index s → α) : (ofFn g).map f = ofFn fun i => f (g i) := by
  simp only [map, ofFn, Vector.map_ofFn]
  rfl

theorem map_map (f : α → β) (g : β → γ) (t : Tensor α s) :
    (t.map f).map g = t.map fun a => g (f a) := by
  simp only [map, Vector.map_map]
  rfl

/-- A function of the elements of two tensors at equal indices. -/
def zipWith (f : α → β → γ) (t : Tensor α s) (u : Tensor β s) : Tensor γ s :=
  ofFn fun i => f (t.get i) (u.get i)

@[simp]
theorem get_zipWith (f : α → β → γ) (t : Tensor α s) (u : Tensor β s) (i : Index s) :
    (zipWith f t u).get i = f (t.get i) (u.get i) :=
  get_ofFn _ i

/-- A function of every element and of its position on one axis. -/
def mapAlong (axis : Fin s.length) (f : Fin (s.get axis) → α → β) (t : Tensor α s) : Tensor β s :=
  ofFn fun i => f (i.coordinate axis) (t.get i)

@[simp]
theorem get_mapAlong (axis : Fin s.length) (f : Fin (s.get axis) → α → β) (t : Tensor α s)
    (i : Index s) : (t.mapAlong axis f).get i = f (i.coordinate axis) (t.get i) :=
  get_ofFn _ i

theorem mapAlong_mapAlong (axis : Fin s.length) (f : Fin (s.get axis) → α → β)
    (g : Fin (s.get axis) → β → γ) (t : Tensor α s) :
    (t.mapAlong axis f).mapAlong axis g = t.mapAlong axis fun c a => g c (f c a) := by
  simp only [mapAlong, get_ofFn]

/-- The elements at one position of an axis. -/
def slice (axis : Fin s.length) (c : Fin (s.get axis)) (t : Tensor α s) :
    Tensor α (s.eraseIdx axis) :=
  ofFn fun i => t.get (i.insert axis c)

@[simp]
theorem get_slice (axis : Fin s.length) (c : Fin (s.get axis)) (t : Tensor α s)
    (i : Index (s.eraseIdx axis)) : (t.slice axis c).get i = t.get (i.insert axis c) :=
  get_ofFn _ i

/-- At one position of an axis, a function along that axis is one function of the elements. -/
theorem slice_mapAlong (axis : Fin s.length) (f : Fin (s.get axis) → α → β) (t : Tensor α s)
    (c : Fin (s.get axis)) : (t.mapAlong axis f).slice axis c = (t.slice axis c).map (f c) := by
  rw [slice, slice, map_ofFn]
  refine congrArg ofFn (funext fun i => ?_)
  rw [get_mapAlong, Index.coordinate_insert]

/-- A slice of an elementwise combination combines the slices. -/
theorem slice_zipWith (axis : Fin s.length) (f : α → β → γ) (t : Tensor α s) (u : Tensor β s)
    (c : Fin (s.get axis)) :
    (zipWith f t u).slice axis c = zipWith f (t.slice axis c) (u.slice axis c) := by
  refine congrArg ofFn (funext fun i => ?_)
  rw [get_zipWith, get_slice, get_slice]

end Tensor

/-- A tensor together with its shape. -/
structure AnyTensor (α : Type) where
  shape : Shape
  tensor : Tensor α shape

namespace AnyTensor

variable {α : Type}

/-- The elements in row-major order. -/
def toList (t : AnyTensor α) : List α :=
  t.tensor.toList

/-- The number of elements. -/
def size (t : AnyTensor α) : Nat :=
  t.shape.size

end AnyTensor

end FakeQuant
