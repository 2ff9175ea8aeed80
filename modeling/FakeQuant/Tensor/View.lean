import FakeQuant.Tensor.Basic
import FakeQuant.Tensor.Row

/-!
# Strided views

A view reads the elements of a shape out of values that are stored in a row. The element at an index
stands behind a first place at a distance that every axis adds to: the position on the axis times
the stride of the axis. `View.get` is the element at an index, as `Tensor.get` is for tensors.

No operation on views moves a value. `Tensor.view` looks at a stored tensor, `View.ofRow?` lays a
row out in another shape if its values stand one right behind the other, `View.broadcast?` repeats
values along axes with stride zero, and `View.indexAxis` fixes the position on one axis. Each of
them has a lemma that says which element the new view has at an index.
-/

namespace FakeQuant

/-- How far apart neighbours on every axis of a shape are stored. -/
def Strides : Shape → Type
  | [] => Unit
  | _ :: rest => Nat × Strides rest

namespace Strides

/-- How far an index is stored behind the index of zeros. -/
def distance : {s : Shape} → Strides s → Index s → Nat
  | [], _, _ => 0
  | _ :: _, (stride, strides), (i, r) => i * stride + strides.distance r

theorem distance_cons {extent : Nat} {rest : Shape} (stride : Nat) (strides : Strides rest)
    (i : Fin extent) (r : Index rest) :
    distance (s := extent :: rest) (stride, strides) (i, r) = i * stride + strides.distance r :=
  rfl

/-- The strides multiplied by a number. -/
def scale (factor : Nat) : {s : Shape} → Strides s → Strides s
  | [], _ => ()
  | _ :: _, (stride, strides) => (factor * stride, strides.scale factor)

theorem distance_scale (factor : Nat) : {s : Shape} → (d : Strides s) → (i : Index s) →
    (d.scale factor).distance i = factor * d.distance i
  | [], _, _ => rfl
  | _ :: _, (stride, strides), (i, r) => by
    have ih := distance_scale factor strides r
    simp only [scale, distance, ih]
    rw [Nat.mul_add, Nat.mul_left_comm]

/-! ### The strides of a storage order -/

/-- The strides of a tensor that is stored in an order. -/
def ofOrder (order : Order) : (s : Shape) → Strides s
  | [] => ()
  | extent :: rest =>
    match order with
    | .rowMajor => (Shape.size rest, ofOrder order rest)
    | .columnMajor => (1, (ofOrder order rest).scale extent)

theorem distance_ofOrder (order : Order) : {s : Shape} → (i : Index s) →
    (ofOrder order s).distance i = order.offset i
  | [], _ => rfl
  | extent :: rest, (i, r) => by
    have ih := distance_ofOrder order r
    cases order with
    | rowMajor => simp only [ofOrder, distance, Order.offset, ih]
    | columnMajor => simp only [ofOrder, distance, Order.offset, distance_scale, ih, Nat.mul_one]

/-! ### Repeated values -/

/-- The strides by which values stored for one shape are read as another. Axes are matched from the
last one on: an axis of equal extent keeps its stride, and an axis of extent one or a missing one is
repeated by a stride of zero. -/
def broadcast? : (t : Shape) → {s : Shape} → Strides s → Option (Strides t)
  | [], [], _ => some ()
  | [], _ :: _, _ => none
  | _ :: rest, [], d => (broadcast? rest d).map fun strides => (0, strides)
  | extent :: rest, own :: others, (stride, strides) =>
    if rest.length < (own :: others).length then
      if own = extent then (broadcast? rest strides).map fun strides => (stride, strides)
      else if own = 1 then (broadcast? rest strides).map fun strides => (0, strides)
      else none
    else (broadcast? (s := own :: others) rest (stride, strides)).map fun strides => (0, strides)

/-- Repeating values reads no other places than before. -/
theorem exists_distance_eq_of_broadcast? : (t : Shape) → {s : Shape} → {d : Strides s} →
    {e : Strides t} → broadcast? t d = some e → (i : Index t) → ∃ j, e.distance i = d.distance j
  | [], [], _, _, _, _ => ⟨(), rfl⟩
  | _ :: rest, [], d, e, h, (i, r) => by
    obtain ⟨e', he', rfl⟩ := Option.map_eq_some_iff.mp h
    obtain ⟨j, hj⟩ := exists_distance_eq_of_broadcast? rest he' r
    exact ⟨j, by rw [distance_cons, Nat.mul_zero, Nat.zero_add, hj]⟩
  | extent :: rest, own :: others, (stride, strides), e, h, (i, r) => by
    rw [broadcast?] at h
    split at h
    · split at h
      · rename_i hown
        obtain ⟨e', he', rfl⟩ := Option.map_eq_some_iff.mp h
        obtain ⟨j, hj⟩ := exists_distance_eq_of_broadcast? rest he' r
        subst hown
        exact ⟨(i, j), by rw [distance_cons, distance_cons, hj]⟩
      · split at h
        · rename_i hone
          obtain ⟨e', he', rfl⟩ := Option.map_eq_some_iff.mp h
          obtain ⟨j, hj⟩ := exists_distance_eq_of_broadcast? rest he' r
          subst hone
          refine ⟨((0 : Fin 1), j), ?_⟩
          rw [distance_cons, distance_cons, hj, Nat.mul_zero, Fin.val_zero, Nat.zero_mul]
        · cases h
    · obtain ⟨e', he', rfl⟩ := Option.map_eq_some_iff.mp h
      obtain ⟨j, hj⟩ := exists_distance_eq_of_broadcast? rest he' r
      exact ⟨j, by rw [distance_cons, Nat.mul_zero, Nat.zero_add, hj]⟩

/-! ### One axis -/

/-- The stride of an axis. -/
def along : {s : Shape} → Strides s → Fin s.length → Nat
  | _ :: _, (stride, _), ⟨0, _⟩ => stride
  | _ :: _, (_, strides), ⟨k + 1, h⟩ => strides.along ⟨k, Shape.axis_lt h⟩

/-- The strides of the other axes. -/
def erase : {s : Shape} → Strides s → (axis : Fin s.length) → Strides (s.eraseIdx axis)
  | _ :: _, (_, strides), ⟨0, _⟩ => strides
  | _ :: _, (stride, strides), ⟨k + 1, h⟩ =>
    (stride, strides.erase ⟨k, Shape.axis_lt h⟩)

/-- A position that is put into an index moves it by that many strides of the axis. -/
theorem distance_insert : {s : Shape} → (d : Strides s) → (axis : Fin s.length) →
    (c : Fin (s.get axis)) → (i : Index (s.eraseIdx axis)) →
    d.distance (i.insert axis c) = c * d.along axis + (d.erase axis).distance i
  | _ :: _, (_, _), ⟨0, _⟩, _, _ => rfl
  | _ :: _, (stride, strides), ⟨k + 1, h⟩, c, (i, r) => by
    have ih := distance_insert strides ⟨k, Shape.axis_lt h⟩ c r
    simp only [Index.insert, distance, along, erase, ih]
    exact Nat.add_left_comm _ _ _

end Strides

/-- The elements of a shape, read by strides out of values in a row. -/
structure View (α : Type) (s : Shape) where
  values : Array α
  /-- The place of the index of zeros. -/
  start : Nat
  strides : Strides s
  inside : ∀ i : Index s, start + strides.distance i < values.size

namespace View

variable {α : Type} {s : Shape}

/-- The element at an index. -/
def get (v : View α s) (i : Index s) : α :=
  have := v.inside i
  v.values[v.start + v.strides.distance i]

/-- The elements in row-major order. -/
def toList (v : View α s) : List α :=
  List.ofFn fun k => v.get (Index.ofRank k)

/-- A row laid out in a shape, the last index running fastest. There must be as many values as the
shape has elements, one right behind the other. -/
def ofRow? (s : Shape) (r : Row α) : Option (View α s) :=
  if h : r.length = s.size ∧ r.isStandard = true then
    some
      { values := r.values.toArray, start := 0, strides := .ofOrder .rowMajor s
        inside := fun i => by
          rw [Strides.distance_ofOrder, Nat.zero_add, List.size_toArray]
          exact Nat.lt_of_lt_of_eq (Order.offset _ i).isLt h.1.symm }
  else none

/-- The view repeated to fill another shape, if its axes allow that. -/
def broadcast? (v : View α s) (t : Shape) : Option (View α t) :=
  match h : v.strides.broadcast? t with
  | some strides =>
    some
      { v with
        strides
        inside := fun i => by
          obtain ⟨j, hj⟩ := Strides.exists_distance_eq_of_broadcast? t h i
          rw [hj]
          exact v.inside j }
  | none => none

/-- The elements at one position of an axis. -/
def indexAxis (v : View α s) (axis : Fin s.length) (c : Fin (s.get axis)) :
    View α (s.eraseIdx axis) where
  values := v.values
  start := v.start + c * v.strides.along axis
  strides := v.strides.erase axis
  inside i := by
    have h := v.inside (i.insert axis c)
    rwa [Strides.distance_insert, ← Nat.add_assoc] at h

@[simp]
theorem get_indexAxis (v : View α s) (axis : Fin s.length) (c : Fin (s.get axis))
    (i : Index (s.eraseIdx axis)) : (v.indexAxis axis c).get i = v.get (i.insert axis c) := by
  simp only [get, indexAxis, Strides.distance_insert, Nat.add_assoc]

end View

/-- The stored elements of a tensor as a view. -/
def Tensor.view {α : Type} {s : Shape} (t : Tensor α s) : View α s where
  values := t.data.toArray
  start := 0
  strides := .ofOrder t.order s
  inside i := by
    rw [Strides.distance_ofOrder, Nat.zero_add, Vector.size_toArray]
    exact (t.order.offset i).isLt

@[simp]
theorem Tensor.get_view {α : Type} {s : Shape} (t : Tensor α s) (i : Index s) :
    t.view.get i = t.get i := by
  simp only [View.get, view, get, Strides.distance_ofOrder, Nat.zero_add]
  rfl

/-! ### Values along one axis -/

namespace Shape

/-- The shape in which one axis keeps its extent and all others have extent one. -/
def unit (s : Shape) (axis : Nat) : Shape :=
  (s.map fun _ => 1).set axis (s.getD axis 0)

private theorem size_ones : (s : Shape) → Shape.size (s.map fun _ => 1) = 1
  | [] => rfl
  | _ :: rest => by rw [List.map_cons, size, size_ones rest]

theorem size_unit : {s : Shape} → (axis : Fin s.length) → (s.unit axis).size = s.get axis
  | extent :: rest, ⟨0, _⟩ => by
    change extent * Shape.size (rest.map fun _ => 1) = extent
    rw [size_ones, Nat.mul_one]
  | _ :: rest, ⟨k + 1, h⟩ => by
    have ih := size_unit (s := rest) ⟨k, Shape.axis_lt h⟩
    change 1 * (unit rest k).size = _
    rw [Nat.one_mul, ih]
    rfl

end Shape

namespace Strides

/-- A shape of ones repeats its only element. -/
private theorem broadcast?_ones : (s : Shape) →
    ∃ e, broadcast? s (ofOrder .rowMajor (s.map fun _ => 1)) = some e ∧
      ∀ i : Index s, e.distance i = 0
  | [] => ⟨(), rfl, fun _ => rfl⟩
  | extent :: rest => by
    obtain ⟨e, he, hzero⟩ := broadcast?_ones rest
    have hlength : rest.length < (1 :: rest.map fun _ => 1).length := by simp
    rw [List.map_cons, ofOrder, broadcast?, if_pos hlength, he]
    by_cases hone : 1 = extent
    · -- the only position on such an axis is zero
      subst hone
      refine ⟨_, if_pos rfl, fun ⟨i, r⟩ => ?_⟩
      rw [distance_cons, hzero, Fin.val_eq_zero i, Nat.zero_mul]
    · refine ⟨_, (if_neg hone).trans (if_pos rfl), fun ⟨i, r⟩ => ?_⟩
      rw [distance_cons, hzero, Nat.mul_zero]

/-- Values along one axis, repeated to fill the shape, stand where the position on the axis says. -/
theorem broadcast?_unit : {s : Shape} → (axis : Fin s.length) →
    ∃ e, broadcast? s (ofOrder .rowMajor (s.unit axis)) = some e ∧
      ∀ i : Index s, e.distance i = i.coordinate axis
  | extent :: rest, ⟨0, _⟩ => by
    obtain ⟨e, he, hzero⟩ := broadcast?_ones rest
    have hlength : rest.length < (extent :: rest.map fun _ => 1).length := by simp
    change ∃ e, broadcast? (extent :: rest) (ofOrder .rowMajor (extent :: rest.map fun _ => 1))
      = some e ∧ _
    rw [ofOrder, broadcast?, if_pos hlength, if_pos rfl, he]
    refine ⟨_, rfl, fun ⟨i, r⟩ => ?_⟩
    rw [distance_cons, hzero, Shape.size_ones, Nat.mul_one]
    rfl
  | extent :: rest, ⟨k + 1, h⟩ => by
    obtain ⟨e, he, hcoordinate⟩ := broadcast?_unit (s := rest) ⟨k, Shape.axis_lt h⟩
    have hlength : rest.length < (1 :: Shape.unit rest k).length := by simp [Shape.unit]
    change ∃ e, broadcast? (extent :: rest) (ofOrder .rowMajor (1 :: Shape.unit rest k))
      = some e ∧ _
    rw [ofOrder, broadcast?, if_pos hlength, he]
    by_cases hone : 1 = extent
    · subst hone
      refine ⟨_, if_pos rfl, fun ⟨i, r⟩ => ?_⟩
      rw [distance_cons, hcoordinate, Fin.val_eq_zero i, Nat.zero_mul, Nat.zero_add]
      rfl
    · refine ⟨_, (if_neg hone).trans (if_pos rfl), fun ⟨i, r⟩ => ?_⟩
      rw [distance_cons, hcoordinate, Nat.mul_zero, Nat.zero_add]
      rfl

end Strides

namespace View

variable {α : Type} {s : Shape}

theorem ofRow?_eq_some {r : Row α} (h : r.length = s.size) (hstandard : r.isStandard = true) :
    ∃ v, ofRow? s r = some v ∧ v.start = 0 ∧ v.values = r.values.toArray ∧
      v.strides = .ofOrder .rowMajor s := by
  rw [ofRow?, dif_pos ⟨h, hstandard⟩]
  exact ⟨_, rfl, rfl, rfl, rfl⟩

/-- A row that is not stored one value right behind the other cannot be laid out. -/
theorem ofRow?_eq_none {r : Row α} (h : r.isStandard = false) : ofRow? s r = none :=
  dif_neg fun h' => Bool.false_ne_true (h.symm.trans h'.2)

theorem broadcast?_eq_some {t : Shape} {v : View α s} {e : Strides t}
    (h : v.strides.broadcast? t = some e) :
    ∃ w, v.broadcast? t = some w ∧ w.start = v.start ∧ w.values = v.values ∧ w.strides = e := by
  rw [View.broadcast?]
  split
  · rename_i e' he'
    exact ⟨_, rfl, rfl, rfl, Option.some.inj (he'.symm.trans h)⟩
  · rename_i he'
    cases he'.symm.trans h

/-- Values for the positions of an axis, laid out along that axis and repeated along all others,
give every element the value of its position. -/
theorem get_broadcast?_unit (axis : Fin s.length) (values : Vector α (s.get axis)) {stride : Int}
    (h : (Row.ofVector values stride).isStandard = true) :
    ∃ u w, ofRow? (s.unit axis) (.ofVector values stride) = some u ∧ u.broadcast? s = some w ∧
      ∀ i, w.get i = values.get (i.coordinate axis) := by
  obtain ⟨e, he, hdistance⟩ := Strides.broadcast?_unit axis
  have hlength : (Row.ofVector values stride).length = (s.unit axis).size := by
    rw [Row.length_ofVector, Shape.size_unit]
  obtain ⟨u, hu, hstart, hvalues, hstrides⟩ := ofRow?_eq_some hlength h
  obtain ⟨w, hw, hstart', hvalues', hstrides'⟩ := broadcast?_eq_some (hstrides ▸ he)
  refine ⟨u, w, hu, hw, fun i => ?_⟩
  have hplace : w.start + w.strides.distance i = i.coordinate axis := by
    rw [hstart', hstart, hstrides', hdistance, Nat.zero_add]
  simp only [get, hplace, hvalues', hvalues]
  rfl

end View

end FakeQuant
