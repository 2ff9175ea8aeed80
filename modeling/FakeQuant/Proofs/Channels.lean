import FakeQuant.Affine
import FakeQuant.Proofs.Outcomes

/-!
# Quantization along an axis

The operations along an axis check their parameters, lay them out along the axis and repeat them to
fill the shape of the tensor. A row of parameters has three faults to be checked for, of which the
last one is its layout in storage (`Shape.rowFault?`). `ChannelParameters` are parameters that have
passed the checks, and `quantizePerChannel_eq`, `dequantizePerChannel_eq` and
`fakeQuantizePerChannel_eq` say what the operations come to: they succeed on exactly the parameters
that pass, and then every element is treated with the pair of values at its own position on the
axis. So the slice of a result at a position is the whole-tensor operation on the slice of the
input, with the parameters of the position.
-/

namespace FakeQuant

variable {s : Shape}

/-! ### One value per position -/

section Values

variable {α β : Type} {n : Nat}

theorem get_vectorMap (f : α → β) (values : Vector α n) (c : Fin n) :
    (values.map f).get c = f (values.get c) :=
  Vector.getElem_map _ _

theorem get_vectorOfFn (f : Fin n → α) (c : Fin n) : (Vector.ofFn f).get c = f c :=
  Vector.getElem_ofFn _

end Values

/-! ### What can be wrong with a row -/

/-- What is wrong with a row of so many values for the positions of an axis, in this order: the axis
is not there, it has another number of positions, the row does not fit because of its layout. -/
def Shape.rowFault? (s : Shape) (what : String) (axis length : Nat) (fits : Bool) : Option Error :=
  match s[axis]? with
  | none => some (.invalidAxis axis s.length)
  | some extent =>
    if length ≠ extent then some (.shapeMismatch what [extent] [length])
    else if fits then none
    else some (.shapeMismatch what (s.unit axis) [length])

theorem Shape.getElem?_axis (a : Fin s.length) : s[a.val]? = some (s.get a) :=
  List.getElem?_eq_getElem a.isLt

theorem Shape.rowFault?_val (what : String) (a : Fin s.length) (length : Nat) (fits : Bool) :
    s.rowFault? what a length fits =
      if length ≠ s.get a then some (.shapeMismatch what [s.get a] [length])
      else if fits then none
      else some (.shapeMismatch what (s.unit a) [length]) := by
  rw [rowFault?, getElem?_axis]

/-- Nothing is wrong with a row that has one value for every position and fits. -/
theorem Shape.rowFault?_eq_none {what : String} {axis length : Nat} {fits : Bool} :
    s.rowFault? what axis length fits = none ↔ s[axis]? = some length ∧ fits = true := by
  unfold rowFault?
  cases s[axis]? with
  | none => exact ⟨(nomatch ·), (nomatch ·.1)⟩
  | some extent =>
    dsimp only
    by_cases hlength : length = extent
    · subst hlength
      rw [if_neg (not_not_intro rfl), and_iff_right rfl]
      cases fits with
      | true => exact iff_of_true rfl rfl
      | false => exact iff_of_false nofun nofun
    · rw [if_pos hlength]
      exact iff_of_false nofun fun h => hlength (Option.some.inj h.1).symm

/-- A row of the right length that does not fit has the fault of its layout. -/
theorem Shape.rowFault?_of_length {what : String} {axis length : Nat}
    (h : s[axis]? = some length) :
    s.rowFault? what axis length false = some (.shapeMismatch what (s.unit axis) [length]) := by
  rw [rowFault?, h]
  exact if_neg (not_not_intro rfl)

/-- What is wrong with a row that fits is wrong with every row of its length. -/
theorem Shape.rowFault?_of_fits {what : String} {axis length : Nat} {e : Error}
    (h : s.rowFault? what axis length true = some e) (fits : Bool) :
    s.rowFault? what axis length fits = some e := by
  revert h
  unfold rowFault?
  cases s[axis]? with
  | none => exact id
  | some extent =>
    dsimp only
    split
    · exact id
    · exact nofun

/-- A row is wrong about the axis or about a shape. -/
theorem Shape.rowFault?_cases {what : String} {axis length : Nat} {fits : Bool} {e : Error}
    (h : s.rowFault? what axis length fits = some e) :
    e = .invalidAxis axis s.length ∨ ∃ expected, e = .shapeMismatch what expected [length] := by
  revert h
  unfold rowFault?
  cases s[axis]? with
  | none => exact fun h => .inl (Option.some.inj h).symm
  | some extent =>
    dsimp only
    split
    · exact fun h => .inr ⟨_, (Option.some.inj h).symm⟩
    · split
      · exact nofun
      · exact fun h => .inr ⟨_, (Option.some.inj h).symm⟩

/-- What is wrong with an axis of a shape for a row of scales and a row of zero points, the scales
first. -/
def Shape.axisFault? (s : Shape) (axis scales : Nat) (scaleFits : Bool) (zeroPoints : Nat)
    (zeroPointFits : Bool) : Option Error :=
  (s.rowFault? "scale" axis scales scaleFits).or
    (s.rowFault? "zero_point" axis zeroPoints zeroPointFits)

/-- An axis is wrong itself or because of a shape. -/
theorem Shape.axisFault?_cases {axis scales zeroPoints : Nat} {scaleFits zeroPointFits : Bool}
    {e : Error} (h : s.axisFault? axis scales scaleFits zeroPoints zeroPointFits = some e) :
    e = .invalidAxis axis s.length ∨
      ∃ what expected actual, e = .shapeMismatch what expected actual := by
  rcases Option.or_eq_some_iff.mp h with h | ⟨-, h⟩
  · exact (rowFault?_cases h).imp_right fun ⟨_, he⟩ => ⟨_, _, _, he⟩
  · exact (rowFault?_cases h).imp_right fun ⟨_, he⟩ => ⟨_, _, _, he⟩

/-- A tensor without axes has no axis zero. -/
example : Shape.axisFault? [] 0 1 true 1 true = some (.invalidAxis 0 0) :=
  rfl

theorem Shape.axisFault?_eq_none {axis scales zeroPoints : Nat} {scaleFits zeroPointFits : Bool} :
    s.axisFault? axis scales scaleFits zeroPoints zeroPointFits = none ↔
      (s[axis]? = some scales ∧ scaleFits = true) ∧
        s[axis]? = some zeroPoints ∧ zeroPointFits = true := by
  rw [axisFault?, Option.or_eq_none_iff, rowFault?_eq_none, rowFault?_eq_none]

/-! ### Checked parameters -/

/-- An axis of a shape with a scale and a zero point for every position on it, and the strides at
which the two rows of them are stored. -/
structure ChannelParameters (s : Shape) where
  axis : Fin s.length
  scale : Vector Single (s.get axis)
  zeroPoint : Vector Single (s.get axis)
  scaleStride : Int
  zeroPointStride : Int

namespace ChannelParameters

/-- The row of scales. -/
def scaleRow (p : ChannelParameters s) : Row Single :=
  .ofVector p.scale p.scaleStride

/-- The row of zero points. -/
def zeroPointRow (p : ChannelParameters s) : Row Single :=
  .ofVector p.zeroPoint p.zeroPointStride

/-- The scale at a position. -/
def scaleAt (p : ChannelParameters s) (c : Fin (s.get p.axis)) : Single :=
  p.scale.get c

/-- The zero point at a position. -/
def zeroPointAt (p : ChannelParameters s) (c : Fin (s.get p.axis)) : Single :=
  p.zeroPoint.get c

theorem length_scaleRow (p : ChannelParameters s) : p.scaleRow.length = s.get p.axis :=
  Row.length_ofVector _ _

theorem length_zeroPointRow (p : ChannelParameters s) : p.zeroPointRow.length = s.get p.axis :=
  Row.length_ofVector _ _

/-- An axis and two rows that have as many values as the axis has positions. -/
def ofRows {axis : Nat} {scale zeroPoint : Row Single} (hscale : s[axis]? = some scale.length)
    (hzero : s[axis]? = some zeroPoint.length) : ChannelParameters s where
  axis := ⟨axis, (List.getElem?_eq_some_iff.mp hscale).1⟩
  scale := ⟨scale.values.toArray, (List.getElem?_eq_some_iff.mp hscale).2.symm⟩
  zeroPoint := ⟨zeroPoint.values.toArray, (List.getElem?_eq_some_iff.mp hzero).2.symm⟩
  scaleStride := scale.stride
  zeroPointStride := zeroPoint.stride

/-- An axis and two rows, if nothing is wrong with them. An operation may lay out functions of the
values in place of the values, so whether the layouts fit is given apart from the rows. -/
def check (s : Shape) (axis : Nat) (scale zeroPoint : Row Single) (scaleFits zeroPointFits : Bool) :
    Except Error (ChannelParameters s) :=
  match h : s.axisFault? axis scale.length scaleFits zeroPoint.length zeroPointFits with
  | some e => .error e
  | none => .ok (ofRows (Shape.axisFault?_eq_none.mp h).1.1 (Shape.axisFault?_eq_none.mp h).2.1)

section Check

variable {axis : Nat} {scale zeroPoint : Row Single} {scaleFits zeroPointFits : Bool}

/-- What the check fails with is what is wrong. -/
theorem failsWith_check (s : Shape) (axis : Nat) (scale zeroPoint : Row Single)
    (scaleFits zeroPointFits : Bool) :
    FailsWith (check s axis scale zeroPoint scaleFits zeroPointFits)
      (s.axisFault? axis scale.length scaleFits zeroPoint.length zeroPointFits) := by
  unfold check
  split
  · next e h =>
    rw [h]
    rfl
  · next h => exact Eq.mpr (congrArg (FailsWith _) h) ⟨_, rfl⟩

theorem check_eq_error {e : Error} :
    check s axis scale zeroPoint scaleFits zeroPointFits = .error e ↔
      s.axisFault? axis scale.length scaleFits zeroPoint.length zeroPointFits = some e :=
  failsWith_iff.mp (failsWith_check s axis scale zeroPoint scaleFits zeroPointFits) e

/-- Rows that fit pass the check. -/
@[simp]
theorem check_rows (p : ChannelParameters s) :
    check s p.axis p.scaleRow p.zeroPointRow true true = .ok p := by
  have hscale : s[p.axis.val]? = some p.scaleRow.length := by
    rw [Shape.getElem?_axis, length_scaleRow]
  have hzero : s[p.axis.val]? = some p.zeroPointRow.length := by
    rw [Shape.getElem?_axis, length_zeroPointRow]
  unfold check
  split
  · next e h =>
    rw [Shape.axisFault?_eq_none.mpr ⟨⟨hscale, rfl⟩, hzero, rfl⟩] at h
    cases h
  · rfl

/-- The parameters that pass are the given ones. -/
theorem check_eq_ok {p : ChannelParameters s} :
    check s axis scale zeroPoint scaleFits zeroPointFits = .ok p ↔
      (axis = p.axis ∧ scale = p.scaleRow ∧ zeroPoint = p.zeroPointRow) ∧
        scaleFits = true ∧ zeroPointFits = true := by
  constructor
  · intro h
    unfold check at h
    split at h
    · cases h
    · next hfault =>
      cases h
      obtain ⟨hscale, hzero⟩ := Shape.axisFault?_eq_none.mp hfault
      exact ⟨⟨rfl, rfl, rfl⟩, hscale.2, hzero.2⟩
  · rintro ⟨⟨rfl, rfl, rfl⟩, rfl, rfl⟩
    exact check_rows p

/-- The two ways in which a check can end: with what is wrong, or with what was given. -/
theorem check_cases (s : Shape) (axis : Nat) (scale zeroPoint : Row Single)
    (scaleFits zeroPointFits : Bool) :
    (∃ e, s.axisFault? axis scale.length scaleFits zeroPoint.length zeroPointFits = some e ∧
      check s axis scale zeroPoint scaleFits zeroPointFits = .error e) ∨
    ∃ p : ChannelParameters s, (axis = p.axis ∧ scale = p.scaleRow ∧ zeroPoint = p.zeroPointRow) ∧
      scaleFits = true ∧ zeroPointFits = true := by
  cases h : check s axis scale zeroPoint scaleFits zeroPointFits with
  | error e => exact .inl ⟨e, check_eq_error.mp h, rfl⟩
  | ok p => exact .inr ⟨p, check_eq_ok.mp h⟩

end Check

/-- Of two wrong numbers that of the scales is reported. -/
example : check [2, 3] 1 (.ofList [1, 1]) (.ofList [0]) true true =
    .error (.shapeMismatch "scale" [3] [2]) :=
  rfl

/-! ### Functions of the parameters -/

/-- The parameters with a function of all scales. -/
def mapScale (f : Single → Single) (p : ChannelParameters s) : ChannelParameters s :=
  { p with scale := p.scale.map f, scaleStride := (p.scaleRow.map f).stride }

/-- The parameters with a function of all zero points. -/
def mapZeroPoint (f : Single → Single) (p : ChannelParameters s) : ChannelParameters s :=
  { p with zeroPoint := p.zeroPoint.map f, zeroPointStride := (p.zeroPointRow.map f).stride }

section Map

variable (f : Single → Single) (p : ChannelParameters s) (axis : Nat)
  (scale zeroPoint : Row Single) (scaleFits zeroPointFits : Bool)

theorem scaleRow_mapScale : (p.mapScale f).scaleRow = p.scaleRow.map f :=
  (Row.map_ofVector _ _ _).symm

theorem zeroPointRow_mapZeroPoint : (p.mapZeroPoint f).zeroPointRow = p.zeroPointRow.map f :=
  (Row.map_ofVector _ _ _).symm

theorem scaleAt_mapScale (c : Fin (s.get p.axis)) :
    (p.mapScale f).scaleAt c = f (p.scaleAt c) :=
  get_vectorMap _ _ _

theorem zeroPointAt_mapZeroPoint (c : Fin (s.get p.axis)) :
    (p.mapZeroPoint f).zeroPointAt c = f (p.zeroPointAt c) :=
  get_vectorMap _ _ _

/-- The check does not look at the scales themselves. -/
theorem check_mapScale :
    check s axis (scale.map f) zeroPoint scaleFits zeroPointFits =
      mapScale f <$> check s axis scale zeroPoint scaleFits zeroPointFits := by
  rcases check_cases s axis scale zeroPoint scaleFits zeroPointFits with
    ⟨e, he, hc⟩ | ⟨p, ⟨rfl, rfl, rfl⟩, rfl, rfl⟩
  · rw [hc]
    exact check_eq_error.mpr (by rwa [Row.length_map])
  · rw [check_rows, ← scaleRow_mapScale]
    exact check_rows (p.mapScale f)

/-- The check does not look at the zero points themselves. -/
theorem check_mapZeroPoint :
    check s axis scale (zeroPoint.map f) scaleFits zeroPointFits =
      mapZeroPoint f <$> check s axis scale zeroPoint scaleFits zeroPointFits := by
  rcases check_cases s axis scale zeroPoint scaleFits zeroPointFits with
    ⟨e, he, hc⟩ | ⟨p, ⟨rfl, rfl, rfl⟩, rfl, rfl⟩
  · rw [hc]
    exact check_eq_error.mpr (by rwa [Row.length_map])
  · rw [check_rows, ← zeroPointRow_mapZeroPoint]
    exact check_rows (p.mapZeroPoint f)

end Map

end ChannelParameters

/-! ### Values laid out along an axis -/

section Layout

variable {α : Type} (what : String)

theorem channelView_of_le {axis : Nat} (r : Row α) (h : s.length ≤ axis) :
    channelView what r s axis = .error (.invalidAxis axis s.length) := by
  rw [channelView, channelAxis, dif_neg (Nat.not_lt_of_le h)]
  rfl

theorem channelView_val (axis : Fin s.length) (r : Row α) :
    channelView what r s axis =
      if r.length ≠ s.get axis then .error (.shapeMismatch what [s.get axis] [r.length])
      else
        match View.ofRow? (s.unit axis) r with
        | some view => .ok view
        | none => .error (.shapeMismatch what (s.unit axis) [r.length]) := by
  rw [channelView, channelAxis, dif_pos axis.isLt]
  change (if r.length ≠ s.get axis then _ else _ : Except Error (View α _)) = _
  split
  · rfl
  · cases View.ofRow? (s.unit axis) r with
    | none => rfl
    | some view => rfl

/-- Laying out a row fails with what is wrong with the row. -/
theorem failsWith_channelView (r : Row α) (s : Shape) (axis : Nat) :
    FailsWith (channelView what r s axis) (s.rowFault? what axis r.length r.isStandard) := by
  rcases Nat.lt_or_ge axis s.length with h | h
  · obtain ⟨a, rfl⟩ : ∃ a : Fin s.length, a.val = axis := ⟨⟨axis, h⟩, rfl⟩
    rw [channelView_val, Shape.rowFault?_val]
    by_cases hlength : r.length = s.get a
    · rw [if_neg (not_not_intro hlength), if_neg (not_not_intro hlength)]
      cases hstandard : r.isStandard with
      | false =>
        rw [View.ofRow?_eq_none hstandard]
        rfl
      | true =>
        obtain ⟨v, hv, -⟩ := View.ofRow?_eq_some (hlength.trans (Shape.size_unit a).symm) hstandard
        rw [hv]
        exact ⟨v, rfl⟩
    · rw [if_pos hlength, if_pos hlength]
      rfl
  · rw [channelView_of_le what r h, Shape.rowFault?, List.getElem?_eq_none h]
    rfl

/-- One value for each position of an axis, in a row in standard layout, can be laid out along the
axis and repeated to fill the shape. Every element then stands beside the value of its own
position. -/
theorem channelView_ofVector (axis : Fin s.length) (values : Vector α (s.get axis)) {stride : Int}
    (h : (Row.ofVector values stride).isStandard = true) :
    ∃ u w, channelView what (.ofVector values stride) s axis = .ok u ∧ broadcastTo u s = .ok w ∧
      ∀ i, w.get i = values.get (i.coordinate axis) := by
  obtain ⟨u, w, hu, hw, hget⟩ := View.get_broadcast?_unit axis values h
  refine ⟨u, w, ?_, ?_, hget⟩
  · rw [channelView_val, if_neg (not_not_intro (Row.length_ofVector _ _)), hu]
  · rw [broadcastTo, hw]

/-- What has been laid out along an axis can always be repeated to fill the shape. -/
theorem exists_broadcastTo {what : String} {axis : Nat} {r : Row α} {u : View α (s.unit axis)}
    (h : channelView what r s axis = .ok u) : ∃ w, broadcastTo u s = .ok w := by
  have hfault := (failsWith_channelView what r s axis).eq_none h
  obtain ⟨haxis, hstandard⟩ := Shape.rowFault?_eq_none.mp hfault
  obtain ⟨hlt, hlength⟩ := List.getElem?_eq_some_iff.mp haxis
  let values : Vector α (s.get ⟨axis, hlt⟩) := ⟨r.values.toArray, hlength.symm⟩
  have hrow : (Row.ofVector values r.stride).isStandard = true := hstandard
  obtain ⟨u', w, hu, hw, -⟩ := channelView_ofVector what ⟨axis, hlt⟩ values hrow
  cases h.symm.trans hu
  exact ⟨w, hw⟩

end Layout

/-! ### The operations on checked parameters -/

/-- A function of every element and of the parameters of its position. -/
def ChannelParameters.apply (p : ChannelParameters s) (f : Single → Single → Single → Single)
    (x : Tensor Single s) : Tensor Single s :=
  x.mapAlong p.axis fun c v => f v (p.scaleAt c) (p.zeroPointAt c)

theorem ChannelParameters.get_apply (p : ChannelParameters s)
    (f : Single → Single → Single → Single) (x : Tensor Single s) (i : Index s) :
    (p.apply f x).get i =
      f (x.get i) (p.scaleAt (i.coordinate p.axis)) (p.zeroPointAt (i.coordinate p.axis)) :=
  Tensor.get_mapAlong _ _ _ _

theorem ChannelParameters.apply_mapScale (p : ChannelParameters s) (h : Single → Single)
    (f : Single → Single → Single → Single) (x : Tensor Single s) :
    (p.mapScale h).apply f x = p.apply (fun v scale zeroPoint => f v (h scale) zeroPoint) x := by
  rw [apply, apply, Tensor.mapAlong, Tensor.mapAlong]
  refine congrArg Tensor.ofFn (funext fun i => ?_)
  exact congrArg (f (x.get i) · _) (p.scaleAt_mapScale h _)

theorem ChannelParameters.apply_mapZeroPoint (p : ChannelParameters s) (h : Single → Single)
    (f : Single → Single → Single → Single) (x : Tensor Single s) :
    (p.mapZeroPoint h).apply f x =
      p.apply (fun v scale zeroPoint => f v scale (h zeroPoint)) x := by
  rw [apply, apply, Tensor.mapAlong, Tensor.mapAlong]
  refine congrArg Tensor.ofFn (funext fun i => ?_)
  exact congrArg (f (x.get i) _) (p.zeroPointAt_mapZeroPoint h _)

theorem ChannelParameters.apply_apply (p : ChannelParameters s)
    (f h : Single → Single → Single → Single) (x : Tensor Single s) :
    p.apply h (p.apply f x) =
      p.apply (fun v scale zeroPoint => h (f v scale zeroPoint) scale zeroPoint) x :=
  Tensor.mapAlong_mapAlong _ _ _ _

theorem ChannelParameters.map_apply (p : ChannelParameters s)
    (f : Single → Single → Single → Single) (h : Single → Single) (x : Tensor Single s) :
    (p.apply f x).map h = p.apply (fun v scale zeroPoint => h (f v scale zeroPoint)) x :=
  Tensor.map_ofFn _ _

/-- At one position, a function of the elements and their parameters is one function of the
elements. -/
theorem ChannelParameters.slice_apply (p : ChannelParameters s)
    (f : Single → Single → Single → Single) (x : Tensor Single s) (c : Fin (s.get p.axis)) :
    (p.apply f x).slice p.axis c =
      (x.slice p.axis c).map fun v => f v (p.scaleAt c) (p.zeroPointAt c) :=
  Tensor.slice_mapAlong _ _ _ _

/-- The codes of a tensor with the parameters of each position, moved into the grid if `clamped`. -/
def quantizeAlong (g : Grid) (clamped : Bool) (x : Tensor Single s) (p : ChannelParameters s) :
    Tensor Single s :=
  p.apply (fun v scale zeroPoint =>
    let code := quantizeValue v (1 / scale) zeroPoint
    if clamped then g.clamp code else code) x

/-- The numbers that a tensor of codes stands for, with the parameters of each position. -/
def dequantizeAlong (codes : Tensor Single s) (p : ChannelParameters s) : Tensor Single s :=
  p.apply dequantizeValue codes

/-- A tensor as it is after quantization to the grid with the parameters of each position. -/
def fakeQuantizeAlong (g : Grid) (x : Tensor Single s) (p : ChannelParameters s) :
    Tensor Single s :=
  p.apply (fun v scale zeroPoint => fakeQuantizeValue g v scale (1 / scale) zeroPoint) x

/-- The common part of quantizing and dequantizing succeeds on exactly the parameters that pass the
check, and then applies its function with the values of each element's position. -/
theorem zipAlong_eq (f : Single → Single → Single → Single) (x : Tensor Single s)
    (scale zeroPoint : Row Single) (axis : Nat) :
    zipAlong f x scale zeroPoint axis =
      (fun p : ChannelParameters s => p.apply f x) <$>
        ChannelParameters.check s axis scale zeroPoint scale.isStandard zeroPoint.isStandard := by
  rcases ChannelParameters.check_cases s axis scale zeroPoint scale.isStandard
    zeroPoint.isStandard with ⟨e, he, hc⟩ | ⟨p, ⟨rfl, rfl, rfl⟩, hscale, hzero⟩
  · have h : FailsWith (zipAlong f x scale zeroPoint axis) (some e) := by
      rw [← he]
      refine (failsWith_channelView "scale" scale s axis).or fun u hu => ?_
      refine (failsWith_channelView "zero_point" zeroPoint s axis).bind fun u' hu' => ?_
      obtain ⟨w, hw⟩ := exists_broadcastTo hu
      obtain ⟨w', hw'⟩ := exists_broadcastTo hu'
      rw [hw, hw']
      exact ⟨_, rfl⟩
    rw [hc]
    exact h
  · obtain ⟨u, w, hu, hw, hget⟩ := channelView_ofVector "scale" p.axis p.scale hscale
    obtain ⟨u', w', hu', hw', hget'⟩ :=
      channelView_ofVector "zero_point" p.axis p.zeroPoint hzero
    rw [hscale, hzero, ChannelParameters.check_rows, zipAlong, ChannelParameters.scaleRow, hu,
      ChannelParameters.zeroPointRow, hu']
    change (broadcastTo u s >>= _) = _
    rw [hw]
    change (broadcastTo u' s >>= _) = _
    rw [hw']
    refine congrArg Except.ok ?_
    simp only [hget, hget']
    rfl

theorem dequantizePerChannel_eq (codes : Tensor Single s) (scale zeroPoint : Row Single)
    (axis : Nat) :
    dequantizePerChannel codes scale zeroPoint axis =
      dequantizeAlong codes <$>
        ChannelParameters.check s axis scale zeroPoint scale.isStandard zeroPoint.isStandard :=
  zipAlong_eq _ _ _ _ _

/-- Quantization lays the inverses of the scales out, which it may do even where the scales stand
apart. -/
theorem quantizePerChannel_eq (g : Grid) (clamped : Bool) (x : Tensor Single s)
    (scale zeroPoint : Row Single) (axis : Nat) :
    quantizePerChannel g clamped x scale zeroPoint axis =
      quantizeAlong g clamped x <$>
        ChannelParameters.check s axis scale zeroPoint (!scale.isBackward)
          zeroPoint.isStandard := by
  rw [quantizePerChannel, zipAlong_eq, Row.isStandard_map, ChannelParameters.check_mapScale,
    ← comp_map]
  refine congrArg (· <$> _) (funext fun p => ?_)
  rw [Function.comp_apply, ChannelParameters.apply_mapScale]
  rfl

/-- Fake quantization along an axis lays the scales, their inverses and the zero points out one by
one; it succeeds on exactly the parameters that pass the check. -/
theorem fakeQuantizePerChannel_eq (g : Grid) (x : Tensor Single s) (scale zeroPoint : Row Single)
    (axis : Nat) :
    fakeQuantizePerChannel g x scale zeroPoint axis =
      fakeQuantizeAlong g x <$>
        ChannelParameters.check s axis scale zeroPoint scale.isStandard zeroPoint.isStandard := by
  -- where the scales are laid out their inverses are, so the check of the inverses never decides
  have hinverse (h : scale.isStandard = true) :
      (scale.map fun scale => 1 / scale).isStandard = true := by
    rw [Row.isStandard_map, Row.isBackward_of_isStandard h]
    rfl
  rcases ChannelParameters.check_cases s axis scale zeroPoint scale.isStandard
    zeroPoint.isStandard with ⟨e, he, hc⟩ | ⟨p, ⟨rfl, rfl, rfl⟩, hscale, hzero⟩
  · have h : FailsWith (fakeQuantizePerChannel g x scale zeroPoint axis) (some e) := by
      rw [← he]
      refine (failsWith_channelView "scale" scale s axis).or fun u hu => ?_
      obtain ⟨haxis, hstandard⟩ := Shape.rowFault?_eq_none.mp
        ((failsWith_channelView "scale" scale s axis).eq_none hu)
      have hview := failsWith_channelView "scale" (scale.map fun scale => 1 / scale) s axis
      rw [Row.length_map, hinverse hstandard, Shape.rowFault?_eq_none.mpr ⟨haxis, rfl⟩] at hview
      obtain ⟨u', hu'⟩ := hview
      rw [hu']
      refine (failsWith_channelView "zero_point" zeroPoint s axis).bind fun u'' hu'' => ?_
      obtain ⟨w, hw⟩ := exists_broadcastTo hu
      obtain ⟨w', hw'⟩ := exists_broadcastTo hu'
      obtain ⟨w'', hw''⟩ := exists_broadcastTo hu''
      rw [hw, hw', hw'']
      exact ⟨_, rfl⟩
    rw [hc]
    exact h
  · have hmap := hinverse hscale
    rw [ChannelParameters.scaleRow, Row.map_ofVector] at hmap
    obtain ⟨u, w, hu, hw, hget⟩ := channelView_ofVector "scale" p.axis p.scale hscale
    obtain ⟨u', w', hu', hw', hget'⟩ := channelView_ofVector "scale" p.axis _ hmap
    obtain ⟨u'', w'', hu'', hw'', hget''⟩ :=
      channelView_ofVector "zero_point" p.axis p.zeroPoint hzero
    rw [← Row.map_ofVector] at hu'
    rw [hscale, hzero, ChannelParameters.check_rows, fakeQuantizePerChannel,
      ChannelParameters.scaleRow, hu, hu', ChannelParameters.zeroPointRow, hu'']
    change (broadcastTo u s >>= _) = _
    rw [hw]
    change (broadcastTo u' s >>= _) = _
    rw [hw']
    change (broadcastTo u'' s >>= _) = _
    rw [hw'']
    refine congrArg Except.ok ?_
    simp only [hget, hget', hget'', get_vectorMap]
    rfl

/-! ### Slices -/

/-- The slice of a quantized tensor at a position of the axis. -/
theorem slice_quantizeAlong (g : Grid) (clamped : Bool) (x : Tensor Single s)
    (p : ChannelParameters s) (c : Fin (s.get p.axis)) :
    (quantizeAlong g clamped x p).slice p.axis c =
      quantize g clamped (x.slice p.axis c) (p.scaleAt c) (p.zeroPointAt c) :=
  p.slice_apply _ _ _

theorem slice_dequantizeAlong (codes : Tensor Single s) (p : ChannelParameters s)
    (c : Fin (s.get p.axis)) :
    (dequantizeAlong codes p).slice p.axis c =
      dequantize (codes.slice p.axis c) (p.scaleAt c) (p.zeroPointAt c) :=
  p.slice_apply _ _ _

theorem slice_fakeQuantizeAlong (g : Grid) (x : Tensor Single s) (p : ChannelParameters s)
    (c : Fin (s.get p.axis)) :
    (fakeQuantizeAlong g x p).slice p.axis c =
      fakeQuantize g (x.slice p.axis c) (p.scaleAt c) (p.zeroPointAt c) :=
  p.slice_apply _ _ _

end FakeQuant
