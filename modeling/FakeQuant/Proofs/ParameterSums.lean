import FakeQuant.Proofs.StraightThrough

/-!
# The sums behind the parameter gradients

Both kernels sum what the elements contribute to the gradients by scale and zero point from left to
right. Over a whole tensor the elements come in row-major order (`sumTerms_terms`); at a position of
an axis they are those with the position, in the row-major order of the other axes
(`sumsAlong_eq_sumTerms`). In both cases the contribution of an element is `parameterTerms` of the
element, its output, its code and its input gradient, with the parameters that it is quantized with.
-/

namespace FakeQuant

variable {s : Shape}

/-! ### Indices -/

theorem mem_indices (i : Index s) : i ∈ List.ofFn Index.ofRank :=
  List.mem_ofFn.2 ⟨_, Index.ofRank_offset i⟩

/-- The indices at a position of an axis, in the row-major order of the other axes. -/
def Index.along (axis : Fin s.length) (c : Fin (s.get axis)) : List (Index s) :=
  (List.ofFn Index.ofRank).map (Index.insert axis c)

theorem Index.coordinate_of_mem_along {axis : Fin s.length} {c : Fin (s.get axis)} {i : Index s}
    (h : i ∈ Index.along axis c) : i.coordinate axis = c := by
  obtain ⟨j, -, rfl⟩ := List.mem_map.1 h
  exact Index.coordinate_insert axis c j

theorem Index.mem_along {axis : Fin s.length} {c : Fin (s.get axis)} {i : Index s} :
    i ∈ Index.along axis c ↔ i.coordinate axis = c := by
  refine ⟨Index.coordinate_of_mem_along, ?_⟩
  rintro rfl
  obtain ⟨r, hr⟩ := Index.exists_insert_eq axis i
  exact List.mem_map.2 ⟨r, mem_indices r, hr⟩

/-! ### Sums over elements -/

/-- The sums of a function of all indices, as one sum for each part. -/
theorem sumTerms_map {ι : Type} (indices : List ι) (term : ι → Single × Single) :
    sumTerms (indices.map term) =
      ((indices.map fun i => (term i).1).foldl (· + ·) 0,
        (indices.map fun i => (term i).2).foldl (· + ·) 0) := by
  rw [sumTerms_eq, List.map_map, List.map_map]
  rfl

/-- The elements of a tensor are summed in the order of their indices. -/
theorem sumTerms_toList (t : Tensor (Single × Single) s) :
    sumTerms t.toList = sumTerms ((List.ofFn Index.ofRank).map t.get) := by
  rw [Tensor.toList, List.map_ofFn]
  rfl

/-! ### Kernels -/

section Kernels

variable (k : Kernel) (x : Tensor Single s)

/-- What an element contributes to the parameter gradients of a whole tensor. -/
theorem TensorCall.get_terms (scale zeroPoint : Single) (dx : Tensor Single s) (i : Index s) :
    ((k.tensorCall x scale zeroPoint).terms dx).get i =
      let applied := k.grid.effectiveZeroPoint zeroPoint
      parameterTerms k.grid (x.get i) ((k.tensorCall x scale zeroPoint).output.get i)
        (quantizeValue (x.get i) (1 / scale) applied) (dx.get i) scale applied := by
  rw [TensorCall.terms, Tensor.get_ofFn, TensorCall.get_codes]
  rfl

/-- The sums behind the parameter gradients of a whole tensor. -/
theorem sumTerms_terms (scale zeroPoint : Single) (dx : Tensor Single s) :
    let c := k.tensorCall x scale zeroPoint
    let applied := k.grid.effectiveZeroPoint zeroPoint
    sumTerms (c.terms dx).toList =
      sumTerms ((List.ofFn Index.ofRank).map fun i =>
        parameterTerms k.grid (x.get i) (c.output.get i)
          (quantizeValue (x.get i) (1 / scale) applied) (dx.get i) scale applied) := by
  intro c applied
  rw [sumTerms_toList]
  refine congrArg (fun term => sumTerms (List.map term _)) (funext fun i => ?_)
  exact TensorCall.get_terms k x scale zeroPoint dx i

/-- What an element contributes to the parameter gradients of its position. -/
theorem get_termsAlong (dy : Tensor Single s) (p : ChannelParameters s) (i : Index s) :
    (k.termsAlong x p dy).get i =
      let scale := p.scaleAt (i.coordinate p.axis)
      let applied := k.grid.effectiveZeroPoint (p.zeroPointAt (i.coordinate p.axis))
      parameterTerms k.grid (x.get i) ((k.channelCall x p).output.get i)
        (quantizeValue (x.get i) (1 / scale) applied) ((k.inputGradientAlong x p dy).get i) scale
        applied := by
  rw [Kernel.termsAlong, Tensor.get_ofFn, get_codesAlong]
  rfl

/-- The sums of a position of an axis are those of its elements. -/
theorem sumsAlong_eq_terms (dy : Tensor Single s) (p : ChannelParameters s)
    (c : Fin (s.get p.axis)) :
    k.sumsAlong x p dy c = sumTerms ((Index.along p.axis c).map (k.termsAlong x p dy).get) := by
  rw [Kernel.sumsAlong, sumTerms_toList, Index.along, List.map_map]
  refine congrArg (fun term => sumTerms (List.map term _)) (funext fun i => ?_)
  exact Tensor.get_slice _ _ _ _

/-- The sums behind the parameter gradients of a position of an axis. -/
theorem sumsAlong_eq_sumTerms (dy : Tensor Single s) (p : ChannelParameters s)
    (c : Fin (s.get p.axis)) :
    let applied := k.grid.effectiveZeroPoint (p.zeroPointAt c)
    k.sumsAlong x p dy c =
      sumTerms ((Index.along p.axis c).map fun i =>
        parameterTerms k.grid (x.get i) ((k.channelCall x p).output.get i)
          (quantizeValue (x.get i) (1 / p.scaleAt c) applied)
          ((k.inputGradientAlong x p dy).get i) (p.scaleAt c) applied) := by
  intro applied
  rw [sumsAlong_eq_terms]
  refine congrArg sumTerms (List.map_congr_left fun i hi => ?_)
  rw [get_termsAlong, Index.coordinate_of_mem_along hi]

end Kernels

end FakeQuant
