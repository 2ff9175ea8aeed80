import FakeQuant.Proofs.Calls

/-!
# Storage orders

A tensor is stored with its last or with its first index running fastest. Two tensors with the same
element at every index (`Tensor.SameElements`) may be stored in different orders; one is then the
other one stored anew (`Tensor.sameElements_iff`).

What the library computes does not depend on the order (`storage_order_irrelevant`). The elementwise
operations run over the storage and keep its order, so they give results with the same elements.
The operations along an axis pair every element with the parameters of its position and store their
results row by row; the kernel along an axis does so too, in both directions, and its sums run over
rows. So there the results are the same ones, whatever the order of the tensors that go in.
-/

namespace FakeQuant

variable {s : Shape}

/-! ### Places in storage -/

private theorem extent_pos_of_lt {extent size k : Nat} (h : k < extent * size) : 0 < extent := by
  rcases Nat.eq_zero_or_pos extent with rfl | hpos
  · simp at h
  · exact hpos

/-- The index at a place of the column-major order. -/
def Index.ofColumnRank : {s : Shape} → Fin s.size → Index s
  | [], _ => ()
  | extent :: _, k =>
    (⟨k % extent, Nat.mod_lt _ (extent_pos_of_lt k.isLt)⟩,
      ofColumnRank ⟨k / extent, Nat.div_lt_of_lt_mul k.isLt⟩)

theorem Index.ofColumnRank_offset : {s : Shape} → (i : Index s) →
    ofColumnRank (Order.columnMajor.offset i) = i
  | [], _ => rfl
  | extent :: rest, (i, r) => by
    have hmod : (i.val + extent * (Order.columnMajor.offset r).val) % extent = i := by
      rw [Nat.add_mul_mod_self_left, Nat.mod_eq_of_lt i.isLt]
    have hdiv : (i.val + extent * (Order.columnMajor.offset r).val) / extent =
        Order.columnMajor.offset r := by
      rw [Nat.add_mul_div_left _ _ (Nat.zero_lt_of_lt i.isLt), Nat.div_eq_of_lt i.isLt,
        Nat.zero_add]
    have ih := ofColumnRank_offset r
    simp only [Order.offset, ofColumnRank, hmod, hdiv]
    exact congrArg (Prod.mk i) ih

theorem Index.offset_ofColumnRank : {s : Shape} → (k : Fin s.size) →
    Order.columnMajor.offset (ofColumnRank k) = k
  | [], k => by
    have : k.val < 1 := k.isLt
    exact Fin.ext (by simp only [Order.offset]; omega)
  | extent :: rest, k => by
    have ih := offset_ofColumnRank (s := rest) ⟨k / extent, Nat.div_lt_of_lt_mul k.isLt⟩
    refine Fin.ext ?_
    simp only [ofColumnRank, Order.offset, ih]
    exact Nat.mod_add_div _ _

/-- The index at a place of an order. -/
def Order.index (order : Order) (k : Fin s.size) : Index s :=
  match order with
  | .rowMajor => Index.ofRank k
  | .columnMajor => Index.ofColumnRank k

theorem Order.index_offset (order : Order) (i : Index s) : order.index (order.offset i) = i := by
  cases order with
  | rowMajor => exact Index.ofRank_offset i
  | columnMajor => exact Index.ofColumnRank_offset i

theorem Order.offset_index (order : Order) (k : Fin s.size) : order.offset (order.index k) = k := by
  cases order with
  | rowMajor => exact Index.offset_ofRank k
  | columnMajor => exact Index.offset_ofColumnRank k

/-! ### Tensors with the same elements -/

namespace Tensor

variable {α β γ : Type} {t t' : Tensor α s} {u u' : Tensor β s}

/-- The same element at every index, in whatever order the tensors are stored. -/
def SameElements (t t' : Tensor α s) : Prop :=
  ∀ i, t.get i = t'.get i

/-- The tensor stored in an order. -/
def storedIn (order : Order) (t : Tensor α s) : Tensor α s where
  order := order
  data := Vector.ofFn fun k => t.get (order.index k)

theorem get_storedIn (order : Order) (t : Tensor α s) (i : Index s) :
    (t.storedIn order).get i = t.get i := by
  simp only [get, storedIn, Fin.getElem_fin, Vector.getElem_ofFn, Fin.eta, Order.index_offset]

theorem sameElements_storedIn (order : Order) (t : Tensor α s) :
    t.SameElements (t.storedIn order) :=
  fun i => (t.get_storedIn order i).symm

/-- Two tensors have the same elements when they differ in nothing but the order in which they are
stored. -/
theorem sameElements_iff : t.SameElements t' ↔ t' = t.storedIn t'.order := by
  constructor
  · intro h
    obtain ⟨order, data⟩ := t'
    refine congrArg (Tensor.mk order) (Vector.ext fun k hk => ?_)
    have hplace : Tensor.get ⟨order, data⟩ (order.index ⟨k, hk⟩) = data[k] := by
      simp only [get, Order.offset_index]
      rfl
    rw [Vector.getElem_ofFn, h, hplace]
  · intro h
    rw [h]
    exact t.sameElements_storedIn _

theorem SameElements.map (h : t.SameElements t') (f : α → β) :
    (t.map f).SameElements (t'.map f) := by
  intro i
  rw [get_map, get_map, h]

/-- Elements are paired by their indices, not by their places. -/
theorem SameElements.zipWith (ht : t.SameElements t') (hu : u.SameElements u')
    (f : α → β → γ) : Tensor.zipWith f t u = Tensor.zipWith f t' u' := by
  refine congrArg ofFn (funext fun i => ?_)
  rw [ht, hu]

theorem SameElements.mapAlong (h : t.SameElements t') (axis : Fin s.length)
    (f : Fin (s.get axis) → α → β) : t.mapAlong axis f = t'.mapAlong axis f := by
  refine congrArg ofFn (funext fun i => ?_)
  rw [h]

theorem SameElements.of_eq (h : t = t') : t.SameElements t' :=
  fun i => congrArg (fun t => get t i) h

end Tensor

/-- Tensors of one shape with the same elements. -/
inductive AnyTensor.SameElements {α : Type} : AnyTensor α → AnyTensor α → Prop where
  | intro {s : Shape} {t t' : Tensor α s} (h : t.SameElements t') : SameElements ⟨s, t⟩ ⟨s, t'⟩

/-! ### The operations -/

section Operations

variable {x x' : Tensor Single s} (h : x.SameElements x')

include h

theorem quantize_sameElements (g : Grid) (clamped : Bool) (scale zeroPoint : Single) :
    (quantize g clamped x scale zeroPoint).SameElements
      (quantize g clamped x' scale zeroPoint) :=
  h.map _

theorem dequantize_sameElements (scale zeroPoint : Single) :
    (dequantize x scale zeroPoint).SameElements (dequantize x' scale zeroPoint) :=
  h.map _

theorem fakeQuantize_sameElements (g : Grid) (scale zeroPoint : Single) :
    (fakeQuantize g x scale zeroPoint).SameElements (fakeQuantize g x' scale zeroPoint) :=
  h.map _

/-- Whatever is applied to the elements and the parameters of their positions. -/
theorem ChannelParameters.apply_congr (p : ChannelParameters s)
    (f : Single → Single → Single → Single) : p.apply f x = p.apply f x' :=
  h.mapAlong _ _

theorem quantizeAlong_congr (g : Grid) (clamped : Bool) (p : ChannelParameters s) :
    quantizeAlong g clamped x p = quantizeAlong g clamped x' p :=
  p.apply_congr h _

theorem fakeQuantizeAlong_congr (g : Grid) (p : ChannelParameters s) :
    fakeQuantizeAlong g x p = fakeQuantizeAlong g x' p :=
  p.apply_congr h _

theorem quantizePerChannel_sameElements (g : Grid) (clamped : Bool) (scale zeroPoint : Row Single)
    (axis : Nat) :
    SameOutcome Tensor.SameElements (quantizePerChannel g clamped x scale zeroPoint axis)
      (quantizePerChannel g clamped x' scale zeroPoint axis) := by
  rw [quantizePerChannel_eq, quantizePerChannel_eq]
  exact SameOutcome.map_self fun p => .of_eq (quantizeAlong_congr h g clamped p)

theorem dequantizePerChannel_sameElements (scale zeroPoint : Row Single) (axis : Nat) :
    SameOutcome Tensor.SameElements (dequantizePerChannel x scale zeroPoint axis)
      (dequantizePerChannel x' scale zeroPoint axis) := by
  rw [dequantizePerChannel_eq, dequantizePerChannel_eq]
  exact SameOutcome.map_self fun p => .of_eq (p.apply_congr h _)

theorem fakeQuantizePerChannel_sameElements (g : Grid) (scale zeroPoint : Row Single)
    (axis : Nat) :
    SameOutcome Tensor.SameElements (fakeQuantizePerChannel g x scale zeroPoint axis)
      (fakeQuantizePerChannel g x' scale zeroPoint axis) := by
  rw [fakeQuantizePerChannel_eq, fakeQuantizePerChannel_eq]
  exact SameOutcome.map_self fun p => .of_eq (fakeQuantizeAlong_congr h g p)

end Operations

/-- The input gradient pairs output gradients and codes by their indices. -/
theorem straightThrough_sameElements (g : Grid) {dy dy' codes codes' : Tensor Single s}
    (hdy : dy.SameElements dy') (hcodes : codes.SameElements codes') :
    (straightThrough g dy codes).SameElements (straightThrough g dy' codes') :=
  .of_eq (hdy.zipWith hcodes _)

/-! ### The kernels -/

/-- Input gradients with the same elements. -/
def Gradients.SameInput (g g' : Gradients) : Prop :=
  g.input.SameElements g'.input

/-- Input gradients with the same elements and the same parameter gradients. -/
structure Gradients.Same (g g' : Gradients) : Prop where
  input : g.SameInput g'
  scale : g.scale = g'.scale
  zeroPoint : g.zeroPoint = g'.zeroPoint

theorem outputGradient_sameElements (shape : Shape) {dy dy' : AnyTensor Single}
    (h : dy.SameElements dy') :
    SameOutcome Tensor.SameElements (outputGradient shape dy) (outputGradient shape dy') := by
  cases h with
  | @intro given t t' h =>
    unfold outputGradient
    by_cases hshape : given = shape
    · subst hshape
      rw [dif_pos rfl, dif_pos rfl]
      exact .ok h
    · rw [dif_neg hshape, dif_neg hshape]
      exact .error _

section Kernels

variable (k : Kernel) {x x' : Tensor Single s} {dy dy' : AnyTensor Single}

/-- Backward over a whole tensor. The sums over all elements are left out. -/
theorem backward_tensorCall_sameElements (hx : x.SameElements x') (hdy : dy.SameElements dy')
    (scale zeroPoint : Single) (t t' : Tracer) :
    SameOutcome Gradients.SameInput
      (((k.tensorCall x scale zeroPoint).backward dy).run t).1
      (((k.tensorCall x' scale zeroPoint).backward dy').run t').1 := by
  rw [TensorCall.backward_eq, TensorCall.backward_eq]
  refine (outputGradient_sameElements s hdy).map fun d d' hd => ?_
  have hcodes : (k.tensorCall x scale zeroPoint).codes.SameElements
      (k.tensorCall x' scale zeroPoint).codes :=
    quantize_sameElements hx k.grid false scale (k.grid.effectiveZeroPoint zeroPoint)
  exact .intro (straightThrough_sameElements k.grid hd hcodes)

theorem inputGradientAlong_congr (p : ChannelParameters s) (hx : x.SameElements x')
    {d d' : Tensor Single s} (hd : d.SameElements d') :
    k.inputGradientAlong x p d = k.inputGradientAlong x' p d' :=
  hd.zipWith (.of_eq (quantizeAlong_congr hx k.grid false (p.effective k.grid))) _

/-- The contributions to the parameter gradients are stored row by row in either case. -/
theorem termsAlong_congr (p : ChannelParameters s) (hx : x.SameElements x') {d d' : Tensor Single s}
    (hd : d.SameElements d') : k.termsAlong x p d = k.termsAlong x' p d' := by
  refine congrArg Tensor.ofFn (funext fun i => ?_)
  rw [hx, fakeQuantizeAlong_congr hx, quantizeAlong_congr hx, inputGradientAlong_congr k p hx hd]

theorem backward_channelCall_sameElements (p : ChannelParameters s) (hx : x.SameElements x')
    (hdy : dy.SameElements dy') (t t' : Tracer) :
    SameOutcome Gradients.Same (((k.channelCall x p).backward dy).run t).1
      (((k.channelCall x' p).backward dy').run t').1 := by
  rw [ChannelCall.backward_eq, ChannelCall.backward_eq]
  refine (outputGradient_sameElements s hdy).bind fun d d' hd => ?_
  have hsums : k.sumsAlong x p d = k.sumsAlong x' p d' := by
    funext c
    rw [Kernel.sumsAlong, Kernel.sumsAlong, termsAlong_congr k p hx hd]
  rw [gradients_channelCall, gradients_channelCall, hsums]
  exact .ok ⟨.intro (.of_eq (inputGradientAlong_congr k p hx hd)), rfl, rfl⟩

end Kernels

/-- **The storage order is irrelevant.** Take tensors with the same elements, each stored in either
order. Quantizing, dequantizing and fake quantization, of whole tensors and along an axis, the input
gradient, and forward and backward of both kernels come to results with the same elements, or to the
same error; along an axis the gradients by scale and zero point are the same, too. Nothing is said
about the sums that the kernel for whole tensors takes over all elements. -/
theorem storage_order_irrelevant (k : Kernel) {x x' codes codes' : Tensor Single s}
    (hx : x.SameElements x') (hcodes : codes.SameElements codes') :
    (∀ scale zeroPoint,
      (∀ clamped, (quantize k.grid clamped x scale zeroPoint).SameElements
        (quantize k.grid clamped x' scale zeroPoint)) ∧
      (dequantize codes scale zeroPoint).SameElements (dequantize codes' scale zeroPoint) ∧
      (fakeQuantize k.grid x scale zeroPoint).SameElements
        (fakeQuantize k.grid x' scale zeroPoint)) ∧
    (∀ scale zeroPoint axis,
      (∀ clamped, SameOutcome Tensor.SameElements
        (quantizePerChannel k.grid clamped x scale zeroPoint axis)
        (quantizePerChannel k.grid clamped x' scale zeroPoint axis)) ∧
      SameOutcome Tensor.SameElements (dequantizePerChannel codes scale zeroPoint axis)
        (dequantizePerChannel codes' scale zeroPoint axis) ∧
      SameOutcome Tensor.SameElements (fakeQuantizePerChannel k.grid x scale zeroPoint axis)
        (fakeQuantizePerChannel k.grid x' scale zeroPoint axis)) ∧
    (∀ {dy dy' : Tensor Single s}, dy.SameElements dy' →
      (straightThrough k.grid dy codes).SameElements (straightThrough k.grid dy' codes')) ∧
    (∀ scale zeroPoint t t',
      let call := ((k.forwardTensor x scale zeroPoint).run t).1
      let call' := ((k.forwardTensor x' scale zeroPoint).run t').1
      call.output.SameElements call'.output ∧
        ∀ {dy dy' : AnyTensor Single}, dy.SameElements dy' → ∀ u u',
          SameOutcome Gradients.SameInput ((call.backward dy).run u).1
            ((call'.backward dy').run u').1) ∧
    ∀ scale zeroPoint axis t t',
      SameOutcome
        (fun call call' : ChannelCall s =>
          call.output.SameElements call'.output ∧
            ∀ {dy dy' : AnyTensor Single}, dy.SameElements dy' → ∀ u u',
              SameOutcome Gradients.Same ((call.backward dy).run u).1
                ((call'.backward dy').run u').1)
        ((k.forwardChannels x axis scale zeroPoint).run t).1
        ((k.forwardChannels x' axis scale zeroPoint).run t').1 := by
  refine ⟨fun scale zeroPoint => ⟨fun clamped => ?_, ?_, ?_⟩,
    fun scale zeroPoint axis => ⟨fun clamped => ?_, ?_, ?_⟩, fun hdy => ?_,
    fun scale zeroPoint t t' => ?_, fun scale zeroPoint axis t t' => ?_⟩
  · exact quantize_sameElements hx k.grid clamped scale zeroPoint
  · exact dequantize_sameElements hcodes scale zeroPoint
  · exact fakeQuantize_sameElements hx k.grid scale zeroPoint
  · exact quantizePerChannel_sameElements hx k.grid clamped scale zeroPoint axis
  · exact dequantizePerChannel_sameElements hcodes scale zeroPoint axis
  · exact fakeQuantizePerChannel_sameElements hx k.grid scale zeroPoint axis
  · exact straightThrough_sameElements k.grid hdy hcodes
  · rw [forwardTensor_fst, forwardTensor_fst]
    exact ⟨fakeQuantize_sameElements hx k.grid scale _,
      fun hdy u u' => backward_tensorCall_sameElements k hx hdy scale zeroPoint u u'⟩
  · rw [forwardChannels_fst, forwardChannels_fst]
    exact SameOutcome.map_self fun p =>
      ⟨.of_eq (fakeQuantizeAlong_congr hx k.grid (p.effective k.grid)),
        fun hdy u u' => backward_channelCall_sameElements k p hx hdy u u'⟩

/-- Six numbers stored row by row and the same ones stored column by column. Each tensor can take
the other one as its output gradient. -/
theorem storage_order_irrelevant_matrix :
    let k : Kernel := { grid := ⟨0, 15, by decide⟩, gradientFactor := 1 }
    let x : Tensor Single [2, 3] := ⟨.rowMajor, #v[0, 1, 2, 3, 4, 5]⟩
    let x' := x.storedIn .columnMajor
    x'.data.toList = [0, 3, 1, 4, 2, 5] ∧ ∃ call call',
      ((k.forwardChannels x 1 (.ofList [1, 1, 1]) (.ofList [0, 0, 0])).run Tracer.fresh).1 =
        .ok call ∧
      ((k.forwardChannels x' 1 (.ofList [1, 1, 1]) (.ofList [0, 0, 0])).run Tracer.fresh).1 =
        .ok call' ∧
      SameOutcome Gradients.Same ((call.backward ⟨_, x'⟩).run Tracer.fresh).1
        ((call'.backward ⟨_, x⟩).run Tracer.fresh).1 := by
  intro k x x'
  have hx : x.SameElements x' := x.sameElements_storedIn .columnMajor
  have hx' : x'.SameElements x := fun i => (hx i).symm
  have hdata : x'.data.toList = [0, 3, 1, 4, 2, 5] := rfl
  obtain ⟨-, -, -, -, hchannels⟩ := storage_order_irrelevant k hx hx
  have hforward := hchannels (.ofList [1, 1, 1]) (.ofList [0, 0, 0]) 1 Tracer.fresh Tracer.fresh
  have hcheck : ChannelParameters.callCheck [2, 3] 1 (.ofList [1, 1, 1]) (.ofList [0, 0, 0]) =
      .ok ⟨1, #v[1, 1, 1], #v[0, 0, 0], 1, 1⟩ := rfl
  rw [forwardChannels_fst, forwardChannels_fst, hcheck] at hforward ⊢
  cases hforward with
  | ok h => exact ⟨hdata, _, _, rfl, rfl, h.2 (.intro hx') Tracer.fresh Tracer.fresh⟩

end FakeQuant
