import NGraphBridge.Lib.Crossing
import NGraphBridge.NGraphBuilder.Conv2D

/-!
# One image in two channel orders

An op on an image in the order of nGraph, and the same op on the image in the
order of TensorFlow, with a conversion before it and after it where it has to
be.
-/

namespace NGraphBridge.NGraphBuilder

open NGraph (Shape)
open TF Tensor Axes

/-- The order that takes an image of nGraph to the given format. -/
def backOrder (is_nhwc : Bool) : List Nat := inverse (nchwOrder is_nhwc 2)

theorem isOrder_backOrder (is_nhwc : Bool) : IsOrder (backOrder is_nhwc) 4 :=
  (isOrder_nchwOrder (.inl rfl)).inverse

/-- `back` is the image that `front` is, in the given format. -/
structure Mirrors (opset : Opset) (is_nhwc : Bool) (shape : Shape)
    (front back : Ng) : Prop where
  rank : shape.length = 4
  frontShape : front.shape opset = some shape
  backShape : back.shape opset = some (permute (backOrder is_nhwc) shape)
  eval :
    ∀ {V : Type} [Inhabited V] (library : Library V opset)
      (parameters : Nat → Tensor V),
    back.eval library parameters =
      (front.eval library parameters).map (Tensor.transpose (backOrder is_nhwc))

section Mirrors

variable {opset : Opset} {is_nhwc : Bool} {shape : Shape} {front back : Ng}
  {V : Type} [Inhabited V] {library : Library V opset}
  {parameters : Nat → Tensor V} {value : Tensor V}

theorem eval_rank (rank : shape.length = 4)
    (isShape : front.shape opset = some shape)
    (evaluates : front.eval library parameters = some value) :
    value.rank = 4 := by
  have same := (eval_shape evaluates).symm.trans isShape
  rw [Tensor.rank, Option.some.inj same, rank]

theorem isOrder_value (rank : shape.length = 4)
    (isShape : front.shape opset = some shape)
    (evaluates : front.eval library parameters = some value) :
    IsOrder (backOrder is_nhwc) value.rank := by
  rw [eval_rank rank isShape evaluates]
  exact isOrder_backOrder is_nhwc

theorem backOrder_false : backOrder false = List.range 4 := by decide

theorem mirrors_self {node : Ng} (rank : shape.length = 4)
    (isShape : node.shape opset = some shape) :
    Mirrors opset false shape node node where
  rank := rank
  frontShape := isShape
  backShape := by rw [isShape, backOrder_false, ← rank, range_permute]
  eval := by
    intro V _ library parameters
    cases evaluates : node.eval library parameters with
    | none => rfl
    | some value =>
        rw [Option.map_some, backOrder_false,
          ← eval_rank rank isShape evaluates, transpose_range]

/-- The conversion to the order of TensorFlow. -/
theorem nchwToNHWC_mirrors {node : Ng} (rank : shape.length = 4)
    (isShape : node.shape opset = some shape) :
    ∃ converted, nchwToNHWC opset is_nhwc node = .ok converted ∧
      Mirrors opset is_nhwc shape node converted := by
  cases is_nhwc with
  | false => exact ⟨node, if_neg Bool.false_ne_true, mirrors_self rank isShape⟩
  | true =>
      have isOrder : IsOrder (backOrder true) shape.length :=
        rank.symm ▸ isOrder_backOrder true
      refine ⟨_, nchwToNHWC_eq (.inl rfl) isShape rank, rank, isShape, ?_, ?_⟩
      · rw [Ng.shape, isShape]
        exact if_pos isOrder
      · intro V _ library parameters
        rw [Ng.eval]
        cases evaluates : node.eval library parameters with
        | none => rfl
        | some value => exact if_pos (isOrder_value rank isShape evaluates)

theorem Mirrors.eval_eq {other : Ng}
    (mirrors : Mirrors opset is_nhwc shape front back)
    (others : Mirrors opset is_nhwc shape front other) :
    back.eval library parameters = other.eval library parameters :=
  (mirrors.eval library parameters).trans (others.eval library parameters).symm

/-- The conversion to the order of nGraph. -/
theorem nhwcToNCHW_mirrors {node : Ng} (rank : shape.length = 4)
    (isShape : node.shape opset = some (permute (backOrder is_nhwc) shape)) :
    ∃ converted, nhwcToNCHW opset is_nhwc node = .ok converted ∧
      Mirrors opset is_nhwc shape converted node := by
  cases is_nhwc with
  | false =>
      rw [backOrder_false, ← rank, range_permute] at isShape
      exact ⟨node, if_neg Bool.false_ne_true, mirrors_self rank isShape⟩
  | true =>
      have isOrder : IsOrder (nchwOrder true 2) 4 :=
        isOrder_nchwOrder (.inl rfl)
      have backRank : (permute (backOrder true) shape).length = 4 := by
        rw [length_permute (rank.symm ▸ (isOrder_backOrder true).inside),
          (isOrder_backOrder true).length]
      have isOrderBack :
          IsOrder (nchwOrder true 2) (permute (backOrder true) shape).length :=
        backRank.symm ▸ isOrder
      refine ⟨_, nhwcToNCHW_eq (.inl rfl) isShape backRank, rank, ?_,
        isShape, ?_⟩
      · rw [Ng.shape, isShape]
        exact (if_pos isOrderBack).trans
          (congrArg some (permute_inverse (rank.symm ▸ isOrder)))
      · intro V _ library parameters
        rw [Ng.eval]
        cases evaluates : node.eval library parameters with
        | none => rfl
        | some value =>
            have isOrderValue : IsOrder (nchwOrder true 2) value.rank :=
              (eval_rank backRank isShape evaluates).symm ▸ isOrder
            simp only [bind, Option.bind_some, if_pos isOrderValue]
            exact congrArg some (inverse_transpose isOrderValue).symm

theorem Mirrors.congr {front' back' : Ng}
    (mirrors : Mirrors opset is_nhwc shape front back)
    (frontShape : front'.shape opset = front.shape opset)
    (backShape : back'.shape opset = back.shape opset)
    (frontEval :
      ∀ {V : Type} [Inhabited V] (library : Library V opset)
      (parameters : Nat → Tensor V),
      front'.eval library parameters = front.eval library parameters)
    (backEval :
      ∀ {V : Type} [Inhabited V] (library : Library V opset)
      (parameters : Nat → Tensor V),
      back'.eval library parameters = back.eval library parameters) :
    Mirrors opset is_nhwc shape front' back' where
  rank := mirrors.rank
  frontShape := frontShape.trans mirrors.frontShape
  backShape := backShape.trans mirrors.backShape
  eval := by
    intro V _ library parameters
    rw [frontEval, backEval, mirrors.eval]

/-- An image is known by its conversion. -/
theorem Mirrors.front_eq {other : Ng}
    (mirrors : Mirrors opset is_nhwc shape front back)
    (others : Mirrors opset is_nhwc shape other back) :
    other.eval library parameters = front.eval library parameters := by
  have same := (others.eval library parameters).symm.trans
    (mirrors.eval library parameters)
  cases atOther : other.eval library parameters with
  | none =>
      cases atFront : front.eval library parameters with
      | none => rfl
      | some value =>
          rw [atOther, atFront] at same
          exact nomatch same
  | some otherValue =>
      cases atFront : front.eval library parameters with
      | none =>
          rw [atOther, atFront] at same
          exact nomatch same
      | some value =>
          rw [atOther, atFront, Option.map_some, Option.map_some] at same
          have otherOrder : IsOrder (backOrder is_nhwc) otherValue.rank :=
            isOrder_value others.rank others.frontShape atOther
          have valueOrder : IsOrder (backOrder is_nhwc) value.rank :=
            isOrder_value mirrors.rank mirrors.frontShape atFront
          rw [← inverse_transpose otherOrder, ← inverse_transpose valueOrder,
            Option.some.inj same]

end Mirrors

section Ops

variable {opset : Opset} {is_nhwc : Bool} {shape : Shape} {front back : Ng}

/-- An op on the elements does not see the order. -/
theorem Mirrors.pointwise {wrap : Ng → Ng}
    (mirrors : Mirrors opset is_nhwc shape front back)
    (isShape : ∀ node, (wrap node).shape opset = node.shape opset)
    (isMap : ∀ {V : Type} [Inhabited V] (library : Library V opset),
      ∃ f : V → V, ∀ parameters node,
      (wrap node).eval library parameters = (node.eval library parameters).map
        (Tensor.map f)) :
    Mirrors opset is_nhwc shape (wrap front) (wrap back) where
  rank := mirrors.rank
  frontShape := (isShape front).trans mirrors.frontShape
  backShape := (isShape back).trans mirrors.backShape
  eval := by
    intro V _ library parameters
    obtain ⟨f, mapped⟩ := isMap library
    rw [mapped, mapped, mirrors.eval]
    cases evaluates : front.eval library parameters with
    | none => rfl
    | some value =>
        have isOrder : IsOrder (backOrder is_nhwc) value.rank :=
          isOrder_value mirrors.rank mirrors.frontShape evaluates
        exact congrArg some (map_transpose f isOrder)

theorem Mirrors.relu (mirrors : Mirrors opset is_nhwc shape front back) :
    Mirrors opset is_nhwc shape (.Relu front) (.Relu back) := by
  apply mirrors.pointwise
  · exact fun _ => rfl
  · intro V _ library
    refine ⟨library.relu, fun parameters node => ?_⟩
    rw [Ng.eval]
    cases node.eval library parameters <;> rfl

theorem Mirrors.clamp (mirrors : Mirrors opset is_nhwc shape front back)
    (low high : Int) :
    Mirrors opset is_nhwc shape (.Clamp front low high)
      (.Clamp back low high) := by
  apply @Mirrors.pointwise _ _ _ _ _ (.Clamp · low high) mirrors
  · exact fun _ => rfl
  · intro V _ library
    refine ⟨library.clamp low high, fun parameters node => ?_⟩
    rw [Ng.eval]
    cases node.eval library parameters <;> rfl

/-- Addends of rank four are converted like the images. -/
theorem Mirrors.add {addendShape : Shape} {left right : Ng}
    (mirrors : Mirrors opset is_nhwc shape front back)
    (addends : Mirrors opset is_nhwc addendShape left right)
    (fits : broadcast shape addendShape = some shape) :
    Mirrors opset is_nhwc shape (.Add front left) (.Add back right) := by
  have ranks : shape.length = addendShape.length :=
    mirrors.rank.trans addends.rank.symm
  have isOrder : IsOrder (backOrder is_nhwc) shape.length :=
    mirrors.rank.symm ▸ isOrder_backOrder is_nhwc
  have isOrderAddend : IsOrder (backOrder is_nhwc) addendShape.length :=
    ranks ▸ isOrder
  refine ⟨mirrors.rank, ?_, ?_, ?_⟩
  · rw [Ng.shape, mirrors.frontShape, addends.frontShape]
    exact fits
  · have permuted : (permute (backOrder is_nhwc) shape).length =
        (permute (backOrder is_nhwc) addendShape).length := by
      rw [length_permute isOrder.inside, length_permute isOrderAddend.inside]
    have stretched := stretchAll_permute isOrder ranks
    rw [broadcast, extend_self (Nat.le_of_eq ranks.symm),
      extend_self (Nat.le_of_eq ranks)] at fits
    rw [fits, Option.map_some] at stretched
    rw [Ng.shape, mirrors.backShape, addends.backShape]
    simp only [bind, Option.bind_some, broadcast]
    rw [extend_self (Nat.le_of_eq permuted.symm),
      extend_self (Nat.le_of_eq permuted), stretched]
  · intro V _ library parameters
    rw [Ng.eval, Ng.eval, mirrors.eval, addends.eval]
    cases atFront : front.eval library parameters with
    | none => rfl
    | some value =>
        cases atLeft : left.eval library parameters with
        | none => rfl
        | some addend =>
            have isOrderValue : IsOrder (backOrder is_nhwc) value.rank :=
              isOrder_value mirrors.rank mirrors.frontShape atFront
            have sameRank : value.rank = addend.rank :=
              (eval_rank mirrors.rank mirrors.frontShape atFront).trans
                (eval_rank addends.rank addends.frontShape atLeft).symm
            exact binary_transpose isOrderValue sameRank

/-- The shape that nGraph adds a vector of biases in. -/
def biasShape (c : Nat) : Shape := [1, c, 1, 1]

variable {n c h w : Nat} {bias : Ng}

theorem keeps_biasShape (order : List Nat) (c : Nat) (once : order.Nodup) :
    Keeps order (biasShape c) := by
  have atMost : ∀ axis ∈ order.filter fun axis => (biasShape c).getD axis 1 ≠ 1,
      axis = 1 := by
    intro axis member
    have wide := of_decide_eq_true (List.mem_filter.mp member).2
    match axis, wide with
    | 0, wide => exact absurd rfl wide
    | 1, _ => rfl
    | 2, wide => exact absurd rfl wide
    | 3, wide => exact absurd rfl wide
    | _ + 4, wide => exact absurd rfl wide
  have single :
      (order.filter fun axis => (biasShape c).getD axis 1 ≠ 1).Nodup :=
    once.filter _
  apply single.imp_of_mem
  intro first second firstIn secondIn differ
  exact absurd ((atMost first firstIn).trans (atMost second secondIn).symm)
    differ

/-- In the order of TensorFlow a vector is stretched along the channels
anyway. -/
theorem expand_bias {V : Type} [Inhabited V] {vector reshaped : Tensor V}
    (isVector : vector.shape = [c])
    (asked : vector.reshape (biasShape c) = some reshaped) :
    vector.expand 4 = reshaped.transpose (backOrder true) := by
  unfold Tensor.reshape at asked
  split at asked
  next full =>
    obtain rfl := Option.some.inj asked
    have isOrder :
        IsOrder (backOrder true)
          (⟨biasShape c, vector.data, full⟩ : Tensor V).rank :=
      isOrder_backOrder true
    have keeps : Keeps (backOrder true) (biasShape c) :=
      keeps_biasShape _ c (isOrder_backOrder true).nodup
    have shapes : extend 4 vector.shape = permute (backOrder true)
        (biasShape c) := by
      rw [isVector]
      rfl
    rw [← relabel_eq_transpose isOrder keeps]
    refine Tensor.ext shapes fun index _ => ?_
    rw [Tensor.get, Tensor.get]
    dsimp only [expand, relabel]
    rw [shapes]
  next => exact absurd asked (by simp)

theorem broadcast_bias (n c h w : Nat) :
    broadcast [n, c, h, w] (biasShape c) = some [n, c, h, w] := by
  have right : ∀ dim, stretch dim 1 = some dim := fun dim =>
    (stretch_comm dim 1).trans (stretch_one dim)
  have ranks : extend (biasShape c).length [n, c, h, w] = [n, c, h, w] := rfl
  have ranks' : extend [n, c, h, w].length (biasShape c) = biasShape c := rfl
  rw [broadcast, ranks, ranks', biasShape, stretchAll_cons, stretchAll_cons,
    stretchAll_cons, stretchAll_cons, right, right, right, stretch_self]
  rfl

theorem prod_biasShape (c : Nat) : [c].prod = (biasShape c).prod := by
  simp [biasShape]

theorem shape_reshapedBias (isVector : bias.shape opset = some [c]) :
    (Ng.Reshape bias (biasShape c)).shape opset = some (biasShape c) := by
  rw [Ng.shape, isVector]
  exact if_pos (prod_biasShape c)

/-- What TensorFlow adds to an image in the given format. -/
def biasAddend (is_nhwc : Bool) (bias : Ng) (c : Nat) : Ng :=
  if is_nhwc then bias else .Reshape bias (biasShape c)

theorem eval_add_bias {V : Type} [Inhabited V] {library : Library V opset}
    {parameters : Nat → Tensor V} {image : Shape}
    (isShape : back.shape opset = some (permute (backOrder true) image))
    (rank : (permute (backOrder true) image).length = 4)
    (isVector : bias.shape opset = some [c]) :
    (Ng.Add back bias).eval library parameters =
      (Ng.Add back (.Transpose (.Reshape bias (biasShape c))
          (backOrder true))).eval library
        parameters := by
  rw [Ng.eval, Ng.eval, Ng.eval, Ng.eval]
  cases atBack : back.eval library parameters with
  | none => rfl
  | some value =>
      cases atBias : bias.eval library parameters with
      | none => rfl
      | some vector =>
          have valueRank : value.rank = 4 := eval_rank rank isShape atBack
          have vectorShape : vector.shape = [c] :=
            Option.some.inj ((eval_shape atBias).symm.trans isVector)
          have full : vector.data.length = (biasShape c).prod := by
            rw [vector.full, vectorShape, prod_biasShape]
          have asked : vector.reshape (biasShape c) =
              some (⟨biasShape c, vector.data, full⟩ : Tensor V) := dif_pos full
          have isOrder :
              IsOrder (backOrder true)
                (⟨biasShape c, vector.data, full⟩ : Tensor V).rank :=
            isOrder_backOrder true
          have lower : vector.rank ≤ value.rank := by
            rw [valueRank, Tensor.rank, vectorShape]
            exact Nat.le_of_ble_eq_true rfl
          simp only [bind, Option.bind_some, asked, if_pos isOrder]
          rw [binary_expand, expand_self lower, valueRank,
            expand_bias vectorShape asked]

theorem Mirrors.addBias
    (mirrors : Mirrors opset is_nhwc [n, c, h, w] front back)
    (isVector : bias.shape opset = some [c]) :
    Mirrors opset is_nhwc
      [n, c, h, w] (.Add front (.Reshape bias (biasShape c)))
      (.Add back (biasAddend is_nhwc bias c)) := by
  have reshaped := shape_reshapedBias isVector
  have fits := broadcast_bias n c h w
  cases is_nhwc with
  | false => exact mirrors.add (mirrors_self rfl reshaped) fits
  | true =>
      obtain ⟨converted, conversion, addends⟩ :=
        @nchwToNHWC_mirrors _ true _ _ rfl reshaped
      obtain rfl := Except.ok.inj
        ((nchwToNHWC_eq (.inl rfl) reshaped rfl).symm.trans conversion)
      have added := mirrors.add addends fits
      refine ⟨rfl, added.frontShape, ?_, ?_⟩
      · have isShape := added.backShape
        rw [Ng.shape, mirrors.backShape, addends.backShape] at isShape
        change (Ng.Add back bias).shape opset = _
        rw [Ng.shape, mirrors.backShape, isVector]
        exact isShape
      · intro V _ library parameters
        rw [← added.eval library parameters]
        exact eval_add_bias mirrors.backShape rfl isVector

theorem Mirrors.batchNorm {converted scale offset mean variance : Ng}
    {epsilon : UInt32} (mirrors : Mirrors opset is_nhwc shape front back)
    (conversion : Mirrors opset is_nhwc shape converted back)
    (keeps :
      (Ng.BatchNormInference front scale offset mean variance epsilon).shape
        opset =
      some shape) :
    (Ng.BatchNormInference converted scale offset mean variance epsilon).shape
      opset = some shape ∧
    ∀ {V : Type} [Inhabited V] (library : Library V opset)
    (parameters : Nat → Tensor V),
      (Ng.BatchNormInference converted scale offset mean variance epsilon).eval
        library parameters =
        (Ng.BatchNormInference front scale offset mean variance epsilon).eval
          library parameters := by
  constructor
  · rw [Ng.shape, mirrors.frontShape] at keeps
    rw [Ng.shape, conversion.frontShape]
    exact keeps
  · intro V _ library parameters
    rw [Ng.eval, Ng.eval, mirrors.front_eq conversion]

end Ops

end NGraphBridge.NGraphBuilder
