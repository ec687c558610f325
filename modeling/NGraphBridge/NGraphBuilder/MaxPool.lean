import NGraphBridge.NGraphBuilder.Conversions
import NGraphBridge.NGraphBuilder.Slice

/-!
# Translating `MaxPool` and `MaxPool3D`

The window is taken over the spatial axes; its entries for the batch and the
channels are not looked at.
-/

namespace NGraphBridge.NGraphBuilder

open NGraph (Shape)
open TF Tensor Axes

/-- `MakePadding`: what is added below and above. -/
def makePadding (opset : Opset) (tf_padding_type : String)
    (ng_image_shape ng_kernel_shape : Shape) (ng_strides : List Nat)
    (ng_dilations : Shape) : List Int × List Int :=
  if tf_padding_type = "SAME" then
    let (padding_above, padding_below) :=
      opset.infer_auto_padding (0 :: 0 :: ng_image_shape) ng_kernel_shape
        ng_strides ng_dilations
    (padding_below, padding_above)
  else if tf_padding_type = "VALID" then
    (List.replicate ng_image_shape.length 0,
        List.replicate ng_image_shape.length 0)
  else ([], [])

/-- `size` is the number of the spatial axes. -/
def translateMaxPoolOp (size : Nat) (opset : Opset) (op : OpNode)
    (ng_op_map : OpMap) : Translates OpMap := do
  let inputs ← getInputNodes ng_op_map op 1
  let tf_strides ← returnIfError (getNodeAttrInts op.attrs "strides")
  let tf_ksize ← returnIfError (getNodeAttrInts op.attrs "ksize")
  let tf_padding_type ← returnIfError (getNodeAttrString op.attrs "padding")
  let tf_data_format ← returnIfError (getNodeAttrString op.attrs "data_format")
  let is_nhwc : Bool := tf_data_format = "NHWC" ∨ tf_data_format = "NDHWC"
  let ng_strides ← nhwcToHW is_nhwc size (tf_strides.map toUnsigned)
  let ng_image_shape ← nhwcToHW is_nhwc size ((inputs 0).get_shape opset)
  let ng_kernel_shape ← nhwcToHW is_nhwc size (tf_ksize.map toUnsigned)
  let ng_input ← nhwcToNCHW opset is_nhwc (inputs 0)
  let padding :=
    makePadding opset tf_padding_type ng_image_shape ng_kernel_shape ng_strides
      (List.replicate size 1)
  let ng_maxpool ← constructNgNode opset (.MaxPool ng_input
    { strides := ng_strides
      pads_begin := padding.1.map toUnsigned
      pads_end := padding.2.map toUnsigned
      kernel := ng_kernel_shape })
  let ng_maxpool ← nchwToNHWC opset is_nhwc ng_maxpool
  .ok (saveNgOp ng_op_map op.name ng_maxpool)

/-- An op whose input is an image or a volume and whose window has an entry for
each axis. -/
structure MaxPoolInputs (size : Nat) (opset : Opset) (op : OpNode)
    (ng_op_map : OpMap) (data : Ng) (shape : Shape) (is_nhwc : Bool)
    (ksize strides : List Nat) : Prop where
  isSize : size = 2 ∨ size = 3
  inputs : ∃ nodes, getInputNodes ng_op_map op 1 = .ok nodes ∧ nodes 0 = data
  stridesAttr : getNodeAttrInts op.attrs "strides" = .ok (strides.map Int.ofNat)
  ksizeAttr : getNodeAttrInts op.attrs "ksize" = .ok (ksize.map Int.ofNat)
  padding : getNodeAttrString op.attrs "padding" = .ok "VALID"
  format : ∃ data_format, getNodeAttrString op.attrs "data_format" =
    .ok data_format ∧
    is_nhwc = decide (data_format = "NHWC" ∨ data_format = "NDHWC")
  isShape : data.shape opset = some shape
  rank : shape.length = size + 2
  ksizeLength : ksize.length = size + 2
  stridesLength : strides.length = size + 2
  ksizePositive : ∀ entry ∈ ksize, 0 < entry ∧ entry < 2 ^ 31
  stridesPositive : ∀ entry ∈ strides, 0 < entry ∧ entry < 2 ^ 31

/-- What nGraph documents for the result of a pooling without padding. -/
def PoolRules (opset : Opset) : Prop :=
  ∀ (attrs : Pooling) (first second : Nat) (dims result : Shape),
    attrs.kernel.length = dims.length → attrs.strides.length = dims.length →
    attrs.pads_begin = List.replicate dims.length 0 →
    attrs.pads_end = List.replicate dims.length 0 →
    opset.max_pool attrs (first :: second :: dims) = some result →
      result = first :: second :: pooledShape dims attrs.kernel attrs.strides

/-- The translation ends with an error, or what is stored has the greatest
elements of the windows over all axes. -/
def MaxPoolsCorrectly (size : Nat) (opset : Opset) (op : OpNode)
    (ng_op_map : OpMap) (data : Ng) (shape : Shape)
    (ksize strides : List Nat) : Prop :=
  (∃ failure, failure ≠ .outOfBounds ∧
    translateMaxPoolOp size opset op ng_op_map = .error failure) ∨
  ∃ node, translateMaxPoolOp size opset op ng_op_map =
    .ok (saveNgOp ng_op_map op.name node) ∧
    node.shape opset = some (pooledShape shape ksize strides) ∧
    ∀ (V : Type) [Inhabited V] [LinearOrder V] (library : Library V opset)
      (parameters : Nat → Tensor V) value, library.max = max →
      data.eval library parameters = some value →
        ∃ result, node.eval library parameters = some result ∧
        IsMaxPool ksize strides value result

/-- The pooling that is built. -/
def spatialPooling (is_nhwc : Bool) (size : Nat) (ksize strides : List Nat) :
    Pooling where
  strides := (permute (nchwOrder is_nhwc size) strides).drop 2
  pads_begin := List.replicate size 0
  pads_end := List.replicate size 0
  kernel := (permute (nchwOrder is_nhwc size) ksize).drop 2

/-- The node that is stored. -/
def maxPoolNode (is_nhwc : Bool) (size : Nat) (data : Ng)
    (attrs : Pooling) : Ng :=
  if is_nhwc then
    .Transpose (.MaxPool (.Transpose data (nchwOrder true size)) attrs)
      (inverse (nchwOrder true size))
  else .MaxPool data attrs

section Translate

variable {size : Nat} {opset : Opset} {op : OpNode} {ng_op_map : OpMap}
  {data : Ng} {shape : Shape} {is_nhwc : Bool} {ksize strides : List Nat}

theorem map_toUnsigned {entries : List Nat}
    (below : ∀ entry ∈ entries, entry < 2 ^ 31) :
    (entries.map Int.ofNat).map toUnsigned = entries := by
  rw [List.map_map]
  calc entries.map (toUnsigned ∘ Int.ofNat) = entries.map id := by
        apply List.map_congr_left
        intro entry member
        have bound := below entry member
        rw [Function.comp_apply, toUnsigned, Int.ofNat_eq_natCast,
          Int.emod_eq_of_lt (by omega) (by omega), Int.toNat_natCast, id]
    _ = entries := List.map_id _

theorem length_spatial (isSize : size = 2 ∨ size = 3) {src : List Nat}
    (length : src.length = size + 2) :
    ((permute (nchwOrder is_nhwc size) src).drop 2).length = size := by
  have isOrder : IsOrder (nchwOrder is_nhwc size) src.length :=
    length.symm ▸ isOrder_nchwOrder isSize
  rw [List.length_drop, length_permute isOrder.inside, isOrder.length, length,
    Nat.add_sub_cancel]

/-- The pooling of the data with the channels in front. -/
theorem MaxPoolInputs.pooled
    (inputs : MaxPoolInputs size opset op ng_op_map data shape is_nhwc
      ksize strides)
    (rules : PoolRules opset) {result : Shape}
    (accepts : opset.max_pool (spatialPooling is_nhwc size ksize strides)
      (permute (nchwOrder is_nhwc size) shape) = some result) :
    result = shape.getD 0 0 :: shape.getD (if is_nhwc then size + 1 else 1) 0 ::
      pooledShape ((permute (nchwOrder is_nhwc size) shape).drop 2)
        (spatialPooling is_nhwc size ksize strides).kernel
        (spatialPooling is_nhwc size ksize strides).strides := by
  have dims := @length_spatial _ is_nhwc inputs.isSize _ inputs.rank
  rw [permute_nchwOrder inputs.isSize inputs.rank] at accepts
  apply rules _ _ _ _ _ _ _ _ _ accepts
  · rw [dims]
    exact length_spatial inputs.isSize inputs.ksizeLength
  · rw [dims]
    exact length_spatial inputs.isSize inputs.stridesLength
  · rw [dims]
    rfl
  · rw [dims]
    rfl

/-- The pooling between the two transpositions. -/
theorem pool_eq {attrs : Pooling} (isSize : size = 2 ∨ size = 3)
    (isShape : data.shape opset = some shape) (rank : shape.length = size + 2)
    (resultRank : ∀ result,
      opset.max_pool attrs (permute (nchwOrder is_nhwc size) shape) =
        some result →
      result.length = size + 2) :
    ((nhwcToNCHW opset is_nhwc data).bind fun ng_input =>
      (constructNgNode opset (.MaxPool ng_input attrs)).bind
        (nchwToNHWC opset is_nhwc)) =
      match opset.max_pool attrs (permute (nchwOrder is_nhwc size) shape) with
      | none => .error .exception
      | some _ => .ok (maxPoolNode is_nhwc size data attrs) := by
  cases is_nhwc with
  | false =>
      have whole : permute (nchwOrder false size) shape = shape := by
        rw [nchwOrder, if_neg Bool.false_ne_true, ← rank, range_permute]
      have nodeShape :
          (Ng.MaxPool data attrs).shape opset = opset.max_pool attrs shape := by
        rw [Ng.shape, isShape]
        rfl
      rw [nhwcToNCHW, if_neg Bool.false_ne_true, whole, ← nodeShape,
        Except.bind, constructNgNode]
      cases (Ng.MaxPool data attrs).shape opset with
      | none => rfl
      | some result => rfl
  | true =>
      have isOrder : IsOrder (nchwOrder true size) shape.length :=
        rank.symm ▸ isOrder_nchwOrder isSize
      have nodeShape :
          (Ng.MaxPool (.Transpose data (nchwOrder true size)) attrs).shape
            opset =
          opset.max_pool attrs (permute (nchwOrder true size) shape) := by
        rw [Ng.shape, Ng.shape, isShape]
        simp only [bind, Option.bind_some, if_pos isOrder]
      rw [nhwcToNCHW_eq isSize isShape rank, Except.bind, constructNgNode]
      cases accepts :
        opset.max_pool attrs (permute (nchwOrder true size) shape) with
      | none =>
          rw [nodeShape, accepts]
          rfl
      | some result =>
          have back := nchwToNHWC_eq isSize (nodeShape.trans accepts)
            (resultRank result accepts)
          rw [nodeShape, accepts, Except.bind, back]
          rfl

theorem MaxPoolInputs.result_length
    (inputs : MaxPoolInputs size opset op ng_op_map data shape is_nhwc
      ksize strides)
    (rules : PoolRules opset) {result : Shape}
    (accepts : opset.max_pool (spatialPooling is_nhwc size ksize strides)
      (permute (nchwOrder is_nhwc size) shape) = some result) :
    result.length = size + 2 := by
  have dims := @length_spatial _ is_nhwc inputs.isSize _ inputs.rank
  rw [inputs.pooled rules accepts, List.length_cons, List.length_cons,
    length_pooledShape, dims]
  · rw [dims]
    exact length_spatial inputs.isSize inputs.ksizeLength
  · rw [dims]
    exact length_spatial inputs.isSize inputs.stridesLength

/-- What is built, unless nGraph rejects the pooling. -/
theorem MaxPoolInputs.translate
    (inputs : MaxPoolInputs size opset op ng_op_map data shape is_nhwc
      ksize strides)
    (rules : PoolRules opset) :
    translateMaxPoolOp size opset op ng_op_map =
      match opset.max_pool (spatialPooling is_nhwc size ksize strides)
        (permute (nchwOrder is_nhwc size) shape) with
      | none => .error .exception
      | some _ => .ok (saveNgOp ng_op_map op.name
          (maxPoolNode is_nhwc size data
            (spatialPooling is_nhwc size ksize strides))) := by
  obtain ⟨nodes, found, isData⟩ := inputs.inputs
  obtain ⟨data_format, formatAttr, isFormat⟩ := inputs.format
  have kernelKept :=
    map_toUnsigned fun entry member => (inputs.ksizePositive entry member).2
  have stridesKept :=
    map_toUnsigned fun entry member => (inputs.stridesPositive entry member).2
  have isShape := Ng.get_shape_eq inputs.isShape
  have kernel := @nhwcToHW_eq is_nhwc _ inputs.isSize _ inputs.ksizeLength
  have strides' := @nhwcToHW_eq is_nhwc _ inputs.isSize _ inputs.stridesLength
  have image := @nhwcToHW_eq is_nhwc _ inputs.isSize _ inputs.rank
  have dims := @length_spatial _ is_nhwc inputs.isSize _ inputs.rank
  have padding :
      (makePadding opset "VALID"
        ((permute (nchwOrder is_nhwc size) shape).drop 2)
        ((permute (nchwOrder is_nhwc size) ksize).drop 2)
        ((permute (nchwOrder is_nhwc size) strides).drop 2)
        (List.replicate size 1)) =
        (List.replicate size 0, List.replicate size 0) := by
    rw [makePadding, if_neg (by decide), if_pos rfl, dims]
  have zeros : (List.replicate size (0 : Int)).map toUnsigned =
      List.replicate size 0 := by
    rw [List.map_replicate]
    rfl
  have attrs : ({ strides := (permute (nchwOrder is_nhwc size) strides).drop 2
                  pads_begin := List.replicate size 0
                  pads_end := List.replicate size 0
                  kernel := (permute (nchwOrder is_nhwc size) ksize).drop 2 } :
                  Pooling) =
      spatialPooling is_nhwc size ksize strides := rfl
  have pooled := pool_eq inputs.isSize inputs.isShape inputs.rank
    fun result accepts => inputs.result_length rules accepts
  rw [translateMaxPoolOp, inputs.stridesAttr, inputs.ksizeAttr, inputs.padding,
    formatAttr]
  simp only [bind, Except.bind, found, isData, returnIfError, ← isFormat,
    kernelKept, stridesKept, isShape, kernel, strides', image, padding,
    zeros, attrs]
  calc _ = ((nhwcToNCHW opset is_nhwc data).bind fun ng_input =>
        (constructNgNode opset
            (.MaxPool ng_input
              (spatialPooling is_nhwc size ksize strides))).bind
          (nchwToNHWC opset is_nhwc)).map (saveNgOp ng_op_map op.name) := by
        cases nhwcToNCHW opset is_nhwc data with
        | error failure => rfl
        | ok input =>
            dsimp only [Except.bind]
            cases constructNgNode opset
              (.MaxPool input (spatialPooling is_nhwc size ksize strides)) with
            | error failure => rfl
            | ok pool =>
                dsimp only
                cases nchwToNHWC opset is_nhwc pool with
                | error failure => rfl
                | ok node => rfl
    _ = _ := by
        rw [pooled]
        cases opset.max_pool (spatialPooling is_nhwc size ksize strides)
          (permute (nchwOrder is_nhwc size) shape) with
        | none => rfl
        | some result => rfl

/-- The dimensions of the windows over all axes, with the channels in front. -/
theorem MaxPoolInputs.permute_pooledShape
    (inputs : MaxPoolInputs size opset op ng_op_map data shape is_nhwc ksize
      strides) :
    permute (nchwOrder is_nhwc size) (pooledShape shape ksize strides) =
      windowPlaces (shape.getD 0 0) (ksize.getD 0 0) (strides.getD 0 0) ::
      windowPlaces (shape.getD (if is_nhwc then size + 1 else 1) 0)
        (ksize.getD (if is_nhwc then size + 1 else 1) 0)
        (strides.getD (if is_nhwc then size + 1 else 1) 0) ::
      pooledShape ((permute (nchwOrder is_nhwc size) shape).drop 2)
        (spatialPooling is_nhwc size ksize strides).kernel
        (spatialPooling is_nhwc size ksize strides).strides := by
  have isOrder : IsOrder (nchwOrder is_nhwc size) shape.length :=
    inputs.rank.symm ▸ isOrder_nchwOrder inputs.isSize
  rw [← pooledShape_permute isOrder (inputs.ksizeLength.trans inputs.rank.symm)
    (inputs.stridesLength.trans inputs.rank.symm),
    permute_nchwOrder inputs.isSize inputs.rank,
    permute_nchwOrder inputs.isSize inputs.ksizeLength,
    permute_nchwOrder inputs.isSize inputs.stridesLength, pooledShape_cons,
    pooledShape_cons]
  rfl

theorem getD_positive {entries : List Nat} {place : Nat}
    (inside : place < entries.length)
    (positive : ∀ entry ∈ entries, 0 < entry ∧ entry < 2 ^ 31) :
    0 < entries.getD place 0 := by
  rw [getD_of_lt inside]
  exact (positive _ (List.getElem_mem inside)).1

/-- The window does not change the batch and the channels. -/
def KeepsOuterAxes (is_nhwc : Bool) (size : Nat)
    (shape ksize strides : List Nat) : Prop :=
  KeepsAxis (shape.getD 0 0) (ksize.getD 0 0) (strides.getD 0 0) ∧
    KeepsAxis (shape.getD (if is_nhwc then size + 1 else 1) 0)
      (ksize.getD (if is_nhwc then size + 1 else 1) 0)
      (strides.getD (if is_nhwc then size + 1 else 1) 0)

/-- What nGraph computes has the dimensions of the windows only if they leave
the batch and the channels as they are. -/
theorem MaxPoolInputs.shape_iff
    (inputs : MaxPoolInputs size opset op ng_op_map data shape is_nhwc
      ksize strides)
    (rules : PoolRules opset) {result : Shape}
    (accepts : opset.max_pool (spatialPooling is_nhwc size ksize strides)
      (permute (nchwOrder is_nhwc size) shape) = some result) :
    result = permute (nchwOrder is_nhwc size)
      (pooledShape shape ksize strides) ↔
      KeepsOuterAxes is_nhwc size shape ksize strides := by
  have ksizeLength := inputs.ksizeLength
  have stridesLength := inputs.stridesLength
  have channels : (if is_nhwc then size + 1 else 1) < size + 2 := by
    split <;> omega
  have first := @windowPlaces_eq_iff (shape.getD 0 0) (ksize.getD 0 0)
    (strides.getD 0 0)
    (getD_positive (by omega) inputs.ksizePositive)
    (getD_positive (by omega) inputs.stridesPositive)
  have second :=
    @windowPlaces_eq_iff (shape.getD (if is_nhwc then size + 1 else 1) 0)
      (ksize.getD (if is_nhwc then size + 1 else 1) 0)
      (strides.getD (if is_nhwc then size + 1 else 1) 0)
      (getD_positive (by omega) inputs.ksizePositive)
      (getD_positive (by omega) inputs.stridesPositive)
  rw [inputs.pooled rules accepts, inputs.permute_pooledShape, KeepsOuterAxes,
    ← first, ← second]
  simp only [List.cons.injEq, and_true]
  exact and_congr eq_comm eq_comm

theorem maxPoolNode_shape {attrs : Pooling} {result : Shape}
    (isSize : size = 2 ∨ size = 3) (isShape : data.shape opset = some shape)
    (rank : shape.length = size + 2)
    (accepts : opset.max_pool attrs (permute (nchwOrder is_nhwc size) shape) =
      some result)
    (resultRank : result.length = size + 2) :
    (maxPoolNode is_nhwc size data attrs).shape opset =
      some (permute (inverse (nchwOrder is_nhwc size)) result) := by
  cases is_nhwc with
  | false =>
      have range : nchwOrder false size = List.range (size + 2) :=
        if_neg Bool.false_ne_true
      have whole : permute (nchwOrder false size) shape = shape := by
        rw [range, ← rank, range_permute]
      rw [whole] at accepts
      rw [maxPoolNode, if_neg Bool.false_ne_true, Ng.shape, isShape]
      simp only [bind, Option.bind_some, accepts]
      rw [range, inverse_range, ← resultRank, range_permute]
  | true =>
      have isOrder : IsOrder (nchwOrder true size) shape.length :=
        rank.symm ▸ isOrder_nchwOrder isSize
      have isInverse : IsOrder (inverse (nchwOrder true size)) result.length :=
        resultRank.symm ▸ (isOrder_nchwOrder isSize).inverse
      rw [maxPoolNode, if_pos rfl, Ng.shape, Ng.shape, Ng.shape, isShape]
      simp only [bind, Option.bind_some, if_pos isOrder, accepts,
        if_pos isInverse]

/-- A pooling without padding takes the greatest elements of windows over the
later axes. -/
theorem isMaxPool_maxPool {V : Type} [Inhabited V] [LinearOrder V]
    {tensor : Tensor V} {attrs : Pooling} {first second : Nat} {dims : Shape}
    (isShape : tensor.shape = first :: second :: dims)
    (kernelLength : attrs.kernel.length = dims.length)
    (stridesLength : attrs.strides.length = dims.length)
    (noPads : attrs.pads_begin = List.replicate dims.length 0)
    (positive : ∀ entry ∈ attrs.kernel, 0 < entry) :
    IsMaxPool (1 :: 1 :: attrs.kernel) (1 :: 1 :: attrs.strides) tensor
      (maxPool max attrs
        (first :: second :: pooledShape dims attrs.kernel attrs.strides)
        tensor) := by
  have rank : tensor.rank = dims.length + 2 := congrArg List.length isShape
  have pooled :=
    @isMaxPool_window V _ _ (1 :: 1 :: attrs.kernel)
      (1 :: 1 :: attrs.strides) tensor (by simpa using positive)
      (by simp [kernelLength, rank])
    (by simp [stridesLength, rank])
  rw [isShape, pooledShape_cons, pooledShape_cons, windowPlaces_one,
    windowPlaces_one, rank, List.replicate_succ, List.replicate_succ, ← noPads,
    ← isShape] at pooled
  exact pooled

theorem MaxPoolInputs.eval
    (inputs : MaxPoolInputs size opset op ng_op_map data shape is_nhwc
      ksize strides)
    (rules : PoolRules opset) {result : Shape}
    (accepts : opset.max_pool (spatialPooling is_nhwc size ksize strides)
      (permute (nchwOrder is_nhwc size) shape) = some result)
    (keeps : KeepsOuterAxes is_nhwc size shape ksize strides)
    {V : Type} [Inhabited V] [LinearOrder V] {library : Library V opset}
    {parameters : Nat → Tensor V} {value : Tensor V} (isMax : library.max = max)
    (evaluates : data.eval library parameters = some value) :
    ∃ pooled,
      (maxPoolNode is_nhwc size data
        (spatialPooling is_nhwc size ksize strides)).eval library
        parameters = some pooled ∧ IsMaxPool ksize strides value pooled := by
  have sameShape := (eval_shape evaluates).symm.trans inputs.isShape
  obtain rfl := Option.some.inj sameShape
  have isOrder : IsOrder (nchwOrder is_nhwc size) value.rank :=
    (inputs.rank.symm ▸ isOrder_nchwOrder inputs.isSize :
        IsOrder _ value.shape.length)
  have ksizeLength := inputs.ksizeLength
  have stridesLength := inputs.stridesLength
  have channels : (if is_nhwc then size + 1 else 1) < size + 2 := by
    split <;> omega
  have dims := @length_spatial _ is_nhwc inputs.isSize _ inputs.rank
  have front : IsMaxPool (permute (nchwOrder is_nhwc size) ksize)
      (permute (nchwOrder is_nhwc size) strides)
      (value.transpose (nchwOrder is_nhwc size))
      (maxPool max (spatialPooling is_nhwc size ksize strides) result
        (value.transpose (nchwOrder is_nhwc size))) := by
    have isShape : (value.transpose (nchwOrder is_nhwc size)).shape = _ :=
      permute_nchwOrder inputs.isSize inputs.rank
    rw [permute_nchwOrder inputs.isSize inputs.ksizeLength,
      permute_nchwOrder inputs.isSize inputs.stridesLength,
      inputs.pooled rules accepts]
    apply isMaxPool_keepsAxes isShape keeps.1 keeps.2
    · exact getD_positive (by omega) inputs.ksizePositive
    · exact getD_positive (by omega) inputs.stridesPositive
    · exact getD_positive (by omega) inputs.ksizePositive
    · exact getD_positive (by omega) inputs.stridesPositive
    · apply @isMaxPool_maxPool V
        _ _ _ (spatialPooling is_nhwc size ksize strides) _ _ _ isShape
      · rw [dims]
        exact length_spatial inputs.isSize inputs.ksizeLength
      · rw [dims]
        exact length_spatial inputs.isSize inputs.stridesLength
      · rw [dims]
        rfl
      · intro entry member
        exact (inputs.ksizePositive entry
            (mem_permute (List.mem_of_mem_drop member))).1
  have back := IsMaxPool.transpose isOrder
    (inputs.ksizeLength.trans inputs.rank.symm)
    (inputs.stridesLength.trans inputs.rank.symm) front
  refine ⟨_, ?_, back⟩
  have resultRank : result.length = value.rank :=
    (inputs.result_length rules accepts).trans inputs.rank.symm
  cases is_nhwc with
  | false =>
      have range : nchwOrder false size = List.range value.rank :=
        (if_neg Bool.false_ne_true).trans (congrArg List.range inputs.rank.symm)
      have whole : value.transpose (nchwOrder false size) = value := by
        rw [range, transpose_range]
      have kept : permute (nchwOrder false size) value.shape = value.shape := by
        rw [range]
        exact range_permute value.shape
      rw [kept] at accepts
      rw [maxPoolNode, if_neg Bool.false_ne_true, Ng.eval, evaluates]
      simp only [bind, Option.bind_some, accepts, whole, isMax]
      rw [range, inverse_range, ← resultRank]
      exact congrArg some (transpose_range _).symm
  | true =>
      have isInverse : IsOrder (inverse (nchwOrder true size)) (maxPool max
          (spatialPooling true size ksize strides) result
          (value.transpose (nchwOrder true size))).rank :=
        (resultRank.symm ▸ isOrder.inverse : IsOrder _ result.length)
      rw [maxPoolNode, if_pos rfl, Ng.eval, Ng.eval, Ng.eval, evaluates]
      simp only [bind, Option.bind_some, if_pos isOrder, shape_transpose,
        accepts, isMax, if_pos isInverse]

/-- A pooling that nGraph accepts is right only if the window does not reach
over the batch and the channels, and does not skip any of them. -/
theorem translateMaxPoolOp_iff
    (inputs : MaxPoolInputs size opset op ng_op_map data shape is_nhwc
      ksize strides)
    (rules : PoolRules opset) :
    MaxPoolsCorrectly size opset op ng_op_map data shape ksize strides ↔
      opset.max_pool (spatialPooling is_nhwc size ksize strides)
          (permute (nchwOrder is_nhwc size) shape) = none ∨
        KeepsOuterAxes is_nhwc size shape ksize strides := by
  have translated := inputs.translate rules
  cases accepts : opset.max_pool (spatialPooling is_nhwc size ksize strides)
      (permute (nchwOrder is_nhwc size) shape) with
  | none =>
      rw [accepts] at translated
      exact ⟨fun _ => .inl rfl, fun _ => .inl ⟨.exception, nofun, translated⟩⟩
  | some result =>
      rw [accepts] at translated
      have isOrder : IsOrder (nchwOrder is_nhwc size) (size + 2) :=
        isOrder_nchwOrder inputs.isSize
      have pooledRank : (pooledShape shape ksize strides).length =
          size + 2 := by
        rw [length_pooledShape (inputs.ksizeLength.trans inputs.rank.symm)
          (inputs.stridesLength.trans inputs.rank.symm), inputs.rank]
      have resultRank := inputs.result_length rules accepts
      have nodeShape :=
        maxPoolNode_shape inputs.isSize inputs.isShape inputs.rank accepts
          resultRank
      have keeps := inputs.shape_iff rules accepts
      constructor
      · intro correct
        right
        cases correct with
        | inl failed =>
            obtain ⟨failure, _, failed⟩ := failed
            exact nomatch translated.symm.trans failed
        | inr stored =>
            obtain ⟨node, success, shape, _⟩ := stored
            obtain rfl := saveNgOp_injective
              (Except.ok.inj (translated.symm.trans success))
            have same := Option.some.inj (nodeShape.symm.trans shape)
            rw [← keeps, ← same, permute_inverse (resultRank.symm ▸ isOrder)]
      · intro condition
        have keepsAxes := condition.resolve_left nofun
        refine .inr ⟨_, translated, ?_, ?_⟩
        · rw [nodeShape, keeps.mpr keepsAxes,
            inverse_permute (pooledRank.symm ▸ isOrder)]
        · intro V _ _ library parameters value isMax evaluates
          exact inputs.eval rules accepts keepsAxes isMax evaluates

end Translate

/-- Rules under which a pooling is valid if its window fits. -/
def poolRules : Opset :=
  { noRules with
    max_pool := fun attrs shape =>
      match shape with
      | first :: second :: dims =>
          if ∀ pair ∈ attrs.kernel.zip dims, pair.1 ≤ pair.2 then
            some (first :: second ::
                pooledShape dims attrs.kernel attrs.strides)
          else none
      | _ => none }

theorem poolRules_valid : PoolRules poolRules := by
  intro attrs first second dims result _ _ _ _ accepts
  rw [poolRules] at accepts
  dsimp only at accepts
  split at accepts
  next => exact (Option.some.inj accepts).symm
  next => exact nomatch accepts

def maxPoolOp (ksize strides : List Int) : OpNode where
  name := "pool"
  type_string := "MaxPool"
  attrs :=
    [("strides", .listI strides), ("ksize", .listI ksize),
      ("padding", .s "VALID"), ("data_format", .s "NHWC")]
  listAttrs := []
  floatAttrs := []
  inputs := [(⟨"x", "_Arg", [], none⟩, 0)]

def maxPoolOpMap : OpMap := [("x", [.Parameter 0 [1, 1, 1, 2]])]

theorem maxPoolOp_inputs {ksize : List Nat} {ng_op_map : OpMap} {data : Ng}
    {shape : Shape} (length : ksize.length = 4)
    (positive : ∀ entry ∈ ksize, 0 < entry ∧ entry < 2 ^ 31)
    (inputs : ∃ nodes, getInputNodes ng_op_map
      (maxPoolOp (ksize.map Int.ofNat) (ksize.map Int.ofNat)) 1 = .ok nodes ∧
      nodes 0 = data)
    (isShape : data.shape poolRules = some shape) (rank : shape.length = 4) :
    MaxPoolInputs 2 poolRules
      (maxPoolOp (ksize.map Int.ofNat) (ksize.map Int.ofNat)) ng_op_map data
      shape true ksize ksize where
  isSize := .inl rfl
  inputs := inputs
  stridesAttr := rfl
  ksizeAttr := rfl
  padding := rfl
  format := ⟨"NHWC", rfl, by decide⟩
  isShape := isShape
  rank := rank
  ksizeLength := length
  stridesLength := length
  ksizePositive := positive
  stridesPositive := positive

/-- A window over both of two channels. -/
theorem translateMaxPoolOp_channels :
    PoolRules poolRules ∧
    MaxPoolInputs 2 poolRules (maxPoolOp [1, 1, 1, 2] [1, 1, 1, 2]) maxPoolOpMap
        (.Parameter 0 [1, 1, 1, 2]) [1, 1, 1, 2] true [1, 1, 1, 2]
        [1, 1, 1, 2] ∧
      ¬ MaxPoolsCorrectly 2 poolRules (maxPoolOp [1, 1, 1, 2] [1, 1, 1, 2])
        maxPoolOpMap
        (.Parameter 0 [1, 1, 1, 2]) [1, 1, 1, 2] [1, 1, 1, 2] [1, 1, 1, 2] := by
  have inputs := @maxPoolOp_inputs [1, 1, 1, 2] maxPoolOpMap _ _ rfl
    (by decide) ⟨_, rfl, rfl⟩ rfl rfl
  refine ⟨poolRules_valid, inputs, fun correct => ?_⟩
  have translated := inputs.translate poolRules_valid
  cases correct with
  | inl failed =>
      obtain ⟨failure, _, failed⟩ := failed
      exact nomatch translated.symm.trans failed
  | inr stored =>
      obtain ⟨node, success, shape, _⟩ := stored
      obtain rfl := saveNgOp_injective
        (Except.ok.inj (translated.symm.trans success))
      exact absurd shape (by decide)

/-- Two rows and four columns of two channels, in windows of two by two. -/
def imageOpMap : OpMap := [("x", [.Parameter 0 [1, 2, 4, 2]])]

theorem translateMaxPoolOp_iff_spatial :
    MaxPoolsCorrectly 2 poolRules (maxPoolOp [1, 2, 2, 1] [1, 2, 2, 1])
      imageOpMap (.Parameter 0 [1, 2, 4, 2]) [1, 2, 4, 2] [1, 2, 2, 1]
      [1, 2, 2, 1] := by
  have inputs := @maxPoolOp_inputs [1, 2, 2, 1] imageOpMap _ _ rfl
    (by decide) ⟨_, rfl, rfl⟩ rfl rfl
  refine (translateMaxPoolOp_iff inputs poolRules_valid).mpr (.inr ?_)
  exact ⟨.inr ⟨rfl, .inl rfl⟩, .inr ⟨rfl, .inl rfl⟩⟩

end NGraphBridge.NGraphBuilder
