import NGraphBridge.NGraphBuilder.Layouts

/-!
# Translating `_FusedConv2D`

The fused ops are applied in the channel order of nGraph; apart, each of them is
applied in the order of TensorFlow. The values are the same.
-/

namespace NGraphBridge.NGraphBuilder

open NGraph (Shape)
open TF Tensor Axes

/-- `VecStrCmp` with each of the lists; the number of arguments that goes with
them. -/
def fusedArgs (fused_ops : List String) : Translates (Int × String) :=
  if fused_ops ∈ [["BiasAdd"], ["BiasAdd", "Relu"], ["BiasAdd", "Relu6"]] then
    .ok (1, "FusedConv2DBiasAdd has incompatible num_args")
  else if fused_ops ∈ [["BiasAdd", "Add", "Relu"], ["BiasAdd", "Add"]] then
    .ok (2, "FusedConv2DBiasAddAdd has incompatible num_args")
  else if fused_ops ∈
    [["FusedBatchNorm"], ["FusedBatchNorm", "Relu"],
      ["FusedBatchNorm", "Relu6"]] then
    .ok (4, "FusedConv2D with FusedBatchNorm has incompatible num_args")
  else
    .error (.status (errors.unimplemented ("Unsupported _FusedConv2D " ++
      ",".intercalate fused_ops)))

def createNgBiasAdd (opset : Opset) (ng_conv ng_bias : Ng) : Translates Ng :=
  let ng_conv_shape := ng_conv.get_shape opset
  match ng_bias.get_shape opset with
  | [front] =>
      -- the pattern is written at place one
      if ng_conv_shape.length ≤ 1 then .error .outOfBounds
      else do
        let ng_bias_reshaped ← constructNgNode opset
          (.Reshape ng_bias
            ((List.replicate ng_conv_shape.length 1).set 1 front))
        constructNgNode opset (.Add ng_conv ng_bias_reshaped)
  | _ =>
      .error (.status (errors.invalidArgument
        "Bias argument to BiasAdd does not have one dimension"))

/-- The first of the fused ops. -/
def fusedOp0 (opset : Opset) (op : OpNode) (ng_op_map : OpMap)
    (fused_ops : List String) (ng_conv : Ng) : Translates Ng :=
  match fused_ops[0]? with
  | some "BiasAdd" => do
      let ng_bias ← getInputNode ng_op_map op 2
      createNgBiasAdd opset ng_conv ng_bias
  | some "FusedBatchNorm" => do
      let ng_scale ← getInputNode ng_op_map op 2
      let ng_offset ← getInputNode ng_op_map op 3
      let ng_mean ← getInputNode ng_op_map op 4
      let ng_variance ← getInputNode ng_op_map op 5
      let tf_epsilon ← returnIfError (getNodeAttrFloat op "epsilon")
      constructNgNode opset
        (.BatchNormInference ng_conv ng_scale ng_offset ng_mean ng_variance
        tf_epsilon)
  | _ =>
      .error (.status (errors.unimplemented ("Unsupported _FusedConv2D " ++
        ",".intercalate fused_ops)))

/-- The second of the fused ops. -/
def fusedOp1 (opset : Opset) (op : OpNode) (ng_op_map : OpMap)
    (fused_ops : List String) (is_nhwc : Bool) (ng_fused_op_0 : Ng) :
    Translates Ng :=
  match fused_ops[1]? with
  | some "Add" => do
      let ng_input_add ← getInputNode ng_op_map op 3
      let ng_input_add ← nhwcToNCHW opset is_nhwc ng_input_add
      constructNgNode opset (.Add ng_fused_op_0 ng_input_add)
  | some "Relu" => constructNgNode opset (.Relu ng_fused_op_0)
  | some "Relu6" => constructNgNode opset (.Clamp ng_fused_op_0 0 6)
  | _ =>
      .error (.status (errors.unimplemented ("Unsupported _FusedConv2D " ++
        ",".intercalate fused_ops)))

def translateFusedConv2DOp (opset : Opset) (op : OpNode) (ng_op_map : OpMap) :
    Translates OpMap := do
  let num_args ← returnIfError (getNodeAttrInt op.attrs "num_args")
  let fused_ops ← returnIfError (getNodeAttrStrings op "fused_ops")
  let tf_data_format ← returnIfError (getNodeAttrString op.attrs "data_format")
  let is_nhwc : Bool := tf_data_format = "NHWC"
  let args ← fusedArgs fused_ops
  if num_args ≠ args.1 then .error (.status (errors.invalidArgument args.2))
  else do
    let ng_input ← getInputNode ng_op_map op 0
    let ng_filter ← getInputNode ng_op_map op 1
    let tf_strides ← returnIfError (getNodeAttrInts op.attrs "strides")
    let tf_dilations ← returnIfError (getNodeAttrInts op.attrs "dilations")
    let tf_padding_type ← returnIfError (getNodeAttrString op.attrs "padding")
    let ng_conv ← createNgConv opset op.type_string tf_data_format tf_strides
        tf_dilations tf_padding_type ng_input ng_filter
    let ng_fused_op_0 ← fusedOp0 opset op ng_op_map fused_ops ng_conv
    if fused_ops.length = 1 then do
      let ng_fused_op_0 ← nchwToNHWC opset is_nhwc ng_fused_op_0
      .ok (saveNgOp ng_op_map op.name ng_fused_op_0)
    else do
      let ng_fused_op_1 ← fusedOp1 opset op ng_op_map fused_ops is_nhwc
          ng_fused_op_0
      if fused_ops.length = 2 then do
        let ng_fused_op_1 ← nchwToNHWC opset is_nhwc ng_fused_op_1
        .ok (saveNgOp ng_op_map op.name ng_fused_op_1)
      else if fused_ops[2]? = some "Relu" then do
        let ng_fused_op_2 ← constructNgNode opset (.Relu ng_fused_op_1)
        let ng_fused_op_2 ← nchwToNHWC opset is_nhwc ng_fused_op_2
        .ok (saveNgOp ng_op_map op.name ng_fused_op_2)
      else .ok ng_op_map

/-- An op that takes the result of another op and the given inputs of a fused
op. -/
def nextOp (op : OpNode) (name type_string previous : String)
    (inputs : List (InputNode × Nat)) : OpNode :=
  { op with
    name := name
    type_string := type_string
    inputs := (⟨previous, "", [], none⟩, 0) :: inputs }

/-- One of the fused ops with the attributes of the fused op; `batchNorm` is the
version of the batch normalization. -/
def unfusedOp (op : OpNode) (batchNorm name previous : String) : String → OpNode
  | "BiasAdd" => nextOp op name "BiasAdd" previous ((op.inputs.drop 2).take 1)
  | "FusedBatchNorm" =>
      nextOp op name batchNorm previous ((op.inputs.drop 2).take 4)
  | "Add" => nextOp op name "Add" previous ((op.inputs.drop 3).take 1)
  | type_string => nextOp op name type_string previous []

/-- The fused ops from the one named `name i` on. -/
def unfusedOpsFrom (op : OpNode) (batchNorm : String) (names : Nat → String) :
    Nat → List String → List OpNode
  | _, [] => []
  | i, fused_op :: fused_ops =>
      unfusedOp op batchNorm (names (i + 1)) (names i) fused_op ::
        unfusedOpsFrom op batchNorm names (i + 1) fused_ops

/-- The convolution, and the fused ops behind it. -/
def unfusedOps (op : OpNode) (batchNorm : String) (names : Nat → String)
    (fused_ops : List String) : List OpNode :=
  { op with name := names 0, type_string := "Conv2D", inputs :=
      op.inputs.take 2 } ::
    unfusedOpsFrom op batchNorm names 0 fused_ops

/-- The names of the ops apart are not in use. -/
structure FreeNames (ng_op_map : OpMap) (names : Nat → String) : Prop where
  distinct : Function.Injective names
  free : ∀ i, ng_op_map.outputs (names i) = []

/-- The op map when the ops up to `names i` are translated, with `back` as the
result. -/
structure Unfused (ng_op_map : OpMap) (names : Nat → String) (i : Nat)
    (back : Ng) (after : OpMap) : Prop where
  result : (after.outputs (names i))[0]? = some back
  kept : ∀ name, (∀ j, name ≠ names j) →
    after.outputs name = ng_op_map.outputs name
  free : ∀ j, i < j → after.outputs (names j) = []

section Unfused

variable {op other : OpNode} {ng_op_map after : OpMap}
  {names : Nat → String} {i : Nat} {back node : Ng}

theorem FreeNames.saved (freeNames : FreeNames ng_op_map names) (node : Ng) :
    Unfused ng_op_map names 0 node (saveNgOp ng_op_map (names 0) node) where
  result := by
    rw [outputs_saveNgOp_self, freeNames.free]
    rfl
  kept := fun _ different => outputs_saveNgOp_ne _ _ (different 0)
  free := by
    intro j later
    have different : names j ≠ names 0 :=
      freeNames.distinct.ne (Nat.ne_of_gt later)
    rw [outputs_saveNgOp_ne _ _ different, freeNames.free]

theorem Unfused.saved (unfused : Unfused ng_op_map names i back after)
    (freeNames : FreeNames ng_op_map names) (node : Ng) (nodes : List Ng) :
    Unfused ng_op_map names (i + 1) node
      ((node :: nodes).foldl (saveNgOp · (names (i + 1))) after) where
  result := by
    rw [outputs_saved_self, unfused.free _ (Nat.lt_succ_self i)]
    rfl
  kept := by
    intro name different
    rw [outputs_saved_ne _ _ (different (i + 1)), unfused.kept name different]
  free := by
    intro j later
    have different : names j ≠ names (i + 1) :=
      freeNames.distinct.ne (Nat.ne_of_gt later)
    rw [outputs_saved_ne _ _ different,
      unfused.free j (Nat.lt_of_succ_lt later)]

theorem Unfused.getInputNode_first
    (unfused : Unfused ng_op_map names i back after) (name type_string : String)
    (inputs : List (InputNode × Nat)) :
    getInputNode after (nextOp op name type_string (names i) inputs) 0 =
      .ok back :=
  getInputNode_iff.mpr ⟨_, 0, rfl, unfused.result⟩

theorem Unfused.getInputNode_kept
    (unfused : Unfused ng_op_map names i back after)
    (freeNames : FreeNames ng_op_map names) {place place' : Nat}
    (found : getInputNode ng_op_map op place = .ok node)
    (same : other.inputs[place']? = op.inputs[place]?) :
    getInputNode after other place' = .ok node := by
  obtain ⟨input, slot, atPlace, stored⟩ := getInputNode_iff.mp found
  have different : ∀ j, input.name ≠ names j := by
    intro j taken
    rw [taken, freeNames.free j] at stored
    exact nomatch stored
  refine getInputNode_iff.mpr ⟨input, slot, same.trans atPlace, ?_⟩
  rw [unfused.kept _ different, stored]

theorem found_lt {place : Nat}
    (found : getInputNode ng_op_map op place = .ok node) :
    place < op.inputs.length := by
  obtain ⟨_, _, atPlace, _⟩ := getInputNode_iff.mp found
  exact (List.getElem?_eq_some_iff.mp atPlace).1

theorem length_nextOp {name type_string previous : String} {place count : Nat}
    (bound : place + count ≤ op.inputs.length) :
    (nextOp op name type_string previous
      ((op.inputs.drop place).take count)).inputs.length =
      count + 1 := by
  rw [nextOp, List.length_cons, List.length_take, List.length_drop]
  omega

theorem Unfused.getInputNode_next
    (unfused : Unfused ng_op_map names i back after)
    (freeNames : FreeNames ng_op_map names) {name type_string previous : String}
    {place count j : Nat} (below : j < count)
    (found : getInputNode ng_op_map op (place + j) = .ok node) :
    getInputNode after
      (nextOp op name type_string previous ((op.inputs.drop place).take count))
      (j + 1) = .ok node := by
  apply unfused.getInputNode_kept freeNames found
  rw [nextOp, List.getElem?_cons_succ, List.getElem?_take_of_lt below,
    List.getElem?_drop]

end Unfused

/-- The operands of the convolution are found, and it is built. -/
structure Convolves (opset : Opset) (op : OpNode) (ng_op_map : OpMap)
    (tf_data_format : String) (ng_conv : Ng) : Prop where
  dataFormat : getNodeAttrString op.attrs "data_format" = .ok tf_data_format
  built : ∃ ng_input ng_filter tf_strides tf_dilations tf_padding_type,
    getInputNode ng_op_map op 0 = .ok ng_input ∧
    getInputNode ng_op_map op 1 = .ok ng_filter ∧
    getNodeAttrInts op.attrs "strides" = .ok tf_strides ∧
    getNodeAttrInts op.attrs "dilations" = .ok tf_dilations ∧
    getNodeAttrString op.attrs "padding" = .ok tf_padding_type ∧
    createNgConv opset op.type_string tf_data_format tf_strides tf_dilations
      tf_padding_type ng_input ng_filter = .ok ng_conv

/-- The operands of the fused ops are found, with shapes that go with the
convolution's. -/
structure Compatible (opset : Opset) (op : OpNode) (ng_op_map : OpMap)
    (fused_ops : List String) (is_nhwc : Bool) (n c h w : Nat) : Prop where
  bias : "BiasAdd" ∈ fused_ops → ∃ ng_bias,
    getInputNode ng_op_map op 2 = .ok ng_bias ∧ ng_bias.shape opset = some [c]
  batchNorm : "FusedBatchNorm" ∈ fused_ops → ∃ parameter : Fin 4 → Ng,
    ∃ tf_epsilon,
    (∀ i : Fin 4, getInputNode ng_op_map op (2 + i) = .ok (parameter i) ∧
      (parameter i).shape opset = some [c]) ∧
    getNodeAttrFloat op "epsilon" = .ok tf_epsilon ∧
    opset.batch_norm_inference [n, c, h, w] [c] [c] [c] [c] = some [n, c, h, w]
  addend : "Add" ∈ fused_ops → ∃ ng_addend,
    getInputNode ng_op_map op 3 = .ok ng_addend ∧
    ng_addend.shape opset = some (permute (backOrder is_nhwc) [n, c, h, w])

/-- A fused op applied in the order of nGraph. -/
def fuseOp (opset : Opset) (op : OpNode) (ng_op_map : OpMap) (is_nhwc : Bool)
    (ng_node : Ng) :
    String → Translates Ng
  | "BiasAdd" => do
      let ng_bias ← getInputNode ng_op_map op 2
      createNgBiasAdd opset ng_node ng_bias
  | "FusedBatchNorm" => do
      let ng_scale ← getInputNode ng_op_map op 2
      let ng_offset ← getInputNode ng_op_map op 3
      let ng_mean ← getInputNode ng_op_map op 4
      let ng_variance ← getInputNode ng_op_map op 5
      let tf_epsilon ← returnIfError (getNodeAttrFloat op "epsilon")
      constructNgNode opset
        (.BatchNormInference ng_node ng_scale ng_offset ng_mean ng_variance
        tf_epsilon)
  | "Add" => do
      let ng_input_add ← getInputNode ng_op_map op 3
      let ng_input_add ← nhwcToNCHW opset is_nhwc ng_input_add
      constructNgNode opset (.Add ng_node ng_input_add)
  | "Relu" => constructNgNode opset (.Relu ng_node)
  | _ => constructNgNode opset (.Clamp ng_node 0 6)

/-- A fused op gives the image that the op apart gives, in the order of
nGraph. -/
structure Fuses (opset : Opset) (op : OpNode) (ng_op_map : OpMap)
    (is_nhwc : Bool) (shape : Shape) (front : Ng) (fused_op : String)
    (unfused : OpNode) (names : Nat → String) (i : Nat) (after : OpMap)
    (front' back' : Ng) (after' : OpMap) : Prop where
  fused : fuseOp opset op ng_op_map is_nhwc front fused_op = .ok front'
  mirrors : Mirrors opset is_nhwc shape front' back'
  translated : ∀ tf_ops, translateOps opset (unfused :: tf_ops) after =
    translateOps opset tf_ops after'
  unfused : Unfused ng_op_map names (i + 1) back' after'

section Step

variable {opset : Opset} {op : OpNode} {ng_op_map after : OpMap}
  {names : Nat → String} {i : Nat} {fused_ops : List String}
  {tf_data_format batchNorm : String} {is_nhwc : Bool} {n c h w : Nat}
  {front back : Ng}

theorem fuses_relu {shape : Shape} (freeNames : FreeNames ng_op_map names)
    (mirrors : Mirrors opset is_nhwc shape front back)
    (unfused : Unfused ng_op_map names i back after) :
    ∃ front' back' after', Fuses opset op ng_op_map is_nhwc shape front "Relu"
      (unfusedOp op batchNorm (names (i + 1)) (names i) "Relu") names i after
      front' back' after' := by
  have both : Mirrors opset is_nhwc shape (.Relu front) (.Relu back) :=
    mirrors.relu
  refine ⟨.Relu front, .Relu back, _, constructNgNode_ok both.frontShape, both,
    ?translated, unfused.saved freeNames (.Relu back) []⟩
  case translated =>
    apply translateOps_cons rfl
    exact translateUnaryOp_ok rfl (unfused.getInputNode_first _ _ _)
      both.backShape

theorem fuses_relu6 {shape : Shape} (freeNames : FreeNames ng_op_map names)
    (mirrors : Mirrors opset is_nhwc shape front back)
    (unfused : Unfused ng_op_map names i back after) :
    ∃ front' back' after', Fuses opset op ng_op_map is_nhwc shape front "Relu6"
      (unfusedOp op batchNorm (names (i + 1)) (names i) "Relu6") names i after
      front' back' after' := by
  have both : Mirrors opset is_nhwc shape (.Clamp front 0 6)
      (.Clamp back 0 6) := mirrors.clamp 0 6
  refine ⟨.Clamp front 0 6, .Clamp back 0 6, _,
    constructNgNode_ok both.frontShape, both, ?translated,
    unfused.saved freeNames (.Clamp back 0 6) []⟩
  case translated =>
    apply translateOps_cons rfl
    exact @translateUnaryOp_ok _ _ _ _ _ (.Clamp · 0 6) rfl
      (unfused.getInputNode_first _ _ _)
      both.backShape

theorem fuses_add
    (compatible : Compatible opset op ng_op_map fused_ops is_nhwc n c h w)
    (member : "Add" ∈ fused_ops) (freeNames : FreeNames ng_op_map names)
    (mirrors : Mirrors opset is_nhwc [n, c, h, w] front back)
    (unfused : Unfused ng_op_map names i back after) :
    ∃ front' back' after', Fuses opset op ng_op_map is_nhwc
      [n, c, h, w] front "Add"
      (unfusedOp op batchNorm (names (i + 1)) (names i) "Add") names i after
      front' back' after' := by
  obtain ⟨ng_addend, found, addendShape⟩ := compatible.addend member
  obtain ⟨converted, conversion, addends⟩ := nhwcToNCHW_mirrors rfl addendShape
  have both : Mirrors opset is_nhwc [n, c, h, w] (.Add front converted)
      (.Add back ng_addend) :=
    mirrors.add addends (broadcast_self _)
  refine ⟨.Add front converted, .Add back ng_addend, _, ?fused, both,
    ?translated, unfused.saved freeNames (.Add back ng_addend) []⟩
  case fused =>
    have built := constructNgNode_ok both.frontShape
    change (do
      let ng_input_add ← getInputNode ng_op_map op 3
      let ng_input_add ← nhwcToNCHW opset is_nhwc ng_input_add
      constructNgNode opset (.Add front ng_input_add)) = _
    simp only [bind, Except.bind, found, conversion, built]
  case translated =>
    apply translateOps_cons rfl
    exact translateBinaryOp_ok (length_nextOp (found_lt found))
      (unfused.getInputNode_first _ _ _)
      (unfused.getInputNode_next freeNames Nat.one_pos found) both.backShape

theorem createNgBiasAdd_ok {ng_bias : Ng} {shape : Shape}
    (isShape : front.shape opset = some [n, c, h, w])
    (isVector : ng_bias.shape opset = some [c])
    (valid : (Ng.Add front (.Reshape ng_bias (biasShape c))).shape opset =
      some shape) :
    createNgBiasAdd opset front ng_bias =
      .ok (.Add front (.Reshape ng_bias (biasShape c))) := by
  have reshaped := constructNgNode_ok (shape_reshapedBias isVector)
  have built := constructNgNode_ok valid
  have length : (front.get_shape opset).length = 4 :=
    congrArg List.length (Ng.get_shape_eq isShape)
  have biasShape_eq : (List.replicate 4 1).set 1 c = biasShape c := rfl
  have vector := Ng.get_shape_eq isVector
  have wide : ¬4 ≤ 1 := by decide
  rw [createNgBiasAdd]
  simp only [vector, length, if_neg wide, biasShape_eq, bind, Except.bind,
    reshaped, built]

theorem reshapeBias_eq {ng_bias : Ng}
    (isFormat : tf_data_format = "NHWC" ∨ tf_data_format = "NCHW")
    (isShape : back.shape opset =
      some (permute (backOrder (tf_data_format = "NHWC")) [n, c, h, w]))
    (isVector : ng_bias.shape opset = some [c]) :
    reshapeBias opset tf_data_format (back.get_shape opset) ng_bias =
      .ok (biasAddend (tf_data_format = "NHWC") ng_bias c) := by
  cases isFormat with
  | inl last =>
      subst last
      rfl
  | inr first =>
      subst first
      rw [reshapeBias, Ng.get_shape_eq isShape]
      exact constructNgNode_ok (shape_reshapedBias isVector)

theorem fuses_biasAdd
    (compatible : Compatible opset op ng_op_map fused_ops
      (tf_data_format = "NHWC") n c h w)
    (member : "BiasAdd" ∈ fused_ops)
    (dataFormat : getNodeAttrString op.attrs "data_format" = .ok tf_data_format)
    (isFormat : tf_data_format = "NHWC" ∨ tf_data_format = "NCHW")
    (freeNames : FreeNames ng_op_map names)
    (mirrors : Mirrors opset (tf_data_format = "NHWC") [n, c, h, w] front back)
    (unfused : Unfused ng_op_map names i back after) :
    ∃ front' back' after', Fuses opset op ng_op_map (tf_data_format = "NHWC")
    [n, c, h, w] front
      "BiasAdd" (unfusedOp op batchNorm (names (i + 1)) (names i) "BiasAdd")
      names i after front'
      back' after' := by
  obtain ⟨ng_bias, found, biasVector⟩ := compatible.bias member
  have both := mirrors.addBias biasVector
  refine ⟨_, _, _, ?fused, both, ?translated, unfused.saved freeNames _ []⟩
  case fused =>
    change (do
      let ng_bias ← getInputNode ng_op_map op 2
      createNgBiasAdd opset front ng_bias) = _
    simp only [bind, Except.bind, found]
    exact createNgBiasAdd_ok mirrors.frontShape biasVector both.frontShape
  case translated =>
    apply translateOps_cons rfl
    exact translateBiasAddOp_ok (length_nextOp (found_lt found))
      (unfused.getInputNode_first _ _ _)
      (unfused.getInputNode_next freeNames Nat.one_pos found)
      dataFormat isFormat biasVector
      (reshapeBias_eq isFormat mirrors.backShape biasVector)
      both.backShape

theorem unfusedTranslator_batchNorm
    (isBatchNorm :
      batchNorm ∈ ["FusedBatchNorm", "FusedBatchNormV2", "FusedBatchNormV3"]) :
    unfusedTranslator batchNorm = some translateFusedBatchNormOp := by
  simp only [List.mem_cons, List.not_mem_nil, or_false] at isBatchNorm
  rcases isBatchNorm with rfl | rfl | rfl <;> rfl

theorem fuses_batchNorm
    (compatible : Compatible opset op ng_op_map fused_ops
      (tf_data_format = "NHWC") n c h w)
    (member : "FusedBatchNorm" ∈ fused_ops)
    (isBatchNorm :
      batchNorm ∈ ["FusedBatchNorm", "FusedBatchNormV2", "FusedBatchNormV3"])
    (dataFormat : getNodeAttrString op.attrs "data_format" = .ok tf_data_format)
    (isFormat : tf_data_format = "NHWC" ∨ tf_data_format = "NCHW")
    (freeNames : FreeNames ng_op_map names)
    (mirrors : Mirrors opset (tf_data_format = "NHWC") [n, c, h, w] front back)
    (unfused : Unfused ng_op_map names i back after) :
    ∃ front' back' after', Fuses opset op ng_op_map (tf_data_format = "NHWC")
    [n, c, h, w] front
      "FusedBatchNorm"
      (unfusedOp op batchNorm (names (i + 1)) (names i) "FusedBatchNorm") names
      i
      after front' back' after' := by
  obtain ⟨parameter, tf_epsilon, found, epsilon, keeps⟩ :=
    compatible.batchNorm member
  obtain ⟨converted, conversion, conversionMirrors⟩ :=
    nhwcToNCHW_mirrors rfl mirrors.backShape
  have normShape :
      (Ng.BatchNormInference front (parameter 0) (parameter 1) (parameter 2)
      (parameter 3) tf_epsilon).shape opset = some [n, c, h, w] := by
    rw [Ng.shape, mirrors.frontShape, (found 0).2, (found 1).2, (found 2).2,
      (found 3).2]
    exact keeps
  obtain ⟨convertedShape, sameValue⟩ :=
    mirrors.batchNorm conversionMirrors normShape
  obtain ⟨back', backConversion, backMirrors⟩ :=
    nchwToNHWC_mirrors rfl convertedShape
  have both :=
    @Mirrors.congr
      _ _ _ _ _ (.BatchNormInference front (parameter 0) (parameter 1)
        (parameter 2) (parameter 3) tf_epsilon) back' backMirrors
    (normShape.trans convertedShape.symm) rfl
    (fun library parameters => (sameValue library parameters).symm) fun _ _ =>
      rfl
  have foundAfter : ∀ j : Fin 5, getInputNode after
      (unfusedOp op batchNorm (names (i + 1)) (names i) "FusedBatchNorm") j =
      .ok ((Fin.cons back parameter : Fin 5 → Ng) j) := by
    intro j
    cases j using Fin.cases with
    | zero => exact unfused.getInputNode_first _ _ _
    | succ j => exact unfused.getInputNode_next freeNames j.isLt (found j).1
  obtain ⟨nodes, stored⟩ :=
    translateFusedBatchNormOp_ok (length_nextOp (found_lt (found 3).1))
      foundAfter dataFormat isFormat epsilon conversion convertedShape
      backConversion
  refine ⟨_, back', _, ?fused, both, ?translated,
    unfused.saved freeNames back' nodes⟩
  case fused =>
    have built := constructNgNode_ok normShape
    have first : getInputNode ng_op_map op 2 = .ok (parameter 0) := (found 0).1
    have second : getInputNode ng_op_map op 3 = .ok (parameter 1) := (found 1).1
    have third : getInputNode ng_op_map op 4 = .ok (parameter 2) := (found 2).1
    have fourth : getInputNode ng_op_map op 5 = .ok (parameter 3) := (found 3).1
    change (do
      let ng_scale ← getInputNode ng_op_map op 2
      let ng_offset ← getInputNode ng_op_map op 3
      let ng_mean ← getInputNode ng_op_map op 4
      let ng_variance ← getInputNode ng_op_map op 5
      let tf_epsilon ← returnIfError (getNodeAttrFloat op "epsilon")
      constructNgNode opset (.BatchNormInference front ng_scale ng_offset
        ng_mean ng_variance tf_epsilon)) = _
    simp only [bind, Except.bind, first, second, third, fourth, epsilon,
      returnIfError, built]
  case translated =>
    apply translateOps_cons (unfusedTranslator_batchNorm isBatchNorm) stored

/-- The lists of fused ops that are accepted. -/
def acceptedOps : List (List String) :=
  [["BiasAdd"], ["BiasAdd", "Relu"], ["BiasAdd", "Relu6"],
    ["BiasAdd", "Add", "Relu"], ["BiasAdd", "Add"], ["FusedBatchNorm"],
    ["FusedBatchNorm", "Relu"], ["FusedBatchNorm", "Relu6"]]

theorem accepted_of_fusedArgs {args : Int × String}
    (accepted : fusedArgs fused_ops = .ok args) :
    fused_ops ∈ acceptedOps := by
  have subsets : ∀ list,
      list ∈ [["BiasAdd"], ["BiasAdd", "Relu"], ["BiasAdd", "Relu6"]] ∨
      list ∈ [["BiasAdd", "Add", "Relu"], ["BiasAdd", "Add"]] ∨
      list ∈ [["FusedBatchNorm"], ["FusedBatchNorm", "Relu"],
        ["FusedBatchNorm", "Relu6"]] →
      list ∈ acceptedOps := by
    intro list member
    simp only [acceptedOps, List.mem_cons, List.not_mem_nil, or_false]
      at member ⊢
    tauto
  apply subsets
  unfold fusedArgs at accepted
  split at accepted
  next isBias => exact .inl isBias
  next =>
    split at accepted
    next isAdd => exact .inr (.inl isAdd)
    next =>
      split at accepted
      next isNorm => exact .inr (.inr isNorm)
      next => exact absurd accepted (by simp)

theorem fuses_op {fused_op : String} (accepted : fused_ops ∈ acceptedOps)
    (member : fused_op ∈ fused_ops)
    (compatible : Compatible opset op ng_op_map fused_ops
      (tf_data_format = "NHWC") n c h w)
    (isBatchNorm :
      batchNorm ∈ ["FusedBatchNorm", "FusedBatchNormV2", "FusedBatchNormV3"])
    (dataFormat : getNodeAttrString op.attrs "data_format" = .ok tf_data_format)
    (isFormat : tf_data_format = "NHWC" ∨ tf_data_format = "NCHW")
    (freeNames : FreeNames ng_op_map names)
    (mirrors : Mirrors opset (tf_data_format = "NHWC") [n, c, h, w] front back)
    (unfused : Unfused ng_op_map names i back after) :
    ∃ front' back' after', Fuses opset op ng_op_map (tf_data_format = "NHWC")
    [n, c, h, w] front
      fused_op (unfusedOp op batchNorm (names (i + 1)) (names i) fused_op) names
      i after front'
      back' after' := by
  have supported : ∀ list ∈ acceptedOps, ∀ fused_op ∈ list,
      fused_op ∈ ["BiasAdd", "FusedBatchNorm", "Add", "Relu", "Relu6"] := by
    decide
  have isSupported := supported _ accepted _ member
  simp only [List.mem_cons, List.not_mem_nil, or_false] at isSupported
  rcases isSupported with rfl | rfl | rfl | rfl | rfl
  · exact fuses_biasAdd compatible member dataFormat isFormat freeNames
      mirrors unfused
  · exact fuses_batchNorm compatible member isBatchNorm dataFormat isFormat
      freeNames mirrors unfused
  · exact fuses_add compatible member freeNames mirrors unfused
  · exact fuses_relu freeNames mirrors unfused
  · exact fuses_relu6 freeNames mirrors unfused

/-- The fused ops one after the other, and the ops apart one after the other. -/
theorem fuses_ops {ops : List String} (accepted : fused_ops ∈ acceptedOps)
    (members : ∀ fused_op ∈ ops, fused_op ∈ fused_ops)
    (compatible : Compatible opset op ng_op_map fused_ops
      (tf_data_format = "NHWC") n c h w)
    (isBatchNorm :
      batchNorm ∈ ["FusedBatchNorm", "FusedBatchNormV2", "FusedBatchNormV3"])
    (dataFormat : getNodeAttrString op.attrs "data_format" = .ok tf_data_format)
    (isFormat : tf_data_format = "NHWC" ∨ tf_data_format = "NCHW")
    (freeNames : FreeNames ng_op_map names)
    (mirrors : Mirrors opset (tf_data_format = "NHWC") [n, c, h, w] front back)
    (unfused : Unfused ng_op_map names i back after) :
    ∃ front' back' after',
      ops.foldlM (fuseOp opset op ng_op_map (tf_data_format = "NHWC")) front =
        .ok front' ∧
      Mirrors opset (tf_data_format = "NHWC") [n, c, h, w] front' back' ∧
      translateOps opset (unfusedOpsFrom op batchNorm names i ops) after =
        .ok after' ∧
      Unfused ng_op_map names (i + ops.length) back' after' := by
  induction ops generalizing front back after i with
  | nil => exact ⟨front, back, after, rfl, mirrors, rfl, unfused⟩
  | cons fused_op ops ih =>
      obtain ⟨front', back', after', step⟩ := fuses_op accepted
        (members fused_op List.mem_cons_self) compatible isBatchNorm dataFormat
        isFormat freeNames mirrors unfused
      obtain ⟨front'', back'', after'', folded, allMirrors, translated,
        allUnfused⟩ :=
        ih (fun other later => members other (List.mem_cons_of_mem _ later))
          step.mirrors step.unfused
      refine ⟨front'', back'', after'', ?_, allMirrors, ?_, ?_⟩
      · rw [List.foldlM_cons, step.fused]
        exact folded
      · rw [unfusedOpsFrom, step.translated, translated]
      · rw [List.length_cons, Nat.add_comm ops.length, ← Nat.add_assoc]
        exact allUnfused

end Step

/-- What a fused convolution needs to be translated. -/
structure FusedInputs (opset : Opset) (op : OpNode) (ng_op_map : OpMap)
    (fused_ops : List String) (tf_data_format : String) (ng_conv : Ng)
    (n c h w : Nat) : Prop where
  listed : getNodeAttrStrings op "fused_ops" = .ok fused_ops
  accepted : ∃ args, fusedArgs fused_ops = .ok args ∧
    getNodeAttrInt op.attrs "num_args" = .ok args.1
  convolves : Convolves opset op ng_op_map tf_data_format ng_conv
  isShape : ng_conv.shape opset = some [n, c, h, w]
  compatible : Compatible opset op ng_op_map fused_ops
    (tf_data_format = "NHWC") n c h w

section Whole

variable {opset : Opset} {op : OpNode} {ng_op_map : OpMap}
  {fused_ops : List String} {tf_data_format batchNorm : String}
  {names : Nat → String} {ng_conv front node : Ng} {n c h w : Nat}

/-- An accepted list has up to three ops. -/
inductive Listed : List String → Prop where
  | one {first : String} : first ∈ ["BiasAdd", "FusedBatchNorm"] →
    Listed [first]
  | two {first second : String} : first ∈ ["BiasAdd", "FusedBatchNorm"] →
      second ∈ ["Add", "Relu", "Relu6"] → Listed [first, second]
  | three {first second : String} : first ∈ ["BiasAdd", "FusedBatchNorm"] →
      second ∈ ["Add", "Relu", "Relu6"] → Listed [first, second, "Relu"]

theorem listed_of_accepted (accepted : fused_ops ∈ acceptedOps) :
    Listed fused_ops := by
  simp only [acceptedOps, List.mem_cons, List.not_mem_nil, or_false] at accepted
  rcases accepted with rfl | rfl | rfl | rfl | rfl | rfl | rfl | rfl
  · exact .one (by decide)
  · exact .two (by decide) (by decide)
  · exact .two (by decide) (by decide)
  · exact .three (by decide) (by decide)
  · exact .two (by decide) (by decide)
  · exact .one (by decide)
  · exact .two (by decide) (by decide)
  · exact .two (by decide) (by decide)

theorem fusedOp0_eq {first : String} {is_nhwc : Bool}
    (isFirst : first ∈ ["BiasAdd", "FusedBatchNorm"]) (later : List String) :
    fusedOp0 opset op ng_op_map (first :: later) node =
      fuseOp opset op ng_op_map is_nhwc node first := by
  simp only [List.mem_cons, List.not_mem_nil, or_false] at isFirst
  rcases isFirst with rfl | rfl <;> rfl

theorem fusedOp1_eq {second : String} {is_nhwc : Bool} (first : String)
    (isSecond : second ∈ ["Add", "Relu", "Relu6"]) (later : List String) :
    fusedOp1 opset op ng_op_map (first :: second :: later) is_nhwc node =
      fuseOp opset op ng_op_map is_nhwc node second := by
  simp only [List.mem_cons, List.not_mem_nil, or_false] at isSecond
  rcases isSecond with rfl | rfl | rfl <;> rfl

/-- Up to three ops are fused one after the other. -/
theorem FusedInputs.translate
    (inputs : FusedInputs opset op ng_op_map fused_ops tf_data_format
      ng_conv n c h w)
    (fused : fused_ops.foldlM
      (fuseOp opset op ng_op_map (tf_data_format = "NHWC")) ng_conv =
      .ok front)
    (back : nchwToNHWC opset (tf_data_format = "NHWC") front = .ok node) :
    translateFusedConv2DOp opset op ng_op_map =
      .ok (saveNgOp ng_op_map op.name node) := by
  obtain ⟨args, accepted, numArgs⟩ := inputs.accepted
  obtain ⟨ng_input, ng_filter, tf_strides, tf_dilations, tf_padding_type, input,
    filter, strides, dilations, padding, built⟩ := inputs.convolves.built
  have isListed := listed_of_accepted (accepted_of_fusedArgs accepted)
  have isCount : ¬args.1 ≠ args.1 := not_not_intro rfl
  rw [translateFusedConv2DOp]
  simp only [bind, Except.bind, returnIfError, numArgs, inputs.listed,
    inputs.convolves.dataFormat, accepted, if_neg isCount, input, filter,
    strides, dilations, padding, built]
  cases isListed with
  | @one first isFirst =>
      obtain ⟨ng_fused_op_0, atFirst, fused⟩ := bind_ok fused
      obtain rfl := Except.ok.inj fused
      have first_eq := (fusedOp0_eq isFirst []).trans atFirst
      simp only [first_eq, List.length_singleton, if_true, back]
  | @two first second isFirst isSecond =>
      obtain ⟨ng_fused_op_0, atFirst, fused⟩ := bind_ok fused
      obtain ⟨ng_fused_op_1, atSecond, fused⟩ := bind_ok fused
      obtain rfl := Except.ok.inj fused
      have first_eq := (fusedOp0_eq isFirst [second]).trans atFirst
      have second_eq := (fusedOp1_eq first isSecond []).trans atSecond
      simp only [first_eq, second_eq, List.length_cons, List.length_nil, back]
      rfl
  | @three first second isFirst isSecond =>
      obtain ⟨ng_fused_op_0, atFirst, fused⟩ := bind_ok fused
      obtain ⟨ng_fused_op_1, atSecond, fused⟩ := bind_ok fused
      obtain ⟨ng_fused_op_2, atThird, fused⟩ := bind_ok fused
      obtain rfl := Except.ok.inj fused
      have third_eq : constructNgNode opset (.Relu ng_fused_op_1) =
          .ok ng_fused_op_2 := atThird
      have first_eq := (fusedOp0_eq isFirst [second, "Relu"]).trans atFirst
      have second_eq := (fusedOp1_eq first isSecond ["Relu"]).trans atSecond
      simp only [first_eq, second_eq, third_eq, List.length_cons,
        List.length_nil, back]
      rfl

/-- The convolution apart gives the image that is fused on. -/
theorem FusedInputs.convolve
    (inputs : FusedInputs opset op ng_op_map fused_ops tf_data_format
      ng_conv n c h w)
    (freeNames : FreeNames ng_op_map names) (fused_ops : List String) :
    ∃ back after, Mirrors opset (tf_data_format = "NHWC")
    [n, c, h, w] ng_conv back ∧
      translateOps opset (unfusedOps op batchNorm names fused_ops) ng_op_map =
        translateOps opset
          (unfusedOpsFrom op batchNorm names 0 fused_ops) after ∧
      Unfused ng_op_map names 0 back after := by
  obtain ⟨ng_input, ng_filter, tf_strides, tf_dilations, tf_padding_type, input,
    filter, strides, dilations, padding, built⟩ := inputs.convolves.built
  obtain ⟨back, conversion, mirrors⟩ := nchwToNHWC_mirrors rfl inputs.isShape
  refine ⟨back, _, mirrors, ?_, freeNames.saved back⟩
  have isCount : (op.inputs.take 2).length = 2 := by
    rw [List.length_take]
    exact Nat.min_eq_left (found_lt filter)
  have kept : ∀ place node, place < 2 →
      getInputNode ng_op_map op place = .ok node →
      getInputNode ng_op_map { op with
        name := names 0, type_string := "Conv2D", inputs :=
          op.inputs.take 2 } place = .ok node := by
    intro place node below found
    obtain ⟨tf_input, slot, atPlace, stored⟩ := getInputNode_iff.mp found
    refine getInputNode_iff.mpr ⟨tf_input, slot, ?_, stored⟩
    rw [List.getElem?_take_of_lt below, atPlace]
  apply translateOps_cons rfl
  exact translateConv2DOp_ok isCount (kept 0 _ Nat.two_pos input)
    (kept 1 _ Nat.one_lt_two filter)
    strides dilations padding inputs.convolves.dataFormat
    (createNgConv_type_string built) conversion

/-- A fused convolution gives what the convolution and the fused ops give one
after the other. -/
theorem translateFusedConv2DOp_unfused
    (inputs : FusedInputs opset op ng_op_map fused_ops tf_data_format
      ng_conv n c h w)
    (isBatchNorm :
      batchNorm ∈ ["FusedBatchNorm", "FusedBatchNormV2", "FusedBatchNormV3"])
    (freeNames : FreeNames ng_op_map names) :
    ∃ fused apart after,
      translateFusedConv2DOp opset op ng_op_map =
        .ok (saveNgOp ng_op_map op.name fused) ∧
      translateOps opset (unfusedOps op batchNorm names fused_ops) ng_op_map =
        .ok after ∧
      (after.outputs (names fused_ops.length))[0]? = some apart ∧
      fused.shape opset = apart.shape opset ∧
      ∀ {V : Type} [Inhabited V] (library : Library V opset)
      (parameters : Nat → Tensor V),
        fused.eval library parameters = apart.eval library parameters := by
  obtain ⟨args, accepted, _⟩ := inputs.accepted
  obtain ⟨_, _, _, _, _, _, _, _, _, _, built⟩ := inputs.convolves.built
  have isFormat := createNgConv_format built
  obtain ⟨conv, convolved, convMirrors, begun, convUnfused⟩ :=
    @FusedInputs.convolve _ _ _ _ _ batchNorm _ _ _ _ _ _ inputs
      freeNames fused_ops
  obtain ⟨front, apart, after, folded, mirrors, translated, unfused⟩ :=
    fuses_ops (accepted_of_fusedArgs accepted) (fun _ member => member)
      inputs.compatible
      isBatchNorm inputs.convolves.dataFormat isFormat freeNames convMirrors
      convUnfused
  obtain ⟨fused, conversion, fusedMirrors⟩ :=
    nchwToNHWC_mirrors rfl mirrors.frontShape
  rw [Nat.zero_add] at unfused
  refine ⟨fused, apart, after, inputs.translate folded conversion,
    begun.trans translated, unfused.result,
    fusedMirrors.backShape.trans mirrors.backShape.symm, ?_⟩
  intro V _ library parameters
  exact fusedMirrors.eval_eq mirrors

end Whole

/-- A convolution with a kernel of one entry. -/
def convRules : Opset :=
  { noRules with
    convolution := fun _ data filters =>
      match data, filters with
      | [n, _, h, w], [c, _, _, _] => some [n, c, h, w]
      | _, _ => none }

def fusedConvOp : OpNode where
  name := "conv"
  type_string := "_FusedConv2D"
  attrs :=
    [("num_args", .i 2), ("strides", .listI [1, 1, 1, 1]),
      ("dilations", .listI [1, 1, 1, 1]),
      ("padding", .s "VALID"), ("data_format", .s "NHWC")]
  listAttrs := [("fused_ops", ["BiasAdd", "Add", "Relu"])]
  floatAttrs := []
  inputs :=
    [(⟨"image", "_Arg", [], none⟩, 0), (⟨"filter", "_Arg", [], none⟩, 0),
    (⟨"bias", "_Arg", [], none⟩, 0), (⟨"addend", "_Arg", [], none⟩, 0)]

def fusedConvOpMap : OpMap :=
  [("image", [.Parameter 0 [1, 1, 3, 2]]),
    ("filter", [.Parameter 1 [1, 1, 2, 2]]), ("bias", [.Parameter 2 [2]]),
    ("addend", [.Parameter 3 [1, 1, 3, 2]])]

def convOf : Ng :=
  .Convolution (.Transpose (.Parameter 0 [1, 1, 3, 2]) [0, 3, 1, 2])
    (.Transpose (.Parameter 1 [1, 1, 2, 2]) [3, 2, 0, 1])
    { strides := [1, 1], pads_begin := [0, 0], pads_end := [0, 0],
      dilations := [1, 1] }

theorem fusedConvOp_inputs :
    FusedInputs convRules fusedConvOp fusedConvOpMap
      ["BiasAdd", "Add", "Relu"] "NHWC" convOf 1 2 1 3 where
  listed := rfl
  accepted := ⟨_, rfl, rfl⟩
  convolves := ⟨rfl, _, _, _, _, _, rfl, rfl, rfl, rfl, rfl, rfl⟩
  isShape := by decide
  compatible :=
    { bias := fun _ => ⟨_, rfl, rfl⟩
      batchNorm := fun member => absurd member (by decide)
      addend := fun _ => ⟨_, rfl, rfl⟩ }

/-- Names that are not in use. -/
def dashes (i : Nat) : String := String.ofList (List.replicate (i + 1) '-')

theorem dashes_free : FreeNames fusedConvOpMap dashes where
  distinct := by
    intro i j same
    have lists := congrArg (fun name => name.toList.length) same
    simpa [dashes] using lists
  free := by
    intro i
    have different : ∀ name : String, name.toList.head? ≠ some '-' →
        (dashes i == name) = false := by
      intro name first
      rw [beq_eq_false_iff_ne]
      intro same
      rw [← same, dashes, String.toList_ofList, List.replicate_succ] at first
      exact first rfl
    rw [OpMap.outputs, fusedConvOpMap]
    simp only [List.lookup_cons, different "image" (by decide),
      different "filter" (by decide), different "bias" (by decide),
      different "addend" (by decide)]
    rfl

theorem translateFusedConv2DOp_unfused_bias :
    ∃ fused apart after,
      translateFusedConv2DOp convRules fusedConvOp fusedConvOpMap =
        .ok (saveNgOp fusedConvOpMap "conv" fused) ∧
      translateOps convRules
        (unfusedOps fusedConvOp "FusedBatchNorm" dashes
          ["BiasAdd", "Add", "Relu"]) fusedConvOpMap = .ok after ∧
      (after.outputs (dashes 3))[0]? = some apart ∧
      fused.shape convRules = apart.shape convRules ∧
      ∀ {V : Type} [Inhabited V] (library : Library V convRules)
      (parameters : Nat → Tensor V),
        fused.eval library parameters = apart.eval library parameters :=
  translateFusedConv2DOp_unfused fusedConvOp_inputs List.mem_cons_self
    dashes_free

end NGraphBridge.NGraphBuilder
