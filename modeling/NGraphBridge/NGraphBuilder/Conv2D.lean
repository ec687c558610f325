import Mathlib.Data.Fin.VecNotation
import NGraphBridge.NGraphBuilder.MaxPool

/-!
# Translating convolutions and what follows them

Each of these ops takes and gives images in the order of TensorFlow.
-/

namespace NGraphBridge.NGraphBuilder

open NGraph (Shape)
open TF Axes

def getNodeAttrStrings (op : OpNode) (name : String) : StatusOr (List String) :=
  match op.listAttrs.lookup name with
  | some values => .ok values
  | none =>
      .error (errors.notFound ("No attr named '" ++ name ++ "' in NodeDef"))

/-- Numbers are given by their bits. -/
def getNodeAttrFloat (op : OpNode) (name : String) : StatusOr UInt32 :=
  match op.floatAttrs.lookup name with
  | some value => .ok value
  | none =>
      .error (errors.notFound ("No attr named '" ++ name ++ "' in NodeDef"))

/-- Strides in the batch and depth dimension are not supported. -/
def checkConvStrides (type_string : String) (is_nhwc : Bool)
    (tf_strides : List Int) : Translates Unit :=
  let unsupported : Failure := .status (errors.invalidArgument
    ("Strides in batch and depth dimensions is not supported: " ++ type_string))
  match tf_strides[0]? with
  | none => .error .outOfBounds
  | some batch =>
      if batch ≠ 1 then .error unsupported
      else
        match tf_strides[if is_nhwc then 3 else 1]? with
        | none => .error .outOfBounds
        | some depth => if depth ≠ 1 then .error unsupported else .ok ()

/-- What `TranslateConv2DOp` and `CreateNgConv` share: the convolution in the
order of nGraph. -/
def createNgConv (opset : Opset) (type_string tf_data_format : String)
    (tf_strides tf_dilations : List Int) (tf_padding_type : String)
    (ng_input ng_filter : Ng) : Translates Ng :=
  if tf_data_format ≠ "NHWC" ∧ tf_data_format ≠ "NCHW" then
    .error
      (.status
        (errors.invalidArgument "Conv2D data format is neither NHWC nor NCHW"))
  else do
    let is_nhwc : Bool := tf_data_format = "NHWC"
    checkConvStrides type_string is_nhwc tf_strides
    let ng_strides ← nhwcToHW is_nhwc 2 (tf_strides.map toUnsigned)
    let ng_image_shape ← nhwcToHW is_nhwc 2 (ng_input.get_shape opset)
    let ng_dilations ← nhwcToHW is_nhwc 2 (tf_dilations.map toUnsigned)
    let ng_input ← nhwcToNCHW opset is_nhwc ng_input
    let ng_kernel_shape ← entriesAt (ng_filter.get_shape opset) [0, 1]
    let ng_filter ← constructNgNode opset (.Transpose ng_filter [3, 2, 0, 1])
    let padding :=
      makePadding opset tf_padding_type ng_image_shape ng_kernel_shape
        ng_strides ng_dilations
    constructNgNode opset (.Convolution ng_input ng_filter
      { strides := ng_strides
        pads_begin := padding.1
        pads_end := padding.2
        dilations := ng_dilations })

def translateConv2DOp (opset : Opset) (op : OpNode) (ng_op_map : OpMap) :
    Translates OpMap := do
  let inputs ← getInputNodes ng_op_map op 2
  let tf_strides ← returnIfError (getNodeAttrInts op.attrs "strides")
  let tf_dilations ← returnIfError (getNodeAttrInts op.attrs "dilations")
  let tf_padding_type ← returnIfError (getNodeAttrString op.attrs "padding")
  let tf_data_format ← returnIfError (getNodeAttrString op.attrs "data_format")
  let ng_conv ← createNgConv opset op.type_string tf_data_format tf_strides
      tf_dilations tf_padding_type (inputs 0) (inputs 1)
  let ng_conv ← nchwToNHWC opset (tf_data_format = "NHWC") ng_conv
  .ok (saveNgOp ng_op_map op.name ng_conv)

/-- A shape of ones but for the channels. -/
def channelShape (rank channel_dim : Nat) : Shape :=
  (List.range rank).map fun i => if i = 1 then channel_dim else 1

/-- The bias as it is added. -/
def reshapeBias (opset : Opset) (tf_data_format : String)
    (ng_input_shape : Shape) (ng_bias : Ng) : Translates Ng :=
  if tf_data_format = "NCHW" then
    match ng_input_shape[1]? with
    | none => .error .outOfBounds
    | some channel_dim =>
        constructNgNode opset
          (.Reshape ng_bias (channelShape ng_input_shape.length channel_dim))
  else .ok ng_bias

def translateBiasAddOp (opset : Opset) (op : OpNode) (ng_op_map : OpMap) :
    Translates OpMap := do
  let inputs ← getInputNodes ng_op_map op 2
  let tf_data_format :=
    match getNodeAttrString op.attrs "data_format" with
    | .ok tf_data_format => tf_data_format
    | .error _ => "NHWC"
  if tf_data_format ≠ "NHWC" ∧ tf_data_format ≠ "NCHW" then
    .error
      (.status
        (errors.invalidArgument "BiasAdd data format is neither NHWC nor NCHW"))
  else if ((inputs 1).get_shape opset).length ≠ 1 then
    .error
      (.status
        (errors.invalidArgument
          "Bias argument to BiasAdd does not have one dimension"))
  else do
    let ng_bias_reshaped ← reshapeBias opset tf_data_format
        ((inputs 0).get_shape opset) (inputs 1)
    let ng_add ← constructNgNode opset (.Add (inputs 0) ng_bias_reshaped)
    .ok (saveNgOp ng_op_map op.name ng_add)

/-- The bits of `0.0001`. -/
def defaultEpsilon : UInt32 := 0x38D1B717

def translateFusedBatchNormOp (opset : Opset) (op : OpNode)
    (ng_op_map : OpMap) : Translates OpMap := do
  let inputs ← getInputNodes ng_op_map op 5
  let tf_data_format ← returnIfError (getNodeAttrString op.attrs "data_format")
  if tf_data_format ≠ "NHWC" ∧ tf_data_format ≠ "NCHW" then
    .error
      (.status
        (errors.invalidArgument "Conv2D data format is neither NHWC nor NCHW"))
  else do
    let is_nhwc : Bool := tf_data_format = "NHWC"
    let tf_epsilon :=
      match getNodeAttrFloat op "epsilon" with
      | .ok tf_epsilon => tf_epsilon
      | .error _ => defaultEpsilon
    let ng_input ← nhwcToNCHW opset is_nhwc (inputs 0)
    let ng_batch_norm ← constructNgNode opset
      (.BatchNormInference ng_input (inputs 1) (inputs 2) (inputs 3)
        (inputs 4) tf_epsilon)
    let ng_batch_norm ← nchwToNHWC opset is_nhwc ng_batch_norm
    let outputs := [ng_batch_norm, inputs 3, inputs 4, inputs 3, inputs 4] ++
      if op.type_string = "FusedBatchNormV3" then [inputs 3] else []
    .ok (outputs.foldl (saveNgOp · op.name) ng_op_map)

def translateUnaryOp (create_unary_op : Ng → Ng) (opset : Opset) (op : OpNode)
    (ng_op_map : OpMap) : Translates OpMap := do
  let inputs ← getInputNodes ng_op_map op 1
  let ng_node ← constructNgNode opset (create_unary_op (inputs 0))
  .ok (saveNgOp ng_op_map op.name ng_node)

def translateRelu6Op : Opset → OpNode → OpMap → Translates OpMap :=
  translateUnaryOp (.Clamp · 0 6)

def translateBinaryOp (create_binary_op : Ng → Ng → Ng) (opset : Opset)
    (op : OpNode) (ng_op_map : OpMap) : Translates OpMap := do
  let inputs ← getInputNodes ng_op_map op 2
  let ng_node ← constructNgNode opset (create_binary_op (inputs 0) (inputs 1))
  .ok (saveNgOp ng_op_map op.name ng_node)

/-- `TRANSLATE_OP_MAP`, as far as its translators are told here. -/
def unfusedTranslator : String →
    Option (Opset → OpNode → OpMap → Translates OpMap)
  | "Add" | "AddV2" => some (translateBinaryOp .Add)
  | "BiasAdd" => some translateBiasAddOp
  | "Conv2D" => some translateConv2DOp
  | "FusedBatchNorm" | "FusedBatchNormV2" | "FusedBatchNormV3" =>
      some translateFusedBatchNormOp
  | "Relu" => some (translateUnaryOp .Relu)
  | "Relu6" => some translateRelu6Op
  | _ => none

/-- The loop over the ops. -/
def translateOps (opset : Opset) : List OpNode → OpMap → Translates OpMap
  | [], ng_op_map => .ok ng_op_map
  | op :: tf_ops, ng_op_map =>
      match unfusedTranslator op.type_string with
      | none =>
          .error
            (.status (errors.invalidArgument
                ("No translation handler registered for op: " ++
                  op.name ++ " (" ++ op.type_string ++ ")\n")))
      | some op_fun => do
          let ng_op_map ← op_fun opset op ng_op_map
          translateOps opset tf_ops ng_op_map

section Conv

variable {opset : Opset}
  {type_string other tf_data_format tf_padding_type : String} {is_nhwc : Bool}
  {tf_strides tf_dilations : List Int} {ng_input ng_filter ng_conv : Ng}

theorem checkConvStrides_type_string
    (checked : checkConvStrides type_string is_nhwc tf_strides = .ok ()) :
    checkConvStrides other is_nhwc tf_strides = .ok () := by
  unfold checkConvStrides at checked ⊢
  cases batch : tf_strides[0]? with
  | none =>
      rw [batch] at checked
      exact nomatch checked
  | some first =>
      rw [batch] at checked
      dsimp only at checked ⊢
      by_cases wide : first ≠ 1
      · rw [if_pos wide] at checked
        exact nomatch checked
      · rw [if_neg wide] at checked ⊢
        cases depth : tf_strides[if is_nhwc then 3 else 1]? with
        | none =>
            rw [depth] at checked
            exact nomatch checked
        | some second =>
            rw [depth] at checked
            dsimp only at checked ⊢
            by_cases deep : second ≠ 1
            · rw [if_pos deep] at checked
              exact nomatch checked
            · rw [if_neg deep]

theorem createNgConv_type_string
    (built : createNgConv opset type_string tf_data_format tf_strides
      tf_dilations tf_padding_type ng_input ng_filter = .ok ng_conv) :
    createNgConv opset other tf_data_format tf_strides tf_dilations
      tf_padding_type ng_input ng_filter = .ok ng_conv := by
  unfold createNgConv at built ⊢
  split at built
  next => exact nomatch built
  next accepted =>
    rw [if_neg accepted]
    obtain ⟨_, checked, built⟩ := bind_ok built
    have checkedOther := @checkConvStrides_type_string _ other _ _ checked
    simp only [bind, Except.bind, checkedOther]
    exact built

theorem createNgConv_format
    (built : createNgConv opset type_string tf_data_format tf_strides
      tf_dilations tf_padding_type ng_input ng_filter = .ok ng_conv) :
    tf_data_format = "NHWC" ∨ tf_data_format = "NCHW" := by
  unfold createNgConv at built
  split at built
  next => exact nomatch built
  next accepted =>
    by_contra neither
    exact accepted
      ⟨fun last => neither (.inl last), fun first => neither (.inr first)⟩

end Conv

section Stored

variable {opset : Opset} {op : OpNode} {ng_op_map : OpMap}
  {left right node : Ng} {shape : Shape}

theorem getInputNodes_one (isCount : op.inputs.length = 1)
    (input : getInputNode ng_op_map op 0 = .ok node) :
    getInputNodes ng_op_map op 1 = .ok ![node] := by
  apply getInputNodes_ok isCount
  intro i
  match i with
  | 0 => exact input

theorem getInputNodes_two (isCount : op.inputs.length = 2)
    (leftInput : getInputNode ng_op_map op 0 = .ok left)
    (rightInput : getInputNode ng_op_map op 1 = .ok right) :
    getInputNodes ng_op_map op 2 = .ok ![left, right] := by
  apply getInputNodes_ok isCount
  intro i
  match i with
  | 0 => exact leftInput
  | 1 => exact rightInput

theorem translateConv2DOp_ok {tf_strides tf_dilations : List Int}
    {tf_padding_type tf_data_format : String} {ng_conv : Ng}
    (isCount : op.inputs.length = 2)
    (leftInput : getInputNode ng_op_map op 0 = .ok left)
    (rightInput : getInputNode ng_op_map op 1 = .ok right)
    (strides : getNodeAttrInts op.attrs "strides" = .ok tf_strides)
    (dilations : getNodeAttrInts op.attrs "dilations" = .ok tf_dilations)
    (padding : getNodeAttrString op.attrs "padding" = .ok tf_padding_type)
    (dataFormat : getNodeAttrString op.attrs "data_format" = .ok tf_data_format)
    (built : createNgConv opset op.type_string tf_data_format tf_strides
      tf_dilations tf_padding_type left right = .ok ng_conv)
    (back : nchwToNHWC opset (tf_data_format = "NHWC") ng_conv = .ok node) :
    translateConv2DOp opset op ng_op_map =
      .ok (saveNgOp ng_op_map op.name node) := by
  rw [translateConv2DOp, getInputNodes_two isCount leftInput rightInput]
  simp only [bind, Except.bind, returnIfError, strides, dilations, padding,
    dataFormat, Matrix.cons_val_zero, Matrix.cons_val_one, built, back]

theorem translateUnaryOp_ok {create_unary_op : Ng → Ng}
    (isCount : op.inputs.length = 1)
    (input : getInputNode ng_op_map op 0 = .ok node)
    (valid : (create_unary_op node).shape opset = some shape) :
    translateUnaryOp create_unary_op opset op ng_op_map =
      .ok (saveNgOp ng_op_map op.name (create_unary_op node)) := by
  have built := constructNgNode_ok valid
  rw [translateUnaryOp, getInputNodes_one isCount input]
  simp only [bind, Except.bind, Matrix.cons_val_zero, built]

theorem translateBinaryOp_ok {create_binary_op : Ng → Ng → Ng}
    (isCount : op.inputs.length = 2)
    (leftInput : getInputNode ng_op_map op 0 = .ok left)
    (rightInput : getInputNode ng_op_map op 1 = .ok right)
    (valid : (create_binary_op left right).shape opset = some shape) :
    translateBinaryOp create_binary_op opset op ng_op_map =
      .ok (saveNgOp ng_op_map op.name (create_binary_op left right)) := by
  have built := constructNgNode_ok valid
  rw [translateBinaryOp, getInputNodes_two isCount leftInput rightInput]
  simp only [bind, Except.bind, Matrix.cons_val_zero,
    Matrix.cons_val_one, built]

theorem translateBiasAddOp_ok {tf_data_format : String}
    {ng_bias_reshaped : Ng} {c : Nat} (isCount : op.inputs.length = 2)
    (leftInput : getInputNode ng_op_map op 0 = .ok left)
    (rightInput : getInputNode ng_op_map op 1 = .ok right)
    (dataFormat : getNodeAttrString op.attrs "data_format" = .ok tf_data_format)
    (isFormat : tf_data_format = "NHWC" ∨ tf_data_format = "NCHW")
    (isVector : right.shape opset = some [c])
    (reshaped : reshapeBias opset tf_data_format (left.get_shape opset) right =
      .ok ng_bias_reshaped)
    (valid : (Ng.Add left ng_bias_reshaped).shape opset = some shape) :
    translateBiasAddOp opset op ng_op_map =
      .ok (saveNgOp ng_op_map op.name (.Add left ng_bias_reshaped)) := by
  have built := constructNgNode_ok valid
  have accepted : ¬(tf_data_format ≠ "NHWC" ∧ tf_data_format ≠ "NCHW") := by
    intro neither
    exact isFormat.elim neither.1 neither.2
  have oneDimension : ¬(right.get_shape opset).length ≠ 1 := by
    rw [Ng.get_shape_eq isVector]
    exact not_not_intro rfl
  rw [translateBiasAddOp, getInputNodes_two isCount leftInput rightInput]
  simp only [bind, Except.bind, dataFormat, Matrix.cons_val_zero,
    Matrix.cons_val_one, if_neg accepted, if_neg oneDimension, reshaped, built]

/-- The normalized image is the first output. -/
theorem translateFusedBatchNormOp_ok {tf_data_format : String}
    {tf_epsilon : UInt32} {inputs : Fin 5 → Ng} {converted : Ng}
    (isCount : op.inputs.length = 5)
    (found : ∀ i : Fin 5, getInputNode ng_op_map op i = .ok (inputs i))
    (dataFormat : getNodeAttrString op.attrs "data_format" = .ok tf_data_format)
    (isFormat : tf_data_format = "NHWC" ∨ tf_data_format = "NCHW")
    (epsilon : getNodeAttrFloat op "epsilon" = .ok tf_epsilon)
    (conversion : nhwcToNCHW opset (tf_data_format = "NHWC") (inputs 0) =
      .ok converted)
    (valid :
      (Ng.BatchNormInference converted (inputs 1) (inputs 2) (inputs 3)
        (inputs 4) tf_epsilon).shape opset = some shape)
    (back : nchwToNHWC opset (tf_data_format = "NHWC")
      (.BatchNormInference converted (inputs 1)
      (inputs 2) (inputs 3) (inputs 4) tf_epsilon) = .ok node) :
    ∃ nodes, translateFusedBatchNormOp opset op ng_op_map =
      .ok ((node :: nodes).foldl (saveNgOp · op.name) ng_op_map) := by
  have built := constructNgNode_ok valid
  have accepted : ¬(tf_data_format ≠ "NHWC" ∧ tf_data_format ≠ "NCHW") := by
    intro neither
    exact isFormat.elim neither.1 neither.2
  refine ⟨[inputs 3, inputs 4, inputs 3, inputs 4] ++
    if op.type_string = "FusedBatchNormV3" then [inputs 3] else [], ?_⟩
  rw [translateFusedBatchNormOp, getInputNodes_ok isCount found]
  simp only [bind, Except.bind, returnIfError, dataFormat, if_neg accepted,
    epsilon, conversion, built, back]
  rfl

theorem translateOps_cons {after : OpMap}
    {op_fun : Opset → OpNode → OpMap → Translates OpMap}
    (handled : unfusedTranslator op.type_string = some op_fun)
    (translated : op_fun opset op ng_op_map = .ok after)
    (tf_ops : List OpNode) :
    translateOps opset (op :: tf_ops) ng_op_map =
      translateOps opset tf_ops after := by
  rw [translateOps, handled]
  simp only [bind, Except.bind, translated]

end Stored

end NGraphBridge.NGraphBuilder
