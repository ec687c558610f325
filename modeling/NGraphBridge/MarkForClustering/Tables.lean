import NGraphBridge.TF.Graph

/-!
# The tables of the marking pass

The four tables that decide whether a node may be placed on nGraph: the
confirmation functions, the type constraints, the attribute setters and the
operations the backend knows.  The entries stand in the order of the source.
-/

namespace NGraphBridge.MarkForClustering

open TF

def nGraphDTypes : List DataType := [
  .DT_FLOAT, .DT_INT8, .DT_INT16, .DT_INT32, .DT_INT64, .DT_UINT8,
  .DT_UINT16, .DT_UINT32, .DT_UINT64, .DT_BOOL, .DT_QINT8, .DT_QUINT8,
  .DT_BFLOAT16]

def nGraphNumericDTypes : List DataType := [
  .DT_FLOAT, .DT_INT8, .DT_INT16, .DT_INT32, .DT_INT64, .DT_UINT8,
  .DT_UINT16, .DT_UINT32, .DT_UINT64, .DT_BFLOAT16]

def nGraphIndexDTypes : List DataType := [.DT_INT32, .DT_INT64]

def nGraphRealDTypes : List DataType := [.DT_FLOAT, .DT_DOUBLE, .DT_BFLOAT16]

abbrev TypeConstraintMap := List (String × List (String × List DataType))

abbrev ConfirmationFunction := Node → StatusOr Bool

abbrev ConfirmationMap := List (String × ConfirmationFunction)

namespace ConfirmationMap

def find (map : ConfirmationMap) (op : String) : Option ConfirmationFunction :=
  map.lookup op

def erase (map : ConfirmationMap) (op : String) : ConfirmationMap :=
  map.filter (fun entry => entry.1 != op)

/-- `op` has an entry. -/
def contains (map : ConfirmationMap) (op : String) : Bool :=
  map.any (fun entry => entry.1 == op)

end ConfirmationMap

def simpleConfirmationFunction : ConfirmationFunction := fun _ => .ok true

/-- A missing `is_training` counts as training. -/
def fusedBatchNormConfirmationFunction : ConfirmationFunction := fun node =>
  match getNodeAttrBool node.attrs "is_training" with
  | .ok tf_is_training => .ok (!tf_is_training)
  | .error _ => .ok false

def depthToSpaceConfirmationFunction : ConfirmationFunction := fun node => do
  let tf_data_format ← getNodeAttrString node.attrs "data_format"
  return tf_data_format != "NCHW_VECT_C"

def topKV2ConfirmationFunction : ConfirmationFunction := fun node =>
  getNodeAttrBool node.attrs "sorted"

abbrev SetAttributesFunction := Node → Node

abbrev AttributeSetters := List (String × SetAttributesFunction)

/-- Mark input indices as static; a negative index counts from the right. -/
def setStaticInputs (static_input_indices : List Int) : SetAttributesFunction :=
  fun node =>
    node.addAttr "_ngraph_static_inputs"
      (.listI (static_input_indices.map
        (fun index => if 0 ≤ index then index else node.num_inputs + index)))

def getAttributeSetters : AttributeSetters := [
  ("Any", setStaticInputs [1]),
  ("All", setStaticInputs [1]),
  ("ArgMax", setStaticInputs [1]),
  ("ArgMin", setStaticInputs [1]),
  ("ConcatV2", setStaticInputs [-1]),
  ("Conv2DBackpropInput", setStaticInputs [0]),
  ("ExpandDims", setStaticInputs [1]),
  ("GatherV2", setStaticInputs [2]),
  ("Max", setStaticInputs [1]),
  ("Mean", setStaticInputs [1]),
  ("Min", setStaticInputs [1]),
  ("MirrorPad", setStaticInputs [1]),
  ("NonMaxSuppressionV2", setStaticInputs [2]),
  ("OneHot", setStaticInputs [1]),
  ("Pad", setStaticInputs [1]),
  ("PadV2", setStaticInputs [1]),
  ("Prod", setStaticInputs [1]),
  ("Reshape", setStaticInputs [1]),
  ("Slice", setStaticInputs [1, 2]),
  ("Split", setStaticInputs [0]),
  ("SplitV", setStaticInputs [1, 2]),
  ("StridedSlice", setStaticInputs [1, 2, 3]),
  ("Sum", setStaticInputs [1]),
  ("TopKV2", setStaticInputs [1]),
  ("Tile", setStaticInputs [1]),
  ("Range", setStaticInputs [0, 1, 2])]

def getConfirmationMap : ConfirmationMap := [
  ("Abs", simpleConfirmationFunction),
  ("Acos", simpleConfirmationFunction),
  ("Acosh", simpleConfirmationFunction),
  ("Add", simpleConfirmationFunction),
  ("AddN", simpleConfirmationFunction),
  ("AddV2", simpleConfirmationFunction),
  ("Any", simpleConfirmationFunction),
  ("All", simpleConfirmationFunction),
  ("ArgMax", simpleConfirmationFunction),
  ("ArgMin", simpleConfirmationFunction),
  ("Asin", simpleConfirmationFunction),
  ("Asinh", simpleConfirmationFunction),
  ("Atan", simpleConfirmationFunction),
  ("Atanh", simpleConfirmationFunction),
  ("AvgPool", simpleConfirmationFunction),
  ("BiasAdd", simpleConfirmationFunction),
  ("Cast", simpleConfirmationFunction),
  ("Ceil", simpleConfirmationFunction),
  ("ConcatV2", simpleConfirmationFunction),
  ("Const", simpleConfirmationFunction),
  ("Conv2D", simpleConfirmationFunction),
  ("Conv2DBackpropInput", simpleConfirmationFunction),
  ("Conv3D", simpleConfirmationFunction),
  ("Cos", simpleConfirmationFunction),
  ("Cosh", simpleConfirmationFunction),
  ("Cumsum", simpleConfirmationFunction),
  ("DepthwiseConv2dNative", simpleConfirmationFunction),
  ("DepthToSpace", depthToSpaceConfirmationFunction),
  ("Equal", simpleConfirmationFunction),
  ("Exp", simpleConfirmationFunction),
  ("ExpandDims", simpleConfirmationFunction),
  ("Fill", simpleConfirmationFunction),
  ("Floor", simpleConfirmationFunction),
  ("FloorDiv", simpleConfirmationFunction),
  ("FloorMod", simpleConfirmationFunction),
  ("FusedBatchNorm", fusedBatchNormConfirmationFunction),
  ("FusedBatchNormV2", fusedBatchNormConfirmationFunction),
  ("FusedBatchNormV3", fusedBatchNormConfirmationFunction),
  ("_FusedConv2D", simpleConfirmationFunction),
  ("Gather", simpleConfirmationFunction),
  ("GatherV2", simpleConfirmationFunction),
  ("_FusedMatMul", simpleConfirmationFunction),
  ("Greater", simpleConfirmationFunction),
  ("GreaterEqual", simpleConfirmationFunction),
  ("Identity", simpleConfirmationFunction),
  ("IsFinite", simpleConfirmationFunction),
  ("L2Loss", simpleConfirmationFunction),
  ("LogSoftmax", simpleConfirmationFunction),
  ("Less", simpleConfirmationFunction),
  ("LessEqual", simpleConfirmationFunction),
  ("Log", simpleConfirmationFunction),
  ("Log1p", simpleConfirmationFunction),
  ("LogicalAnd", simpleConfirmationFunction),
  ("LogicalNot", simpleConfirmationFunction),
  ("LogicalOr", simpleConfirmationFunction),
  ("LRN", simpleConfirmationFunction),
  ("MatMul", simpleConfirmationFunction),
  ("Max", simpleConfirmationFunction),
  ("Maximum", simpleConfirmationFunction),
  ("MaxPool", simpleConfirmationFunction),
  ("MaxPool3D", simpleConfirmationFunction),
  ("Mean", simpleConfirmationFunction),
  ("Min", simpleConfirmationFunction),
  ("Minimum", simpleConfirmationFunction),
  ("MirrorPad", simpleConfirmationFunction),
  ("Mul", simpleConfirmationFunction),
  ("Mod", simpleConfirmationFunction),
  ("Neg", simpleConfirmationFunction),
  ("NotEqual", simpleConfirmationFunction),
  ("NonMaxSuppressionV2", simpleConfirmationFunction),
  ("NoOp", simpleConfirmationFunction),
  ("OneHot", simpleConfirmationFunction),
  ("Pad", simpleConfirmationFunction),
  ("PadV2", simpleConfirmationFunction),
  ("Pow", simpleConfirmationFunction),
  ("PreventGradient", simpleConfirmationFunction),
  ("Prod", simpleConfirmationFunction),
  ("Range", simpleConfirmationFunction),
  ("Rank", simpleConfirmationFunction),
  ("RealDiv", simpleConfirmationFunction),
  ("Reciprocal", simpleConfirmationFunction),
  ("Relu", simpleConfirmationFunction),
  ("Relu6", simpleConfirmationFunction),
  ("Reshape", simpleConfirmationFunction),
  ("Rsqrt", simpleConfirmationFunction),
  ("Select", simpleConfirmationFunction),
  ("SelectV2", simpleConfirmationFunction),
  ("Shape", simpleConfirmationFunction),
  ("Sigmoid", simpleConfirmationFunction),
  ("Sign", simpleConfirmationFunction),
  ("Sin", simpleConfirmationFunction),
  ("Sinh", simpleConfirmationFunction),
  ("Size", simpleConfirmationFunction),
  ("Slice", simpleConfirmationFunction),
  ("Snapshot", simpleConfirmationFunction),
  ("Softmax", simpleConfirmationFunction),
  ("Softplus", simpleConfirmationFunction),
  ("SpaceToDepth", depthToSpaceConfirmationFunction),
  ("Split", simpleConfirmationFunction),
  ("SplitV", simpleConfirmationFunction),
  ("Sqrt", simpleConfirmationFunction),
  ("Square", simpleConfirmationFunction),
  ("SquaredDifference", simpleConfirmationFunction),
  ("Squeeze", simpleConfirmationFunction),
  ("StridedSlice", simpleConfirmationFunction),
  ("Pack", simpleConfirmationFunction),
  ("Sub", simpleConfirmationFunction),
  ("Sum", simpleConfirmationFunction),
  ("Tan", simpleConfirmationFunction),
  ("Tanh", simpleConfirmationFunction),
  ("Tile", simpleConfirmationFunction),
  ("TopKV2", topKV2ConfirmationFunction),
  ("Transpose", simpleConfirmationFunction),
  ("Unpack", simpleConfirmationFunction),
  ("Where", simpleConfirmationFunction),
  ("Xdivy", simpleConfirmationFunction),
  ("ZerosLike", simpleConfirmationFunction)]

def getTypeConstraintMap : TypeConstraintMap := [
  ("Abs", [("T", nGraphNumericDTypes)]),
  ("Acos", [("T", nGraphNumericDTypes)]),
  ("Acosh", [("T", nGraphRealDTypes)]),
  ("Add", [("T", nGraphNumericDTypes)]),
  ("AddN", [("T", nGraphNumericDTypes)]),
  ("AddV2", [("T", nGraphNumericDTypes)]),
  ("Any", [("Tidx", nGraphIndexDTypes)]),
  ("All", [("Tidx", nGraphIndexDTypes)]),
  ("ArgMax", [("T", nGraphNumericDTypes), ("Tidx", nGraphIndexDTypes)]),
  ("ArgMin", [("T", nGraphNumericDTypes), ("Tidx", nGraphIndexDTypes)]),
  ("Asin", [("T", nGraphNumericDTypes)]),
  ("Asinh", [("T", nGraphRealDTypes)]),
  ("Atan", [("T", nGraphNumericDTypes)]),
  ("Atanh", [("T", nGraphRealDTypes)]),
  ("AvgPool", [("T", nGraphNumericDTypes)]),
  ("BiasAdd", [("T", nGraphNumericDTypes)]),
  ("Cast", [("SrcT", nGraphDTypes), ("DstT", nGraphDTypes)]),
  ("Ceil", [("T", nGraphRealDTypes)]),
  ("ConcatV2", [("T", nGraphDTypes), ("Tidx", nGraphIndexDTypes)]),
  ("Const", [("dtype", nGraphDTypes)]),
  ("Conv2D", [("T", nGraphNumericDTypes)]),
  ("Conv2DBackpropInput", [("T", nGraphNumericDTypes)]),
  ("Conv3D", [("T", nGraphNumericDTypes)]),
  ("Cos", [("T", nGraphRealDTypes)]),
  ("Cosh", [("T", nGraphRealDTypes)]),
  ("Cumsum", [("T", nGraphNumericDTypes), ("Tidx", nGraphIndexDTypes)]),
  ("DepthToSpace", [("T", nGraphDTypes)]),
  ("DepthwiseConv2dNative", [("T", nGraphNumericDTypes)]),
  ("Equal", [("T", nGraphDTypes)]),
  ("Exp", [("T", nGraphNumericDTypes)]),
  ("ExpandDims", [("T", nGraphDTypes)]),
  ("Floor", [("T", nGraphNumericDTypes)]),
  ("FloorDiv", [("T", [.DT_FLOAT])]),
  ("FloorMod", [("T", [.DT_FLOAT])]),
  ("FusedBatchNorm", [("T", nGraphNumericDTypes)]),
  ("FusedBatchNormV2", [("T", [.DT_FLOAT])]),
  ("FusedBatchNormV3", [("T", [.DT_FLOAT])]),
  ("Gather", [("Tparams", nGraphDTypes), ("Tindices", nGraphIndexDTypes)]),
  ("GatherV2",
    [("Tparams", nGraphDTypes), ("Tindices", nGraphIndexDTypes),
      ("Taxis", nGraphIndexDTypes)]),
  ("_FusedConv2D", [("T", nGraphRealDTypes)]),
  ("_FusedMatMul", [("T", nGraphRealDTypes)]),
  ("Greater", [("T", nGraphDTypes)]),
  ("GreaterEqual", [("T", nGraphDTypes)]),
  ("Identity", [("T", nGraphDTypes)]),
  ("IsFinite", [("T", nGraphRealDTypes)]),
  ("L2Loss", [("T", nGraphNumericDTypes)]),
  ("LogSoftmax", [("T", nGraphRealDTypes)]),
  ("Less", [("T", nGraphDTypes)]),
  ("LessEqual", [("T", nGraphDTypes)]),
  ("Log", [("T", nGraphNumericDTypes)]),
  ("Log1p", [("T", nGraphRealDTypes)]),
  ("LRN", [("T", [.DT_FLOAT])]),
  ("MatMul", [("T", nGraphNumericDTypes)]),
  ("Max", [("T", nGraphNumericDTypes), ("Tidx", nGraphIndexDTypes)]),
  ("Maximum", [("T", nGraphNumericDTypes)]),
  ("MaxPool", [("T", nGraphNumericDTypes)]),
  ("MaxPool3D", [("T", nGraphNumericDTypes)]),
  ("Mean", [("T", nGraphNumericDTypes), ("Tidx", nGraphIndexDTypes)]),
  ("Min", [("T", nGraphNumericDTypes), ("Tidx", nGraphIndexDTypes)]),
  ("Minimum", [("T", nGraphNumericDTypes)]),
  ("MirrorPad", [("T", nGraphDTypes), ("Tpaddings", nGraphIndexDTypes)]),
  ("Mul", [("T", nGraphNumericDTypes)]),
  ("Mod", [("T", nGraphNumericDTypes)]),
  ("Neg", [("T", nGraphNumericDTypes)]),
  ("NotEqual", [("T", nGraphDTypes)]),
  ("NonMaxSuppressionV2", [("T", [.DT_FLOAT])]),
  ("OneHot", [("T", nGraphDTypes)]),
  ("Pack", [("T", nGraphDTypes)]),
  ("Pad", [("T", nGraphDTypes), ("Tpaddings", nGraphIndexDTypes)]),
  ("PadV2", [("T", nGraphDTypes), ("Tpaddings", nGraphIndexDTypes)]),
  ("Pow", [("T", nGraphNumericDTypes)]),
  ("PreventGradient", [("T", nGraphDTypes)]),
  ("Prod", [("T", nGraphNumericDTypes), ("Tidx", nGraphIndexDTypes)]),
  ("Range", [("Tidx", nGraphNumericDTypes)]),
  ("Rank", [("T", nGraphNumericDTypes)]),
  ("RealDiv", [("T", nGraphNumericDTypes)]),
  ("Reciprocal", [("T", nGraphNumericDTypes)]),
  ("Relu", [("T", nGraphNumericDTypes)]),
  ("Relu6", [("T", nGraphNumericDTypes)]),
  ("Reshape", [("T", nGraphDTypes), ("Tshape", nGraphIndexDTypes)]),
  ("Rsqrt", [("T", nGraphDTypes)]),
  ("Select", [("T", nGraphDTypes)]),
  ("SelectV2", [("T", nGraphDTypes)]),
  ("Shape", [("T", nGraphDTypes), ("out_type", nGraphIndexDTypes)]),
  ("Sigmoid", [("T", nGraphNumericDTypes)]),
  ("Sign", [("T", nGraphNumericDTypes)]),
  ("Sin", [("T", nGraphRealDTypes)]),
  ("Sinh", [("T", nGraphRealDTypes)]),
  ("Size", [("T", nGraphDTypes), ("out_type", nGraphIndexDTypes)]),
  ("Slice", [("T", nGraphDTypes), ("Index", nGraphIndexDTypes)]),
  ("Snapshot", [("T", nGraphDTypes)]),
  ("Softmax", [("T", nGraphNumericDTypes)]),
  ("Softplus", [("T", nGraphRealDTypes)]),
  ("SpaceToDepth", [("T", nGraphDTypes)]),
  ("Split", [("T", nGraphDTypes)]),
  ("SplitV", [("T", nGraphDTypes), ("Tlen", nGraphIndexDTypes)]),
  ("Sqrt", [("T", nGraphDTypes)]),
  ("Square", [("T", nGraphDTypes)]),
  ("SquaredDifference", [("T", nGraphDTypes)]),
  ("Squeeze", [("T", nGraphDTypes)]),
  ("StridedSlice", [("T", nGraphDTypes), ("Index", nGraphIndexDTypes)]),
  ("Sub", [("T", nGraphNumericDTypes)]),
  ("Sum", [("T", nGraphNumericDTypes), ("Tidx", nGraphIndexDTypes)]),
  ("Tan", [("T", nGraphNumericDTypes)]),
  ("Tanh", [("T", nGraphNumericDTypes)]),
  ("Tile", [("T", nGraphNumericDTypes), ("Tmultiples", nGraphIndexDTypes)]),
  ("TopKV2", [("T", nGraphNumericDTypes)]),
  ("Transpose", [("T", nGraphDTypes), ("Tperm", nGraphIndexDTypes)]),
  ("Unpack", [("T", nGraphDTypes)]),
  ("Where", [("T", nGraphDTypes)]),
  ("Xdivy", [("T", nGraphRealDTypes)]),
  ("ZerosLike", [("T", nGraphNumericDTypes)])]

/-- A backend: its name, and which nGraph operations `get_opset5()` holds. -/
structure Backend where
  name : String
  contains_op_type : String → Bool

def TFtoNgraphOpMap : List (String × List String) := [
  ("Abs", ["Abs"]),
  ("Acos", ["Acos"]),
  ("Acosh", ["Acosh"]),
  ("Add", ["Add"]),
  ("AddN", ["Add"]),
  ("AddV2", ["Add"]),
  ("Any", ["ReduceLogicalOr"]),
  ("All", ["ReduceLogicalAnd"]),
  ("ArgMax", ["TopK", "Squeeze"]),
  ("ArgMin", ["TopK", "Squeeze"]),
  ("Asin", ["Asin"]),
  ("Asinh", ["Asinh"]),
  ("Atan", ["Atan"]),
  ("Atanh", ["Atanh"]),
  ("AvgPool", ["AvgPool"]),
  ("BiasAdd", ["Add", "Reshape"]),
  ("Cast", ["Convert"]),
  ("Ceil", ["Ceiling"]),
  ("ConcatV2", ["Concat"]),
  ("Const", []),
  ("Conv2D", ["Transpose", "Convolution"]),
  ("Conv2DBackpropInput", ["ConvolutionBackpropData", "Transpose"]),
  ("Conv3D", ["Convolution", "Transpose"]),
  ("Cos", ["Cos"]),
  ("Cosh", ["Cosh"]),
  ("Cumsum", ["CumSum"]),
  ("DepthToSpace", ["DepthToSpace"]),
  ("DepthwiseConv2dNative", ["GroupConvolution"]),
  ("Equal", ["Equal"]),
  ("Exp", ["Exp"]),
  ("ExpandDims", ["Unsqueeze"]),
  ("Fill", ["Broadcast"]),
  ("Floor", ["Floor"]),
  ("FloorDiv", ["Divide", "Floor", "Broadcast"]),
  ("FloorMod", ["FloorMod"]),
  ("FusedBatchNorm", ["BatchNormInference"]),
  ("FusedBatchNormV2", ["BatchNormInference", "Transpose"]),
  ("FusedBatchNormV3", ["BatchNormInference", "Transpose"]),
  ("Gather", ["Gather"]),
  ("GatherV2", ["Gather"]),
  ("_FusedConv2D",
    ["Convolution", "Minimum", "Relu", "Add", "BatchNormInference"]),
  ("_FusedMatMul", ["MatMul", "Relu", "Add", "Minimum"]),
  ("Greater", ["Greater"]),
  ("GreaterEqual", ["GreaterEqual"]),
  ("Identity", []),
  ("IsFinite", ["NotEqual", "Equal", "LogicalAnd"]),
  ("L2Loss", ["Multiply", "ReduceSum", "Divide"]),
  ("LogSoftmax", ["Exp", "ReduceMax", "ReduceSum", "Subtract", "Log"]),
  ("Less", ["Less"]),
  ("LessEqual", ["LessEqual"]),
  ("Log", ["Log"]),
  ("Log1p", ["Add", "Log"]),
  ("LogicalAnd", ["LogicalAnd"]),
  ("LogicalNot", ["LogicalNot"]),
  ("LogicalOr", ["LogicalOr"]),
  ("LRN", ["LRN"]),
  ("MatMul", ["MatMul"]),
  ("Max", ["ReduceMax"]),
  ("Maximum", ["Maximum"]),
  ("MaxPool", ["Transpose", "MaxPool"]),
  ("MaxPool3D", ["Transpose", "MaxPool"]),
  ("Mean", ["ReduceMean"]),
  ("Min", ["ReduceMin"]),
  ("Minimum", ["Minimum"]),
  ("MirrorPad", ["Pad"]),
  ("Mul", ["Multiply"]),
  ("Mod", ["Mod"]),
  ("Neg", ["Negative"]),
  ("NotEqual", ["NotEqual"]),
  ("NonMaxSuppressionV2", ["NonMaxSuppression", "Unsqueeze", "StridedSlice"]),
  ("OneHot", ["OneHot"]),
  ("Pack", ["Concat", "Unsqueeze"]),
  ("Pad", ["Pad"]),
  ("PadV2", ["Pad"]),
  ("Pow", ["Power"]),
  ("Prod", ["ReduceProd"]),
  ("Range", ["Range"]),
  ("Rank", []),
  ("RealDiv", ["Divide"]),
  ("Reciprocal", ["Power"]),
  ("Relu", ["Relu"]),
  ("Relu6", ["Clamp"]),
  ("Rsqrt", ["Power"]),
  ("Select", ["Select"]),
  ("SelectV2", ["Select"]),
  ("Reshape", ["Reshape"]),
  ("Shape", ["ShapeOf"]),
  ("Sigmoid", ["Sigmoid"]),
  ("Sin", ["Sin"]),
  ("Sinh", ["Sinh"]),
  ("Size", []),
  ("Sign", ["Sign"]),
  ("Slice", ["StridedSlice"]),
  ("Snapshot", []),
  ("Softmax", ["Softmax"]),
  ("Softplus", ["SoftPlus"]),
  ("SpaceToDepth", ["SpaceToDepth"]),
  ("Split", ["Split"]),
  ("SplitV", ["VariadicSplit"]),
  ("Sqrt", ["Sqrt"]),
  ("Square", ["Multiply"]),
  ("SquaredDifference", ["SquaredDifference"]),
  ("Squeeze", ["Squeeze"]),
  ("StridedSlice", ["StridedSlice"]),
  ("Sub", ["Subtract"]),
  ("Sum", ["ReduceSum"]),
  ("Tan", ["Tan"]),
  ("Tanh", ["Tanh"]),
  ("Tile", ["Tile"]),
  ("TopKV2", ["TopK"]),
  ("Transpose", ["Transpose"]),
  ("Where", ["NonZero", "Transpose"]),
  ("Xdivy", ["Divide", "Equal", "Select"]),
  ("Unpack", ["StridedSlice"]),
  ("ZerosLike", []),
  ("NoOp", [])]

def Backend.isSupported (backend : Backend) (op : String) : Bool :=
  match TFtoNgraphOpMap.lookup op with
  | none => false
  | some ng_ops => ng_ops.all backend.contains_op_type

end NGraphBridge.MarkForClustering
