import NGraphBridge.MarkForClustering.Tables
import NGraphBridge.NGraphBuilder.Conv2DBackprop
import NGraphBridge.NGraphBuilder.DepthwiseConv2D
import NGraphBridge.NGraphBuilder.FusedConv2D
import NGraphBridge.NGraphBuilder.Gather
import NGraphBridge.NGraphBuilder.GraphValues
import NGraphBridge.NGraphBuilder.Select
import NGraphBridge.NGraphBuilder.Unpack

/-!
# The table of translators

`TRANSLATE_OP_MAP`, and what the translators of some of its ops keep.
-/

namespace NGraphBridge.NGraphBuilder

open NGraph (Shape)
open TF Tensor

/-- Do nothing! -/
def translateNoOp (_op : OpNode) (_static_input_map : StaticInputMap)
    (ng_op_map : OpMap) :
    Translates OpMap := .ok ng_op_map

/-- The sum so far, and what is still to be added. -/
def accumulate (opset : Opset) : Ng → List Ng → Translates Ng
  | sum, [] => .ok sum
  | sum, ng_arg :: ng_arg_vec => do
      let next ← constructNgNode opset (.Add sum ng_arg)
      accumulate opset next ng_arg_vec

/-- `at(0)` throws if there are no inputs. -/
def translateAddNOp (opset : Opset) (op : OpNode)
    (_static_input_map : StaticInputMap) (ng_op_map : OpMap) :
    Translates OpMap := do
  let inputs ← getInputNodesFrom ng_op_map op 0 op.inputs.length
  match List.ofFn inputs with
  | [] => .error .exception
  | first :: ng_arg_vec => do
      let ng_addn ← accumulate opset first ng_arg_vec
      .ok (saveNgOp ng_op_map op.name ng_addn)

/-- A translator that looks at no static input. -/
def plain (translate : Opset → OpNode → OpMap → Translates OpMap)
    (opset : Opset) : Translator :=
  fun op _ ng_op_map => translate opset op ng_op_map

/-- The entries of `TRANSLATE_OP_MAP`. `others` stands for the translators that
are not told here. -/
def translateOpEntries (opset : Opset) (others : String → Translator) :
    List (String × Translator) := [
  ("Abs", others "Abs"),
  ("Acos", others "Acos"),
  ("Acosh", others "Acosh"),
  ("Add", plain (translateBinaryOp .Add) opset),
  ("AddN", translateAddNOp opset),
  ("AddV2", plain (translateBinaryOp .Add) opset),
  ("Any", others "Any"),
  ("All", others "All"),
  ("ArgMax", others "ArgMax"),
  ("ArgMin", others "ArgMin"),
  ("Asin", others "Asin"),
  ("Asinh", others "Asinh"),
  ("Atan", others "Atan"),
  ("Atanh", others "Atanh"),
  ("AvgPool", others "AvgPool"),
  ("BiasAdd", plain translateBiasAddOp opset),
  ("Cast", others "Cast"),
  ("Ceil", others "Ceil"),
  ("ConcatV2", others "ConcatV2"),
  ("Const", others "Const"),
  ("Conv2D", plain translateConv2DOp opset),
  ("Conv2DBackpropInput", translateConv2DBackpropInputOp opset),
  ("Conv3D", others "Conv3D"),
  ("Cos", others "Cos"),
  ("Cosh", others "Cosh"),
  ("Cumsum", others "Cumsum"),
  ("DepthToSpace", others "DepthToSpace"),
  ("DepthwiseConv2dNative", plain translateDepthwiseConv2dNativeOp opset),
  ("Equal", others "Equal"),
  ("Exp", others "Exp"),
  ("ExpandDims", others "ExpandDims"),
  ("Fill", others "Fill"),
  ("Floor", others "Floor"),
  ("FloorDiv", others "FloorDiv"),
  ("FloorMod", others "FloorMod"),
  ("FusedBatchNorm", plain translateFusedBatchNormOp opset),
  ("FusedBatchNormV2", plain translateFusedBatchNormOp opset),
  ("FusedBatchNormV3", plain translateFusedBatchNormOp opset),
  ("Gather", others "Gather"),
  ("GatherV2", translateGatherV2Op opset),
  ("_FusedConv2D", plain translateFusedConv2DOp opset),
  ("_FusedMatMul", others "_FusedMatMul"),
  ("Greater", others "Greater"),
  ("GreaterEqual", others "GreaterEqual"),
  ("Identity", translateIdentityOp),
  ("IsFinite", others "IsFinite"),
  ("L2Loss", others "L2Loss"),
  ("LogSoftmax", others "LogSoftmax"),
  ("Less", others "Less"),
  ("LessEqual", others "LessEqual"),
  ("Log", others "Log"),
  ("Log1p", others "Log1p"),
  ("LogicalAnd", others "LogicalAnd"),
  ("LogicalNot", others "LogicalNot"),
  ("LogicalOr", others "LogicalOr"),
  ("LRN", others "LRN"),
  ("MatMul", others "MatMul"),
  ("Max", others "Max"),
  ("Maximum", others "Maximum"),
  ("MaxPool", plain (translateMaxPoolOp 2) opset),
  ("MaxPool3D", plain (translateMaxPoolOp 3) opset),
  ("NonMaxSuppressionV2", others "NonMaxSuppressionV2"),
  ("Mean", others "Mean"),
  ("Min", others "Min"),
  ("Minimum", others "Minimum"),
  ("MirrorPad", others "MirrorPad"),
  ("Mul", others "Mul"),
  ("Mod", others "Mod"),
  ("Neg", others "Neg"),
  ("NotEqual", others "NotEqual"),
  ("NoOp", translateNoOp),
  ("OneHot", others "OneHot"),
  ("Pack", others "Pack"),
  ("Pad", others "Pad"),
  ("PadV2", others "PadV2"),
  ("Pow", others "Pow"),
  ("PreventGradient", translateIdentityOp),
  ("Prod", others "Prod"),
  ("Range", others "Range"),
  ("Rank", others "Rank"),
  ("RealDiv", others "RealDiv"),
  ("Reciprocal", others "Reciprocal"),
  ("Relu", plain (translateUnaryOp .Relu) opset),
  ("Relu6", plain translateRelu6Op opset),
  ("Reshape", others "Reshape"),
  ("Rsqrt", others "Rsqrt"),
  ("Select", plain translateSelectOp opset),
  ("SelectV2", plain translateSelectOp opset),
  ("Shape", others "Shape"),
  ("Sigmoid", others "Sigmoid"),
  ("Sin", others "Sin"),
  ("Sinh", others "Sinh"),
  ("Size", others "Size"),
  ("Sign", others "Sign"),
  ("Slice", translateSliceOp opset),
  ("Snapshot", translateIdentityOp),
  ("Softmax", others "Softmax"),
  ("Softplus", others "Softplus"),
  ("SpaceToDepth", others "SpaceToDepth"),
  ("Split", others "Split"),
  ("SplitV", translateSplitVOp opset),
  ("Sqrt", others "Sqrt"),
  ("Square", others "Square"),
  ("SquaredDifference", others "SquaredDifference"),
  ("Squeeze", others "Squeeze"),
  ("StridedSlice", others "StridedSlice"),
  ("Sub", others "Sub"),
  ("Sum", others "Sum"),
  ("Tan", others "Tan"),
  ("Tanh", others "Tanh"),
  ("Tile", others "Tile"),
  ("TopKV2", others "TopKV2"),
  ("Transpose", others "Transpose"),
  ("Unpack", plain translateUnpackOp opset),
  ("Where", others "Where"),
  ("Xdivy", others "Xdivy"),
  ("ZerosLike", others "ZerosLike")]

def translateOpMap (opset : Opset) (others : String → Translator) :
    TranslateOpMap :=
  fun type_string => (translateOpEntries opset others).lookup type_string

/-- Every op that may be marked has a translator. -/
theorem handler_registered (opset : Opset) (others : String → Translator)
    {type_string : String}
    (confirmed : type_string ∈ MarkForClustering.getConfirmationMap.map
      Prod.fst) :
    ∃ op_fun, translateOpMap opset others type_string = some op_fun := by
  have names : ∀ name ∈ MarkForClustering.getConfirmationMap.map Prod.fst,
      name ∈ (translateOpEntries opset others).map Prod.fst := by
    simp only [translateOpEntries, List.map_cons, List.map_nil]
    decide +kernel
  obtain ⟨entry, member, same⟩ := List.mem_map.mp (names type_string confirmed)
  cases found : (translateOpEntries opset others).lookup type_string with
  | none =>
      have apart := List.lookup_eq_none_iff.mp found entry member
      rw [same, bne_self_eq_false] at apart
      exact absurd apart Bool.false_ne_true
  | some op_fun => exact ⟨op_fun, found⟩

/-- Get the inputs, construct a node over them and save it. -/
def translateWith (count : Nat) (build : (Fin count → Ng) → Ng) (opset : Opset)
    (op : OpNode) (ng_op_map : OpMap) : Translates OpMap := do
  let inputs ← getInputNodes ng_op_map op count
  let ng_node ← constructNgNode opset (build inputs)
  .ok (saveNgOp ng_op_map op.name ng_node)

section OneNode

variable {V : Type} [Inhabited V] {opset : Opset} {library : Library V opset}
  {args : Nat → Tensor V} {meaning : Meaning V}
  {static_input_map : StaticInputMap} {op : OpNode} {count : Nat}
  {build : (Fin count → Ng) → Ng}

theorem constructNgNode_of_eval {node : Ng} {value : Tensor V}
    (evaluates : node.eval library args = some value) :
    constructNgNode opset node = .ok node :=
  constructNgNode_ok (eval_shape evaluates)

/-- The node has the one value that the op makes of the inputs. -/
def BuildsMeaning (library : Library V opset) (args : Nat → Tensor V)
    (meaning : Meaning V) (op : OpNode)
    (build : (Fin count → Ng) → Ng) : Prop :=
  ∀ nodes values outs, StandFor library args (List.ofFn nodes) values →
    meaning op values = some outs → ∃ out, outs = [out] ∧
    (build nodes).eval library args = some out

theorem sound_translateWith
    (builds : BuildsMeaning library args meaning op build) :
    SoundTranslator library args meaning static_input_map op
      (plain (translateWith count build) opset) := by
  intro ng_op_map after values outs supplied means success
  obtain ⟨nodes, inputs, success⟩ := bind_ok success
  obtain ⟨node, built, success⟩ := bind_ok success
  obtain rfl := Except.ok.inj success
  obtain ⟨rfl, _⟩ := constructNgNode_inv built
  obtain ⟨isCount, found⟩ := getInputNodes_iff.mp inputs
  obtain ⟨out, rfl, evaluates⟩ :=
    builds nodes values outs (supplied.standFor isCount found) means
  exact ⟨[build nodes], rfl, .cons evaluates .nil⟩

theorem total_translateWith
    (builds : BuildsMeaning library args meaning op build)
    (counted : ∀ values outs, meaning op values = some outs →
      values.length = count) :
    TotalTranslator library args meaning static_input_map op
      (plain (translateWith count build) opset) := by
  intro ng_op_map values outs supplied stored means
  have isCount : op.inputs.length = count :=
    supplied.length.symm.trans (counted values outs means)
  subst isCount
  obtain ⟨nodes, found⟩ := exists_nodes stored
  obtain ⟨out, _, evaluates⟩ :=
    builds nodes values outs (supplied.standFor rfl found) means
  refine ⟨saveNgOp ng_op_map op.name (build nodes), ?_⟩
  change translateWith op.inputs.length build opset op ng_op_map = _
  rw [translateWith, getInputNodes_iff.mpr ⟨rfl, found⟩]
  simp only [bind, Except.bind, constructNgNode_of_eval evaluates]

end OneNode

section Meanings

variable {V : Type} [Inhabited V] {opset : Opset}

def binaryMeaning (f : Tensor V → Tensor V → Option (Tensor V)) : Meaning V
  | _, [x, y] => (f x y).map fun out => [out]
  | _, _ => none

def selectMeaning (isTrue : V → Bool) : Meaning V
  | _, [condition, x, y] => (select isTrue condition x y).map fun out => [out]
  | _, _ => none

def noOpMeaning : Meaning V
  | _, [] => some []
  | _, _ => none

/-- Tensors of one shape are added element by element. -/
def addNMeaning (add : V → V → V) : Meaning V
  | _, [] => none
  | _, x :: others =>
      if others.all fun other => other.shape = x.shape then
        some [ofFn x.shape fun index =>
          others.foldl (fun sum other => add sum (other.get index))
            (x.get index)]
      else none

/-- The entries of an axis, of which there are as many as the op has outputs. -/
def unpackMeaning : Meaning V
  | op, [x] =>
      match getNodeAttrInt op.attrs "axis", getNodeAttrInt op.attrs "num" with
      | .ok axis, .ok num =>
          if -(x.rank : Int) ≤ axis ∧ axis < x.rank ∧
              (x.shape[splitAxis axis x.rank]?).map Int.ofNat = some num then
            some ((List.range num.toNat).map fun i =>
                x.entry (splitAxis axis x.rank) i)
          else none
      | _, _ => none
  | _, _ => none

/-- An op with what it means and its translator. -/
structure KnownOp (V : Type) where
  type_string : String
  meaning : Meaning V
  op_fun : Translator

def knownOps (library : Library V opset) : List (KnownOp V) := [
  ⟨"Identity", unaryMeaning id, translateIdentityOp⟩,
  ⟨"PreventGradient", unaryMeaning id, translateIdentityOp⟩,
  ⟨"Snapshot", unaryMeaning id, translateIdentityOp⟩,
  ⟨"Relu", unaryMeaning (Tensor.map library.relu),
    plain (translateUnaryOp .Relu) opset⟩,
  ⟨"Relu6", unaryMeaning (Tensor.map (library.clamp 0 6)),
    plain translateRelu6Op opset⟩,
  ⟨"Add", binaryMeaning (Tensor.binary library.add),
    plain (translateBinaryOp .Add) opset⟩,
  ⟨"AddV2", binaryMeaning (Tensor.binary library.add),
    plain (translateBinaryOp .Add) opset⟩,
  ⟨"AddN", addNMeaning library.add, translateAddNOp opset⟩,
  ⟨"SelectV2", selectMeaning library.isTrue, plain translateSelectOp opset⟩,
  ⟨"Unpack", unpackMeaning, plain translateUnpackOp opset⟩,
  ⟨"NoOp", noOpMeaning, translateNoOp⟩]

/-- What an op of one of these types means. -/
def knownMeaning (library : Library V opset) : Meaning V := fun op values =>
  ((knownOps library).find? fun known => known.type_string =
      op.type_string).bind fun known => known.meaning op values

theorem knownOps_registered (library : Library V opset)
    (others : String → Translator) :
    ∀ known ∈ knownOps library,
      translateOpMap opset others known.type_string = some known.op_fun := by
  simp only [knownOps, List.forall_mem_cons]
  exact ⟨rfl, rfl, rfl, rfl, rfl, rfl, rfl, rfl, rfl, rfl, rfl,
    List.forall_mem_nil _⟩

end Meanings

section Known

variable {V : Type} [Inhabited V] {opset : Opset} {library : Library V opset}
  {args : Nat → Tensor V} {static_input_map : StaticInputMap} {op : OpNode}

theorem standFor_two {nodes : Fin 2 → Ng} {values : List (Tensor V)}
    (standFor : StandFor library args (List.ofFn nodes) values) :
    ∃ x y, values = [x, y] ∧ (nodes 0).eval library args = some x ∧
      (nodes 1).eval library args = some y := by
  cases standFor with
  | cons atFirst rest =>
      obtain ⟨y, rfl, atSecond⟩ :=
        @standFor_one _ _ _ _ _ (fun i => nodes i.succ) _ rest
      exact ⟨_, y, rfl, atFirst, atSecond⟩

theorem standFor_three {nodes : Fin 3 → Ng} {values : List (Tensor V)}
    (standFor : StandFor library args (List.ofFn nodes) values) :
    ∃ x y z, values = [x, y, z] ∧ (nodes 0).eval library args = some x ∧
      (nodes 1).eval library args = some y ∧
      (nodes 2).eval library args = some z := by
  cases standFor with
  | cons atFirst rest =>
      obtain ⟨y, z, rfl, atSecond, atThird⟩ :=
        @standFor_two _ _ _ _ _ (fun i => nodes i.succ) _ rest
      exact ⟨_, y, z, rfl, atFirst, atSecond, atThird⟩

theorem builds_unary {create : Ng → Ng} {f : Tensor V → Tensor V}
    (evaluates : ∀ node x, node.eval library args = some x →
      (create node).eval library args = some (f x)) :
    BuildsMeaning library args (unaryMeaning f) op fun inputs : Fin 1 → Ng =>
      create (inputs 0) := by
  intro nodes values outs standFor means
  obtain ⟨x, rfl, atFirst⟩ := standFor_one standFor
  exact ⟨f x, (Option.some.inj means).symm, evaluates _ x atFirst⟩

theorem builds_binary {create : Ng → Ng → Ng}
    {f : Tensor V → Tensor V → Option (Tensor V)}
    (evaluates : ∀ left right x y, left.eval library args = some x →
      right.eval library args = some y →
      (create left right).eval library args = f x y) :
    BuildsMeaning library args (binaryMeaning f) op
      fun inputs : Fin 2 → Ng => create (inputs 0) (inputs 1) := by
  intro nodes values outs standFor means
  obtain ⟨x, y, rfl, atFirst, atSecond⟩ := standFor_two standFor
  obtain ⟨out, isOut, rfl⟩ := Option.map_eq_some_iff.mp means
  exact ⟨out, rfl, (evaluates _ _ x y atFirst atSecond).trans isOut⟩

theorem builds_select :
    BuildsMeaning library args (selectMeaning library.isTrue) op
    fun inputs : Fin 3 → Ng => .Select (inputs 0) (inputs 1) (inputs 2) := by
  intro nodes values outs standFor means
  obtain ⟨c, x, y, rfl, atCondition, atThen, atElse⟩ := standFor_three standFor
  obtain ⟨out, isOut, rfl⟩ := Option.map_eq_some_iff.mp means
  refine ⟨out, rfl, ?_⟩
  rw [Ng.eval, atCondition, atThen, atElse]
  exact isOut

omit [Inhabited V] in
theorem length_of_unary {f : Tensor V → Tensor V}
    {values outs : List (Tensor V)}
    (means : unaryMeaning f op values = some outs) : values.length = 1 := by
  match values, means with
  | [_], _ => rfl

omit [Inhabited V] in
theorem length_of_binary {f : Tensor V → Tensor V → Option (Tensor V)}
    {values outs : List (Tensor V)}
    (means : binaryMeaning f op values = some outs) : values.length = 2 := by
  match values, means with
  | [_, _], _ => rfl

theorem length_of_select {isTrue : V → Bool} {values outs : List (Tensor V)}
    (means : selectMeaning isTrue op values = some outs) :
    values.length = 3 := by
  match values, means with
  | [_, _, _], _ => rfl

theorem total_identity :
    TotalTranslator library args (unaryMeaning id) static_input_map op
    translateIdentityOp := by
  intro ng_op_map values outs supplied stored means
  have isCount := supplied.length.symm.trans (length_of_unary means)
  obtain ⟨node, found⟩ := stored 0 (isCount.symm ▸ Nat.one_pos)
  refine ⟨saveNgOp ng_op_map op.name node, ?_⟩
  rw [translateIdentityOp, getInputNodes_one isCount found]
  rfl

theorem sound_noOp :
    SoundTranslator library args noOpMeaning static_input_map op
      translateNoOp := by
  intro ng_op_map after values outs _ means success
  obtain rfl := Except.ok.inj success
  match values, means with
  | [], means =>
      obtain rfl := Option.some.inj means
      exact ⟨[], rfl, .nil⟩

theorem total_noOp :
    TotalTranslator library args noOpMeaning static_input_map op
      translateNoOp :=
  fun ng_op_map _ _ _ _ _ => ⟨ng_op_map, rfl⟩

end Known

section AddN

variable {V : Type} [Inhabited V] {opset : Opset} {library : Library V opset}
  {args : Nat → Tensor V} {static_input_map : StaticInputMap} {op : OpNode}

theorem binary_same (f : V → V → V) {left right : Tensor V}
    (same : right.shape = left.shape) :
    Tensor.binary f left right =
      some (ofFn left.shape fun index =>
        f (left.get index) (right.get index)) := by
  have ranks : left.rank = right.rank := by rw [Tensor.rank, Tensor.rank, same]
  rw [binary_eq ranks, same, stretchAll_self, Option.map_some]
  congr 1
  apply ofFn_congr
  intro index valid
  rw [clip_valid valid]

theorem ofFn_get (tensor : Tensor V) : ofFn tensor.shape tensor.get = tensor :=
  Tensor.ext rfl fun _ valid => get_ofFn _ valid

/-- The sum is built node by node. -/
theorem accumulate_eval {sum : Ng} {nodes : List Ng} {total : Tensor V}
    {values : List (Tensor V)} (atSum : sum.eval library args = some total)
    (standFor : StandFor library args nodes values)
    (same : ∀ value ∈ values, value.shape = total.shape) :
    ∃ node, accumulate opset sum nodes = .ok node ∧ node.eval library args =
      some (ofFn total.shape fun index =>
        values.foldl (fun sum value => library.add sum (value.get index))
          (total.get index)) := by
  induction standFor generalizing sum total with
  | nil => exact ⟨sum, rfl, atSum.trans (congrArg some (ofFn_get total).symm)⟩
  | @cons node value nodes values atNode _ ih =>
      have added : (Ng.Add sum node).eval library args =
          some (ofFn total.shape fun index =>
            library.add (total.get index) (value.get index)) := by
        rw [Ng.eval, atSum, atNode]
        exact binary_same library.add (same value List.mem_cons_self)
      obtain ⟨result, built, evaluates⟩ :=
        ih added fun other member => same other (List.mem_cons_of_mem _ member)
      refine ⟨result, ?_, ?_⟩
      · rw [accumulate]
        simp only [bind, Except.bind, constructNgNode_of_eval added, built]
      · rw [evaluates]
        congr 1
        apply ofFn_congr
        intro index valid
        have valid : Valid total.shape index := valid
        rw [List.foldl_cons, get_ofFn _ valid]

/-- What is stored for a sum of tensors of one shape. -/
theorem translateAddNOp_stores {ng_op_map : OpMap}
    {nodes : Fin op.inputs.length → Ng} {values outs : List (Tensor V)}
    (found : ∀ i : Fin op.inputs.length,
      getInputNode ng_op_map op i = .ok (nodes i))
    (standFor : StandFor library args (List.ofFn nodes) values)
    (means : addNMeaning library.add op values = some outs) :
    ∃ node, translateAddNOp opset op static_input_map ng_op_map =
      .ok (saveNgOp ng_op_map op.name node) ∧
      StandFor library args [node] outs := by
  have inputs : getInputNodesFrom ng_op_map op 0 op.inputs.length =
      .ok nodes := by
    apply getInputNodesFrom_ok
    intro i
    rw [Nat.zero_add]
    exact found i
  rw [translateAddNOp]
  simp only [bind, Except.bind, inputs]
  revert standFor
  generalize List.ofFn nodes = list
  intro standFor
  cases standFor with
  | nil => exact absurd means (by simp [addNMeaning])
  | @cons first total others rest atFirst atOthers =>
      rw [addNMeaning] at means
      split at means
      next same =>
        obtain rfl := Option.some.inj means
        have shapes : ∀ value ∈ rest, value.shape = total.shape := by
          intro value member
          exact of_decide_eq_true (List.all_eq_true.mp same value member)
        obtain ⟨node, built, evaluates⟩ :=
          accumulate_eval atFirst atOthers shapes
        refine ⟨node, ?_, .cons evaluates .nil⟩
        simp only [built]
      next => exact absurd means (by simp)

theorem sound_addN :
    SoundTranslator library args (addNMeaning library.add) static_input_map op
    (translateAddNOp opset) := by
  intro ng_op_map after values outs supplied means success
  obtain ⟨nodes, inputs, _⟩ := bind_ok success
  have found : ∀ i : Fin op.inputs.length,
      getInputNode ng_op_map op i = .ok (nodes i) := by
    intro i
    have here := getInputNodesFrom_inv inputs i
    rw [Nat.zero_add] at here
    exact here
  obtain ⟨node, stores, standFor⟩ := translateAddNOp_stores found
    (supplied.standFor rfl found) means
  rw [stores] at success
  exact ⟨[node], (Except.ok.inj success).symm, standFor⟩

theorem total_addN :
    TotalTranslator library args (addNMeaning library.add) static_input_map op
    (translateAddNOp opset) := by
  intro ng_op_map values outs supplied stored means
  obtain ⟨nodes, found⟩ := exists_nodes stored
  obtain ⟨node, stores, _⟩ := translateAddNOp_stores found
    (supplied.standFor rfl found) means
  exact ⟨_, stores⟩

end AddN

section Unpack

variable {V : Type} [Inhabited V] {opset : Opset} {library : Library V opset}
  {args : Nat → Tensor V} {static_input_map : StaticInputMap} {op : OpNode}
  {data : Ng} {shape : Shape} {axis num : Nat}

theorem unpackOutputs_saves {op_name : String} {i count : Nat}
    {ng_op_map : OpMap} (isShape : data.shape opset = some shape)
    (isNum : shape[axis]? = some num) (inside : i + count ≤ num) :
    unpackOutputs opset op_name data shape.length axis i count ng_op_map =
      .ok (((List.range' i count).map (entrySlice data shape.length axis)).foldl
        (saveNgOp · op_name) ng_op_map) := by
  induction count generalizing i ng_op_map with
  | zero => rfl
  | succ count ih =>
      have below : axis < shape.length := (List.getElem?_eq_some_iff.mp isNum).1
      have built := constructNgNode_ok
        (entrySlice_shape isShape isNum (by omega : i < num))
      rw [unpackOutputs, unpackSlice_eq below]
      simp only [bind, Except.bind, built]
      rw [ih (by omega), List.range'_succ, List.map_cons, List.foldl_cons]

/-- The axis of an op that is unpacked where the op has a meaning. -/
theorem unpackMeaning_inv {values outs : List (Tensor V)}
    (means : unpackMeaning op values = some outs) :
    ∃ x axis num, values = [x] ∧ getNodeAttrInt op.attrs "axis" = .ok axis ∧
      getNodeAttrInt op.attrs "num" = .ok (Int.ofNat num) ∧
      -(x.rank : Int) ≤ axis ∧ axis < x.rank ∧
      x.shape[splitAxis axis x.rank]? = some num ∧
      outs = (List.range num).map fun i =>
        x.entry (splitAxis axis x.rank) i := by
  match values, means with
  | [x], means =>
      rw [unpackMeaning] at means
      cases hasAxis : getNodeAttrInt op.attrs "axis" with
      | error error =>
          rw [hasAxis] at means
          exact absurd means (by simp)
      | ok axis =>
          cases hasNum : getNodeAttrInt op.attrs "num" with
          | error error =>
              rw [hasAxis, hasNum] at means
              exact absurd means (by simp)
          | ok num =>
              rw [hasAxis, hasNum] at means
              dsimp only at means
              split at means
              next fits =>
                obtain ⟨above, below, counted⟩ := fits
                obtain ⟨found, atAxis, rfl⟩ := Option.map_eq_some_iff.mp counted
                exact ⟨x, axis, found, rfl, rfl, rfl, above, below, atAxis,
                  (Option.some.inj means).symm⟩
              next => exact absurd means (by simp)

theorem unpackInputs_of_means {ng_op_map : OpMap} {node : Ng} {x : Tensor V}
    {axis : Int} (isCount : op.inputs.length = 1)
    (found : getInputNode ng_op_map op 0 = .ok node)
    (evaluates : node.eval library args = some x)
    (hasAxis : getNodeAttrInt op.attrs "axis" = .ok axis)
    (hasNum : getNodeAttrInt op.attrs "num" = .ok (Int.ofNat num))
    (above : -(x.rank : Int) ≤ axis) (below : axis < x.rank)
    (atAxis : x.shape[splitAxis axis x.rank]? = some num) :
    UnpackInputs opset op ng_op_map node x.shape axis num :=
  ⟨isCount, found, hasAxis, hasNum, eval_shape evaluates, above, below, atAxis⟩

theorem standFor_entries {x : Tensor V}
    (evaluates : data.eval library args = some x)
    (atAxis : x.shape[axis]? = some num) :
    StandFor library args
      ((List.range' 0 num).map (entrySlice data x.shape.length axis))
      ((List.range num).map fun i => x.entry axis i) := by
  rw [← List.range_eq_range', StandFor, List.forall₂_map_left_iff,
    List.forall₂_map_right_iff, List.forall₂_same]
  intro i member
  exact entrySlice_eval (eval_shape evaluates) atAxis
    (List.mem_range.mp member) evaluates

theorem splitAxis_of_nonneg (place : Nat) (rank : Nat) :
    splitAxis place rank = place := by
  rw [splitAxis, if_neg (by omega), Int.toNat_natCast]

theorem translateUnpackOp_stores {ng_op_map : OpMap} {node : Ng} {x : Tensor V}
    {outs : List (Tensor V)} (isCount : op.inputs.length = 1)
    (found : getInputNode ng_op_map op 0 = .ok node)
    (evaluates : node.eval library args = some x)
    (means : unpackMeaning op [x] = some outs)
    (front : ∀ axis, getNodeAttrInt op.attrs "axis" = .ok axis → 0 ≤ axis) :
    ∃ nodes, translateUnpackOp opset op ng_op_map =
      .ok (nodes.foldl (saveNgOp · op.name) ng_op_map) ∧
      StandFor library args nodes outs := by
  obtain ⟨y, axis, num, same, hasAxis, hasNum, above, below, atAxis, rfl⟩ :=
    unpackMeaning_inv means
  obtain rfl := List.singleton_inj.mp same
  have inputs :=
    unpackInputs_of_means isCount found evaluates hasAxis hasNum above
      below atAxis
  obtain ⟨place, rfl⟩ := Int.eq_ofNat_of_zero_le (front axis hasAxis)
  rw [splitAxis_of_nonneg] at atAxis ⊢
  refine ⟨_, ?_, standFor_entries evaluates atAxis⟩
  rw [inputs.translate]
  exact unpackOutputs_saves (eval_shape evaluates) atAxis (by omega)

theorem translateUnpackOp_back {ng_op_map after : OpMap} {node : Ng}
    {axis : Int} (inputs : UnpackInputs opset op ng_op_map node shape axis num)
    (back : axis < 0)
    (success : translateUnpackOp opset op ng_op_map = .ok after) : num = 0 ∧
    after = ng_op_map := by
  rw [inputs.translate] at success
  cases num with
  | zero => exact ⟨rfl, (Except.ok.inj success).symm⟩
  | succ count =>
      rw [unpackOutputs, unpackSlice_negative back] at success
      exact absurd success (by simp [bind, Except.bind])

theorem sound_unpack :
    SoundTranslator library args unpackMeaning static_input_map op
    (plain translateUnpackOp opset) := by
  intro ng_op_map after values outs supplied means success
  have success : translateUnpackOp opset op ng_op_map = .ok after := success
  obtain ⟨x, axis, num, rfl, hasAxis, hasNum, above, below, atAxis, isOuts⟩ :=
    unpackMeaning_inv means
  have isCount : op.inputs.length = 1 := supplied.length.symm
  obtain ⟨_, _, inner⟩ := bind_ok success
  obtain ⟨node, found, _⟩ := bind_ok inner
  obtain ⟨value, isValue, evaluates⟩ := supplied.node 0 node found
  obtain rfl := Option.some.inj isValue
  by_cases front : 0 ≤ axis
  · have isFront : ∀ other, getNodeAttrInt op.attrs "axis" = .ok other →
        0 ≤ other := by
      intro other hasOther
      rw [hasAxis] at hasOther
      rw [← Except.ok.inj hasOther]
      exact front
    obtain ⟨nodes, stores, standFor⟩ :=
      translateUnpackOp_stores isCount found evaluates means isFront
    rw [stores] at success
    exact ⟨nodes, (Except.ok.inj success).symm, standFor⟩
  · have inputs :=
      unpackInputs_of_means isCount found evaluates hasAxis hasNum above
        below atAxis
    obtain ⟨rfl, rfl⟩ :=
      translateUnpackOp_back inputs (Int.not_le.mp front) success
    rw [isOuts]
    exact ⟨[], rfl, .nil⟩

theorem total_unpack
    (front : ∀ axis, getNodeAttrInt op.attrs "axis" = .ok axis → 0 ≤ axis) :
    TotalTranslator library args unpackMeaning static_input_map op
      (plain translateUnpackOp opset) := by
  intro ng_op_map values outs supplied stored means
  obtain ⟨x, _, _, rfl, _⟩ := unpackMeaning_inv means
  have isCount : op.inputs.length = 1 := supplied.length.symm
  obtain ⟨node, found⟩ := stored 0 (isCount.symm ▸ Nat.one_pos)
  obtain ⟨value, isValue, evaluates⟩ := supplied.node 0 node found
  obtain rfl := Option.some.inj isValue
  obtain ⟨nodes, stores, _⟩ :=
    translateUnpackOp_stores isCount found evaluates means front
  exact ⟨_, stores⟩

end Unpack

section Graphs

variable {V : Type} [Inhabited V] {opset : Opset} {library : Library V opset}
  {args : Nat → Tensor V} {static_input_map : StaticInputMap}
  {others : String → Translator} {op : OpNode}

/-- `Unpack` writes the axis as it is given. -/
def AxisInFront (op : OpNode) : Prop :=
  op.type_string = "Unpack" →
    ∀ axis, getNodeAttrInt op.attrs "axis" = .ok axis → 0 ≤ axis

theorem builds_relu :
    BuildsMeaning library args (unaryMeaning (Tensor.map library.relu)) op
    fun inputs : Fin 1 → Ng => .Relu (inputs 0) := by
  refine @builds_unary _ _ _ _ _ _ Ng.Relu _ ?_
  intro node x evaluates
  rw [Ng.eval, evaluates]
  rfl

theorem builds_relu6 :
    BuildsMeaning library args
      (unaryMeaning (Tensor.map (library.clamp 0 6))) op
    fun inputs : Fin 1 → Ng => .Clamp (inputs 0) 0 6 := by
  refine @builds_unary _ _ _ _ _ _ (Ng.Clamp · 0 6) _ ?_
  intro node x evaluates
  rw [Ng.eval, evaluates]
  rfl

theorem builds_add :
    BuildsMeaning library args (binaryMeaning (Tensor.binary library.add)) op
    fun inputs : Fin 2 → Ng => .Add (inputs 0) (inputs 1) := by
  refine @builds_binary _ _ _ _ _ _ Ng.Add _ ?_
  intro left right x y atLeft atRight
  rw [Ng.eval, atLeft, atRight]
  rfl

theorem knownOps_sound : ∀ known ∈ knownOps library,
    SoundTranslator library args known.meaning static_input_map op
      known.op_fun := by
  simp only [knownOps, List.forall_mem_cons]
  exact ⟨sound_identity, sound_identity, sound_identity,
    sound_translateWith builds_relu, sound_translateWith builds_relu6,
    sound_translateWith builds_add, sound_translateWith builds_add, sound_addN,
    sound_translateWith builds_select, sound_unpack, sound_noOp,
    List.forall_mem_nil _⟩

theorem knownOps_total : ∀ known ∈ knownOps library,
    (known.type_string = "Unpack" →
      ∀ axis, getNodeAttrInt op.attrs "axis" = .ok axis → 0 ≤ axis) →
    TotalTranslator library args known.meaning static_input_map op
      known.op_fun := by
  have unary := fun (f : Tensor V → Tensor V) values outs =>
    @length_of_unary V op f values outs
  have binary :=
    fun (f : Tensor V → Tensor V → Option (Tensor V)) values outs =>
    @length_of_binary V op f values outs
  simp only [knownOps, List.forall_mem_cons]
  exact ⟨fun _ => total_identity, fun _ => total_identity,
    fun _ => total_identity,
    fun _ => total_translateWith builds_relu (unary _),
    fun _ => total_translateWith builds_relu6 (unary _),
    fun _ => total_translateWith builds_add (binary _),
    fun _ => total_translateWith builds_add (binary _), fun _ => total_addN,
    fun _ => total_translateWith builds_select fun _ _ means =>
      length_of_select means,
    fun front => total_unpack (front trivial), fun _ => total_noOp,
    List.forall_mem_nil _⟩

/-- Where an op has a known meaning, its translator is the one beside it. -/
theorem knownMeaning_inv {values outs : List (Tensor V)}
    (means : knownMeaning library op values = some outs) :
    ∃ known ∈ knownOps library, known.type_string = op.type_string ∧
      known.meaning op values = some outs ∧
      translateOpMap opset others op.type_string = some known.op_fun := by
  obtain ⟨known, found, means⟩ := Option.bind_eq_some_iff.mp means
  have member := List.mem_of_find?_eq_some found
  have holds := List.find?_some found
  have same : known.type_string = op.type_string := of_decide_eq_true holds
  exact ⟨known, member, same, means,
    same ▸ knownOps_registered library others known member⟩

theorem knownMeaning_sound {op_fun : Translator}
    (handler : translateOpMap opset others op.type_string = some op_fun) :
    SoundTranslator library args (knownMeaning library) static_input_map op
      op_fun := by
  intro ng_op_map after values outs supplied means success
  obtain ⟨known, member, _, means, registered⟩ :=
    @knownMeaning_inv _ _ _ _ others _ _ _ means
  rw [handler] at registered
  obtain rfl := Option.some.inj registered
  exact knownOps_sound known member ng_op_map after values outs supplied
    means success

theorem knownMeaning_handled (front : AxisInFront op)
    {values outs : List (Tensor V)}
    (means : knownMeaning library op values = some outs) :
    Handled library args (knownMeaning library) (translateOpMap opset others)
      static_input_map op := by
  obtain ⟨known, member, same, _, registered⟩ :=
    @knownMeaning_inv _ _ _ _ others _ _ _ means
  refine ⟨known.op_fun, registered, ?_⟩
  intro ng_op_map otherValues otherOuts supplied stored otherMeans
  obtain ⟨other, otherMember, sameOther, otherMeans, otherRegistered⟩ :=
    @knownMeaning_inv _ _ _ _ others _ _ _ otherMeans
  rw [registered] at otherRegistered
  rw [Option.some.inj otherRegistered]
  exact knownOps_total other otherMember
    (fun isUnpack => front (sameOther ▸ isUnpack)) ng_op_map
    otherValues otherOuts supplied stored otherMeans

variable {arguments : List (Tensor V)} {val : NodeValues V}
  {texts : DebugStrings} {ordered : List GraphNode} {name : String}

/-- A graph of ops with a known meaning is translated if and only if it is well
formed, and the function returns the tensors of the graph. -/
theorem translateNodes_known (distinct : (ordered.map fun n => n.op.name).Nodup)
    (evaluates : EvaluatesParts (knownMeaning library) arguments val
      (partsOf ordered))
    (current : ∀ op ∈ (partsOf ordered).tf_ops,
      StaticsCurrent library.toIndex val static_input_map op)
    (front : ∀ op ∈ (partsOf ordered).tf_ops, AxisInFront op)
    (before : StraightLine.Ordered visits
      ((partsOf ordered).tf_params.map OpNode.name)
      (partsOf ordered).tf_ops) :
    ((∃ func, translateNodes texts (translateOpMap opset others)
        (shapesOf arguments) static_input_map ordered name = .ok func) ↔
      NoControlFlow ordered ∧ WellFormedParts val (partsOf ordered)) ∧
    ∀ func, translateNodes texts (translateOpMap opset others)
      (shapesOf arguments) static_input_map ordered name = .ok func →
      ReturnsValues library arguments val (partsOf ordered) func := by
  have sound : ∀ op ∈ (partsOf ordered).tf_ops, HandledSoundly library arguments
      (knownMeaning library) val (translateOpMap opset others)
      static_input_map op :=
    fun op member =>
      ⟨current op member, fun _ handler => knownMeaning_sound handler⟩
  constructor
  · apply translateNodes_ok_iff distinct evaluates sound _ before
    intro op member
    obtain ⟨values, _, means⟩ := evaluates.op op member
    exact knownMeaning_handled (front op member) means
  · intro func success
    obtain ⟨params, ng_op_map, results, built⟩ := translateNodes_iff.mp success
    exact built.returnsValues distinct evaluates sound

end Graphs

def integers : Library Int noRules :=
  { defaultLibrary Int noRules with
    add := fun x y => x + y
    relu := fun x => max 0 x }

/-- Both the sum of the arguments and what is positive of it are returned. -/
def sumGraph : List GraphNode := [
  ⟨0, plainNode "_SOURCE" "NoOp" []⟩,
  ⟨3, argNode "y" 1⟩,
  ⟨2, argNode "x" 0⟩,
  ⟨4, plainNode "sum" "AddN"
    [inputNode "x" "_Arg", inputNode "y" "_Arg", inputNode "x" "_Arg"]⟩,
  ⟨7, retvalNode "second" 1 (inputNode "sum" "AddN")⟩,
  ⟨5, plainNode "act" "Relu" [inputNode "sum" "AddN"]⟩,
  ⟨6, retvalNode "first" 0 (inputNode "act" "Relu")⟩,
  ⟨1, plainNode "_SINK" "NoOp" []⟩]

def sumValues : NodeValues Int := fun name =>
  if name = "x" then [vector [1, -4]]
  else if name = "y" then [vector [2, 3]]
  else if name = "sum" then [vector [4, -5]]
  else if name = "act" then [vector [4, 0]]
  else []

theorem sumGraph_parts : partsOf sumGraph =
    ⟨[argNode "y" 1, argNode "x" 0],
      [retvalNode "second" 1 (inputNode "sum" "AddN"),
        retvalNode "first" 0 (inputNode "act" "Relu")],
      [plainNode "sum" "AddN"
        [inputNode "x" "_Arg", inputNode "y" "_Arg", inputNode "x" "_Arg"],
        plainNode "act" "Relu" [inputNode "sum" "AddN"]]⟩ := rfl

theorem sumGraph_evaluates : EvaluatesParts (knownMeaning integers)
    [vector [1, -4], vector [2, 3]] sumValues (partsOf sumGraph) := by
  rw [sumGraph_parts]
  constructor
  · simp only [List.forall_mem_cons]
    refine ⟨?_, ?_, List.forall_mem_nil _⟩
    · intro index hasIndex
      obtain rfl : 1 = index := Int.ofNat_inj.mp (Except.ok.inj hasIndex)
      exact ⟨vector [2, 3], rfl, rfl⟩
    · intro index hasIndex
      obtain rfl : 0 = index := Int.ofNat_inj.mp (Except.ok.inj hasIndex)
      exact ⟨vector [1, -4], rfl, rfl⟩
  · simp only [List.forall_mem_cons]
    exact ⟨⟨[vector [1, -4], vector [2, 3], vector [1, -4]], rfl, rfl⟩,
      ⟨[vector [4, -5]], rfl, rfl⟩, List.forall_mem_nil _⟩

theorem sumGraph_wellFormed : WellFormedParts sumValues (partsOf sumGraph) := by
  rw [sumGraph_parts]
  constructor
  · exact ⟨[1, 0], .cons rfl (.cons rfl .nil), List.Perm.swap 0 1 []⟩
  · simp only [List.forall_mem_cons]
    exact ⟨⟨.DT_INT32, .i32, rfl, rfl⟩, ⟨.DT_INT32, .i32, rfl, rfl⟩,
      List.forall_mem_nil _⟩
  · exact ⟨[1, 0], .cons rfl (.cons rfl .nil), List.Perm.swap 0 1 []⟩
  · simp only [List.forall_mem_cons]
    exact ⟨⟨_, _, vector [4, -5], rfl, by decide +kernel, rfl⟩,
      ⟨_, _, vector [4, 0], rfl, by decide +kernel, rfl⟩, List.forall_mem_nil _⟩

end NGraphBridge.NGraphBuilder
