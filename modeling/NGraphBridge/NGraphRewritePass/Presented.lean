import NGraphBridge.EncapsulateClusters.Values
import NGraphBridge.NGraphBuilder.OpTable

/-!
# The graph of a cluster, as it is translated

A kernel turns the `GraphDef` of its cluster into a graph and has it translated.
The parts of that graph are an argument for each tensor that the cluster reads,
a result for each tensor that it offers, and the nodes that were put into the
cluster.
-/

namespace NGraphBridge.NGraphRewritePass

open TF MarkForClustering AssignClusters EncapsulateClusters NGraphBuilder

/-- The node that is made for a `NodeDef`; defaults may be added to its
attributes. -/
structure IsNodeOf (node_def : NodeDef) (op : OpNode) : Prop where
  name : op.name = node_def.name
  type : op.type_string = node_def.op
  attr : ∀ key value, node_def.attr.find key = some value →
    op.attrs.find key = some value
  inputs : op.inputs.map (fun input => (input.1.name, (input.2 : Int))) =
    node_def.dataInputs.map parseTensorName

/-- What TensorFlow's `ConvertGraphDefToGraph` and `GetReversePostOrder`
promise: names are unique, every `NodeDef` becomes a node, and the ends of the
edges are nodes. -/
structure Presents (gdef : GraphDef) (ordered : List GraphNode) : Prop where
  distinct : (ordered.map fun n => n.op.name).Nodup
  node : ∀ n ∈ ordered, n.visited = true → ∃ node_def ∈ gdef.node,
    IsNodeOf node_def n.op
  made : ∀ node_def ∈ gdef.node, ∃ n ∈ ordered, n.visited = true ∧
    IsNodeOf node_def n.op
  input : ∀ n ∈ ordered, n.visited = true → ∀ input ∈ n.op.inputs,
    ∃ source ∈ ordered, source.visited = true ∧ source.op.name = input.1.name ∧
      source.op.type_string = input.1.type_string ∧
      source.op.attrs = input.1.attrs

section Attributes

variable {node_def : NodeDef} {op : OpNode}

theorem IsNodeOf.int (isNode : IsNodeOf node_def op) {key : String}
    {value : Int} (found : getNodeAttrInt node_def.attr key = .ok value) :
    getNodeAttrInt op.attrs key = .ok value := by
  unfold getNodeAttrInt at found ⊢
  split at found
  case h_1 other isInt => rw [isNode.attr _ _ isInt, ← found]
  case h_2 => simp at found

theorem IsNodeOf.dtype (isNode : IsNodeOf node_def op) {key : String}
    {value : DataType} (found : getNodeAttrType node_def.attr key = .ok value) :
    getNodeAttrType op.attrs key = .ok value := by
  unfold getNodeAttrType at found ⊢
  split at found
  case h_1 other isType => rw [isNode.attr _ _ isType, ← found]
  case h_2 => simp at found

end Attributes

/-- An op that nGraph is asked for before a node is marked. -/
def HasOpset (type_string : String) : Prop :=
  (TFtoNgraphOpMap.lookup type_string).isSome = true

theorem HasOpset.key {type_string : String} (known : HasOpset type_string) :
    type_string ∈ TFtoNgraphOpMap.map Prod.fst := by
  obtain ⟨ng_ops, found⟩ := Option.isSome_iff_exists.mp known
  by_contra missing
  have absent : TFtoNgraphOpMap.lookup type_string = none := by
    apply List.lookup_eq_none_iff.mpr
    intro entry member
    rw [bne_iff_ne]
    rintro rfl
    exact missing (List.mem_map_of_mem member)
  rw [absent] at found
  exact absurd found (by simp)

theorem HasOpset.plain {n : GraphNode} (known : HasOpset n.op.type_string) :
    n.isControlFlow = false ∧ n.isArg = false ∧ n.isRetval = false := by
  have keys : ∀ key ∈ TFtoNgraphOpMap.map Prod.fst,
      ["Switch", "RefSwitch", "Merge", "RefMerge", "Enter", "RefEnter", "Exit",
        "RefExit", "NextIteration", "RefNextIteration"].contains key = false ∧
      ["_Arg", "_DeviceArg"].contains key = false ∧
      ["_Retval", "_DeviceRetval"].contains key = false := by decide +kernel
  exact keys _ known.key

theorem HasOpset.handler (opset : Opset) (others : String → Translator)
    {type_string : String} (known : HasOpset type_string) :
    ∃ op_fun, translateOpMap opset others type_string = some op_fun := by
  apply handler_registered
  have confirmed : ∀ key ∈ TFtoNgraphOpMap.map Prod.fst,
      key ∈ getConfirmationMap.map Prod.fst := by decide +kernel
  exact confirmed _ known.key

theorem hasOpset_of_supported {backend : Backend} {type_string : String}
    (supported : backend.isSupported type_string = true) :
    HasOpset type_string := by
  unfold Backend.isSupported at supported
  rw [HasOpset]
  split at supported
  case h_1 => exact absurd supported (by simp)
  case h_2 ng_ops found => rw [found, Option.isSome_some]

/-- The graph of a cluster after the analysis of encapsulation. -/
structure Presented (graph : Graph) (order : graph.Enumeration)
    (manager : ClusterManager) (outs : Int → List (Nat × Int))
    (added : Int → List NodeDef) (enc : Encapsulator) (c : Int)
    (ordered : List GraphNode) : Prop where
  analysed : Analysed order manager outs added enc
  encapsulable : Encapsulable manager graph
  known : ∀ node ∈ graph.op_nodes, isClustered node = true →
    HasOpset node.type_string
  presents : Presents ⟨added c⟩ ordered

section Parts

variable {graph : Graph} {order : graph.Enumeration} {manager : ClusterManager}
  {outs : Int → List (Nat × Int)} {added : Int → List NodeDef}
  {enc : Encapsulator} {c : Int} {ordered : List GraphNode}

/-- A node that stands for a tensor that the cluster reads. -/
def IsArgOf (graph : Graph) (enc : Encapsulator) (c : Int) (op : OpNode)
    (k : Nat) : Prop :=
  ∃ input, (enc.cluster_input_map c)[k]? = some input ∧
    IsNodeOf (argDef k k (graph.node input.1) input.2.2) op

/-- A node that stands for a tensor that the cluster offers. -/
def IsRetvalOf (graph : Graph) (outs : Int → List (Nat × Int)) (c : Int)
    (op : OpNode) (k : Nat) : Prop :=
  ∃ output dt, (outs c)[k]? = some output ∧
    IsNodeOf (retvalDef k k (graph.node output.1) output.2 dt) op

/-- A node that was put into the cluster. -/
def IsCopyOf (graph : Graph) (order : graph.Enumeration)
    (enc : Encapsulator) (c : Int) (op : OpNode) (node : Node) : Prop :=
  node ∈ graph.op_nodes ∧ getNodeCluster node = .ok c ∧ ∃ node_def,
    copyDef graph (order.in_edges node.id) enc c node = .ok node_def ∧
    IsNodeOf node_def op

theorem IsArgOf.isArg {n : GraphNode} {k : Nat}
    (isArg : IsArgOf graph enc c n.op k) :
    n.isControlFlow = false ∧ n.isArg = true := by
  obtain ⟨_, _, isNode⟩ := isArg
  have type : n.op.type_string = "_Arg" := isNode.type
  rw [GraphNode.isControlFlow, GraphNode.isArg, type]
  decide

theorem IsRetvalOf.isRetval {n : GraphNode} {k : Nat}
    (isRetval : IsRetvalOf graph outs c n.op k) :
    n.isControlFlow = false ∧ n.isArg = false ∧ n.isRetval = true := by
  obtain ⟨_, _, _, isNode⟩ := isRetval
  have type : n.op.type_string = "_Retval" := isNode.type
  rw [GraphNode.isControlFlow, GraphNode.isArg, GraphNode.isRetval, type]
  decide

theorem copyDef_op {in_edges : List Edge} {node : Node} {node_def : NodeDef}
    (copied : copyDef graph in_edges enc c node = .ok node_def) :
    node_def.name = node.name ∧ node_def.op = node.type_string := by
  obtain ⟨_, _, copied⟩ := bind_ok copied
  obtain rfl := Except.ok.inj copied
  exact ⟨rfl, rfl⟩

theorem Presented.isOp
    (presented : Presented graph order manager outs added enc c ordered)
    {n : GraphNode} {node : Node}
    (isCopy : IsCopyOf graph order enc c n.op node) :
    HasOpset n.op.type_string ∧ n.op.name = node.name := by
  obtain ⟨member, inCluster, node_def, copied, isNode⟩ := isCopy
  obtain ⟨name, op⟩ := copyDef_op copied
  rw [isNode.type, op, isNode.name, name]
  exact ⟨presented.known node member (clusterIdx_of inCluster).1, rfl⟩

/-- What the nodes stand for. -/
theorem Presented.cases
    (presented : Presented graph order manager outs added enc c ordered)
    {n : GraphNode} (member : n ∈ ordered) (visited : n.visited = true) :
    (∃ k, IsArgOf graph enc c n.op k) ∨ (∃ k, IsRetvalOf graph outs c n.op k) ∨
      ∃ node, IsCopyOf graph order enc c n.op node := by
  obtain ⟨node_def, inDef, isNode⟩ := presented.presents.node n member visited
  cases (presented.analysed.defs c node_def).mp inDef with
  | inl border =>
      cases border with
      | inl argument =>
          obtain ⟨k, input, atK, rfl⟩ := argument
          exact .inl ⟨k, input, atK, isNode⟩
      | inr retval =>
          obtain ⟨k, output, dt, atK, _, rfl⟩ := retval
          exact .inr (.inl ⟨k, output, dt, atK, isNode⟩)
  | inr copy =>
      obtain ⟨node, nodeOp, inCluster, copied⟩ := copy
      exact .inr (.inr ⟨node, nodeOp, inCluster, node_def, copied, isNode⟩)

theorem Presented.noControlFlow
    (presented : Presented graph order manager outs added enc c ordered) :
    NoControlFlow ordered := by
  intro n member visited
  rcases presented.cases member visited
    with ⟨_, isArg⟩ | ⟨_, isRetval⟩ | ⟨_, isCopy⟩
  · exact isArg.isArg.1
  · exact isRetval.isRetval.1
  · exact (presented.isOp isCopy).1.plain.1

theorem Presented.params
    (presented : Presented graph order manager outs added enc c ordered)
    {op : OpNode} (member : op ∈ (partsOf ordered).tf_params) :
    ∃ k, IsArgOf graph enc c op k := by
  obtain ⟨n, inOrdered, visited, isArg, rfl⟩ := partsOf_mem.1.mp member
  rcases presented.cases inOrdered visited
    with found | ⟨_, isRetval⟩ | ⟨_, isCopy⟩
  · exact found
  · exact absurd (isRetval.isRetval.2.1.symm.trans isArg) Bool.false_ne_true
  · exact absurd ((presented.isOp isCopy).1.plain.2.1.symm.trans isArg)
      Bool.false_ne_true

theorem Presented.ops
    (presented : Presented graph order manager outs added enc c ordered)
    {op : OpNode} (member : op ∈ (partsOf ordered).tf_ops) :
    HasOpset op.type_string ∧ ∃ node, IsCopyOf graph order enc c op node := by
  obtain ⟨n, inOrdered, visited, notArg, notRetval, rfl⟩ :=
    partsOf_mem.2.1.mp member
  rcases presented.cases inOrdered visited
    with ⟨_, isArg⟩ | ⟨_, isRetval⟩ | ⟨node, isCopy⟩
  · exact absurd (notArg.symm.trans isArg.isArg.2) Bool.false_ne_true
  · exact absurd (notRetval.symm.trans isRetval.isRetval.2.2) Bool.false_ne_true
  · exact ⟨(presented.isOp isCopy).1, node, isCopy⟩

theorem Presented.paramAt
    (presented : Presented graph order manager outs added enc c ordered)
    {k : Nat} {input : Nat × Int × DataType}
    (atK : (enc.cluster_input_map c)[k]? = some input) :
    ∃ op ∈ (partsOf ordered).tf_params, op.name = inputName k := by
  have inDef := (presented.analysed.defs c _).mpr
    (.inl (.inl ⟨k, input, atK, rfl⟩))
  obtain ⟨n, member, visited, isNode⟩ := presented.presents.made _ inDef
  have isArg : IsArgOf graph enc c n.op k := ⟨input, atK, isNode⟩
  exact ⟨n.op, partsOf_mem.1.mpr ⟨n, member, visited, isArg.isArg.2, rfl⟩,
    isNode.name⟩

theorem Presented.opAt
    (presented : Presented graph order manager outs added enc c ordered)
    {node : Node} (member : node ∈ graph.op_nodes)
    (inCluster : getNodeCluster node = .ok c) :
    ∃ op ∈ (partsOf ordered).tf_ops, op.name = node.name := by
  obtain ⟨node_def, copied⟩ := presented.analysed.copies node member c inCluster
  have inDef := (presented.analysed.defs c node_def).mpr
    (.inr ⟨node, member, inCluster, copied⟩)
  obtain ⟨n, inOrdered, visited, isNode⟩ := presented.presents.made _ inDef
  obtain ⟨known, named⟩ :=
    presented.isOp ⟨member, inCluster, node_def, copied, isNode⟩
  obtain ⟨_, notArg, notRetval⟩ := known.plain
  exact ⟨n.op, partsOf_mem.2.1.mpr
    ⟨n, inOrdered, visited, notArg, notRetval, rfl⟩, named⟩

theorem IsArgOf.index {op : OpNode} {k : Nat}
    (isArg : IsArgOf graph enc c op k) :
    op.name = inputName k ∧ getNodeAttrInt op.attrs "index" = .ok
      (k : Int) := by
  obtain ⟨_, _, isNode⟩ := isArg
  exact ⟨isNode.name, isNode.int rfl⟩

theorem IsArgOf.input {op : OpNode} {k : Nat}
    (isArg : IsArgOf graph enc c op k) :
    ∃ tensor, (enc.inputsOf c)[k]? = some tensor := by
  obtain ⟨input, atK, _⟩ := isArg
  refine ⟨(input.1, input.2.1), ?_⟩
  rw [Encapsulator.inputsOf, List.getElem?_map, atK]
  rfl

theorem IsCopyOf.name {op : OpNode} {node : Node}
    (isCopy : IsCopyOf graph order enc c op node) :
    op.name = node.name := by
  obtain ⟨_, _, node_def, copied, isNode⟩ := isCopy
  exact isNode.name.trans (copyDef_op copied).1

theorem IsRetvalOf.index {op : OpNode} {k : Nat}
    (isRetval : IsRetvalOf graph outs c op k) :
    op.name = outputName k ∧ getNodeAttrInt op.attrs "index" = .ok
      (k : Int) := by
  obtain ⟨_, _, _, isNode⟩ := isRetval
  exact ⟨isNode.name, isNode.int rfl⟩

theorem IsArgOf.inside {op : OpNode} {k : Nat}
    (isArg : IsArgOf graph enc c op k) :
    k < (enc.cluster_input_map c).length := by
  obtain ⟨_, atK, _⟩ := isArg
  exact (List.getElem?_eq_some_iff.mp atK).1

theorem IsRetvalOf.inside {op : OpNode} {k : Nat}
    (isRetval : IsRetvalOf graph outs c op k) :
    k < (outs c).length := by
  obtain ⟨_, _, atK, _⟩ := isRetval
  exact (List.getElem?_eq_some_iff.mp atK).1

/-- The indices of the arguments are those of the inputs of the encapsulate
node. -/
theorem Presented.paramIndices
    (presented : Presented graph order manager outs added enc c ordered) :
    Indexed (partsOf ordered).tf_params ∧
      (partsOf ordered).tf_params.length = (enc.inputsOf c).length := by
  obtain ⟨indices, each, perm⟩ := Slots.exists_indices
    (R := fun op (index : Nat) => getNodeAttrInt op.attrs "index" =
      .ok (index : Int))
    (partsOf_distinct presented.presents.distinct).1
    (fun _ _ same => inputName_injective same)
    (fun op member => by
      obtain ⟨k, isArg⟩ := presented.params member
      exact ⟨k, isArg.inside, isArg.index⟩)
    (fun k inside => presented.paramAt (List.getElem?_eq_getElem inside))
  have count := perm.length_eq
  rw [List.length_range] at count
  rw [← count] at perm
  refine ⟨⟨indices, each, perm⟩, ?_⟩
  rw [each.length_eq, count, Encapsulator.inputsOf, List.length_map]

end Parts

end NGraphBridge.NGraphRewritePass
