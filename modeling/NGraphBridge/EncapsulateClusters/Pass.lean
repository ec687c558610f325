import NGraphBridge.AssignClusters.Pass
import NGraphBridge.TF.GraphEdit

/-!
# The encapsulation pass

Every cluster becomes one `_nGraphEncapsulate` node.  The analysis numbers the
tensors that cross the border of a cluster and copies its nodes into its
`GraphDef`; the rewrite puts the new nodes in and takes the clustered nodes out.
-/

namespace NGraphBridge.EncapsulateClusters

open TF MarkForClustering AssignClusters

/-- `GetNodeCluster` writes -1 for a node without a cluster. -/
def clusterIdx (node : Node) : Int :=
  match getNodeCluster node with
  | .ok cluster_idx => cluster_idx
  | .error _ => -1

def isClustered (node : Node) : Bool :=
  match getNodeCluster node with
  | .ok _ => true
  | .error _ => false

/-- `map[cluster_idx].push_back(entry)`. -/
def pushBack {α : Type} (map : Int → List α) (cluster_idx : Int) (entry : α) :
    Int → List α :=
  Function.update map cluster_idx (map cluster_idx ++ [entry])

section PushBack

variable {α : Type} {map : Int → List α} {cluster_idx other : Int}
  {entry found : α}

theorem getElem?_pushBack {position : Nat} :
    (pushBack map cluster_idx entry other)[position]? = some found ↔
      (map other)[position]? = some found ∨
        (other = cluster_idx ∧ position = (map cluster_idx).length ∧
          entry = found) := by
  by_cases same : other = cluster_idx
  · subst same
    rw [pushBack, Function.update_self, List.getElem?_append]
    split
    case isTrue inside => simp [inside.ne]
    case isFalse outside =>
      have past : (map other).length ≤ position := by omega
      rw [List.getElem?_eq_none past, List.getElem?_singleton]
      simp only [reduceCtorEq, false_or, true_and]
      split
      case isTrue atEnd =>
        rw [Option.some.injEq]
        exact ⟨fun equal => ⟨by omega, equal⟩, fun both => both.2⟩
      case isFalse notEnd =>
        simp only [reduceCtorEq, false_iff, not_and]
        omega
  · simp [pushBack, same]

theorem mem_pushBack :
    found ∈ pushBack map cluster_idx entry other ↔
      found ∈ map other ∨ (other = cluster_idx ∧ found = entry) := by
  by_cases same : other = cluster_idx
  · subst same
    simp [pushBack]
  · simp [pushBack, same]

theorem length_pushBack :
    (pushBack map cluster_idx entry other).length =
      (map other).length + if other = cluster_idx then 1 else 0 := by
  by_cases same : other = cluster_idx
  · subst same
    simp [pushBack]
  · simp [pushBack, same]

end PushBack

/-- `Encapsulator`, with the counters of its analysis and the clusters it writes
to. -/
structure Encapsulator where
  device_name_map : List (Int × String)
  output_remap_map : Nat × Int → Option (Int × Nat)
  input_remap_map : Int × Nat × Int → Option Nat
  input_rename_map : Int × String × Int → Option String
  cluster_input_map : Int → List (Nat × Int × DataType)
  cluster_output_dt_map : Int → List DataType
  retval_index_count : Int → Nat
  arg_index_count : Int → Nat
  manager : ClusterManager

namespace Encapsulator

def init (manager : ClusterManager) : Encapsulator where
  device_name_map := []
  output_remap_map := fun _ => none
  input_remap_map := fun _ => none
  input_rename_map := fun _ => none
  cluster_input_map := fun _ => []
  cluster_output_dt_map := fun _ => []
  retval_index_count := fun _ => 0
  arg_index_count := fun _ => 0
  manager := manager

/-- `GetClusterGraph(cluster_idx)->add_node()`. -/
def addNodeDef (enc : Encapsulator) (cluster_idx : Int) (node_def : NodeDef) :
    StatusOr Encapsulator :=
  match enc.manager.getClusterGraph cluster_idx with
  | none => .error (errors.check "GetClusterGraph returned nullptr")
  | some _ => .ok { enc with
      manager := enc.manager.updateClusterGraph cluster_idx
        (·.add_node node_def) }

/-- The tensors that a cluster reads, by position. -/
def inputsOf (enc : Encapsulator) (cluster_idx : Int) : List (Nat × Int) :=
  (enc.cluster_input_map cluster_idx).map (fun input => (input.1, input.2.1))

end Encapsulator

/-- The entries of a `std::map` are ordered by key. -/
def insertDevice (cluster_idx : Int) (device : String) :
    List (Int × String) → List (Int × String)
  | [] => [(cluster_idx, device)]
  | entry :: entries =>
      if cluster_idx < entry.1 then (cluster_idx, device) :: entry :: entries
      else entry :: insertDevice cluster_idx device entries

/-- Pass 1: the device of each cluster. -/
def recordDevice (node : Node) (device_name_map : List (Int × String)) :
    StatusOr (List (Int × String)) :=
  match getNodeCluster node with
  | .error _ => .ok device_name_map
  | .ok cluster_idx =>
      match device_name_map.lookup cluster_idx with
      | none =>
          .ok (insertDevice cluster_idx node.assigned_device_name
              device_name_map)
      | some device =>
          if device != node.assigned_device_name then
            .error (errors.internal
              ("Node " ++ node.name ++ " in cluster " ++ toString cluster_idx ++
                " has assigned device " ++ node.assigned_device_name ++
                " but another node with assigned device " ++ device ++
                " has already been seen in the same cluster"))
          else .ok device_name_map

def recordDevices : List Node → List (Int × String) →
    StatusOr (List (Int × String))
  | [], device_name_map => .ok device_name_map
  | node :: nodes, device_name_map => do
      let device_name_map ← recordDevice node device_name_map
      recordDevices nodes device_name_map

def outputName (position : Nat) : String :=
  "ngraph_output_" ++ toString position
def inputName (position : Nat) : String := "ngraph_input_" ++ toString position

def retvalDef (position index : Nat) (src : Node) (src_output : Int)
    (dt : DataType) : NodeDef where
  name := outputName position
  op := "_Retval"
  input := [src.name ++ ":" ++ toString src_output]
  attr := [("T", .type dt), ("index", .i index)]

def argDef (position index : Nat) (src : Node) (dt : DataType) : NodeDef where
  name := inputName position
  op := "_Arg"
  input := []
  attr := [("T", .type dt), ("index", .i index), ("_prov_tag", .s src.name)]

/-- Create an output for a tensor of a cluster, unless it has one. -/
def addRetval (src : Node) (src_output : Int) (dt : DataType)
    (enc : Encapsulator) : StatusOr Encapsulator :=
  if !isClustered src || (enc.output_remap_map (src.id, src_output)).isSome then
    .ok enc
  else do
    let src_cluster_idx := clusterIdx src
    let position := (enc.cluster_output_dt_map src_cluster_idx).length
    let index := enc.retval_index_count src_cluster_idx
    let enc ← enc.addNodeDef src_cluster_idx
        (retvalDef position index src src_output dt)
    return { enc with
      output_remap_map :=
        Function.update enc.output_remap_map (src.id, src_output)
          (some (src_cluster_idx, position))
      retval_index_count :=
        Function.update enc.retval_index_count src_cluster_idx (index + 1)
      cluster_output_dt_map :=
        pushBack enc.cluster_output_dt_map src_cluster_idx dt }

/-- Create an input for a tensor that a cluster reads, unless it has one. -/
def addArg (src : Node) (src_output : Int) (dst : Node) (dt : DataType)
    (enc : Encapsulator) : StatusOr Encapsulator :=
  if !isClustered dst ||
      (enc.input_remap_map (clusterIdx dst, src.id, src_output)).isSome then
        .ok enc
  else do
    let dst_cluster_idx := clusterIdx dst
    let position := (enc.cluster_input_map dst_cluster_idx).length
    let index := enc.arg_index_count dst_cluster_idx
    let enc ← enc.addNodeDef dst_cluster_idx (argDef position index src dt)
    return { enc with
      input_remap_map := Function.update enc.input_remap_map
        (dst_cluster_idx, src.id, src_output) (some position)
      input_rename_map := Function.update enc.input_rename_map
        (dst_cluster_idx, src.name, src_output) (some (inputName position))
      arg_index_count :=
        Function.update enc.arg_index_count dst_cluster_idx (index + 1)
      cluster_input_map := pushBack enc.cluster_input_map dst_cluster_idx
        (src.id, src_output, dt) }

/-- `input_type(idx)`, which is only called for an input of the node. -/
def inputType (node : Node) (idx : Int) : DataType :=
  node.input_types.getD idx.toNat .DT_FLOAT

/-- Pass 2: the tensors that enter and leave clusters. -/
def remapEdge (graph : Graph) (edge : Edge) (enc : Encapsulator) :
    StatusOr Encapsulator :=
  let src := graph.node edge.src
  let dst := graph.node edge.dst
  if edge.isControlEdge then .ok enc
  else if !src.isOp || !dst.isOp then .ok enc
  else if clusterIdx dst == clusterIdx src then .ok enc
  else do
    let dt := inputType dst edge.dst_input
    let enc ← addRetval src edge.src_output dt enc
    addArg src edge.src_output dst dt enc

def remapEdges (graph : Graph) : List Edge → Encapsulator →
    StatusOr Encapsulator
  | [], enc => .ok enc
  | edge :: edges, enc => do
      let enc ← remapEdge graph edge enc
      remapEdges graph edges enc

/-- `AddInput`. -/
def addInput (src_name : String) (src_slot : Int) : String :=
  if src_slot = kControlSlot then "^" ++ src_name
  else if src_slot = 0 then src_name
  else src_name ++ ":" ++ toString src_slot

/-- The edges into a node: data edges in their slots, then the control edges
from the same cluster. -/
def collectInputs (graph : Graph) (cluster_idx : Int) :
    List Edge → (Nat → Option Edge) → List Edge →
      StatusOr ((Nat → Option Edge) × List Edge)
  | [], slots, controls => .ok (slots, controls)
  | edge :: in_edges, slots, controls =>
      if edge.isControlEdge then
        if isClustered (graph.node edge.src) &&
            clusterIdx (graph.node edge.src) == cluster_idx then
          collectInputs graph cluster_idx in_edges slots (controls ++ [edge])
        else collectInputs graph cluster_idx in_edges slots controls
      else if (slots edge.dst_input.toNat).isSome then
        .error (errors.check s!"Edge {edge.id} had pre-existing input edge")
      else
        collectInputs graph cluster_idx in_edges
          (Function.update slots edge.dst_input.toNat (some edge)) controls

/-- The text of an edge; the source node is left out. -/
def edgeInput (graph : Graph) (edge : Edge) : List String :=
  let src := graph.node edge.src
  if !src.isOp then [] else [addInput src.name edge.src_output]

/-- The text of one input; a missing edge leaves what was requested. -/
def slotInput (graph : Graph) (node : Node) (slots : Nat → Option Edge)
    (i : Nat) : List String :=
  match slots i with
  | none => [node.requested_inputs.getD i ""]
  | some edge => edgeInput graph edge

def renameInput (enc : Encapsulator) (cluster_idx : Int)
    (input : String) : String :=
  let tensor_id := parseTensorName input
  match enc.input_rename_map (cluster_idx, tensor_id.1, tensor_id.2) with
  | some new_name => new_name
  | none => input

/-- The copy of a node that goes into the `GraphDef` of its cluster. -/
def copyDef (graph : Graph) (in_edges : List Edge) (enc : Encapsulator)
    (cluster_idx : Int) (node : Node) : StatusOr NodeDef := do
  let inputs ← collectInputs graph cluster_idx in_edges (fun _ => none) []
  return {
    name := node.name
    op := node.type_string
    input :=
      ((List.range node.num_inputs).flatMap (slotInput graph node inputs.1) ++
      inputs.2.flatMap (edgeInput graph)).map (renameInput enc cluster_idx)
    attr := node.attrs }

section Passes

variable {graph : Graph} (order : graph.Enumeration)

/-- Pass 5: copy the clustered nodes. -/
def copyNode (node : Node) (enc : Encapsulator) : StatusOr Encapsulator :=
  match getNodeCluster node with
  | .error _ => .ok enc
  | .ok cluster_idx => do
      let node_def ← copyDef graph (order.in_edges node.id) enc cluster_idx node
      enc.addNodeDef cluster_idx node_def

def copyNodes : List Node → Encapsulator → StatusOr Encapsulator
  | [], enc => .ok enc
  | node :: nodes, enc => do
      let enc ← copyNode order node enc
      copyNodes nodes enc

def setDevices (enc : Encapsulator) (device_name_map : List (Int × String)) :
    Encapsulator :=
  { enc with device_name_map := device_name_map }

def analysisPass (manager : ClusterManager) : StatusOr Encapsulator := do
  let device_name_map ← recordDevices graph.op_nodes []
  let enc ← remapEdges graph order.edges
    (setDevices (.init manager) device_name_map)
  copyNodes order graph.op_nodes enc

end Passes

section StaticInputs

variable {graph : Graph} (order : graph.Enumeration)

/-- An argument is static when an edge takes it to a static input. -/
def argIsStatic (node : Node) : Bool :=
  (order.out_edges node.id).any fun edge =>
    !(edge.isControlEdge || !(graph.node edge.dst).isOp) &&
      inputIsStatic (graph.node edge.dst) edge.dst_input

/-- `GetStaticInputs` of a graph. -/
def getGraphStaticInputs : List Node → StatusOr (List Int)
  | [] => .ok []
  | node :: nodes =>
      if node.type_string == "_Arg" then
        match getNodeAttrInt node.attrs "index" with
        | .error _ =>
            .error (errors.internal "error getting node attribute index")
        | .ok index => do
            let static_input_indexes ← getGraphStaticInputs nodes
            return if argIsStatic order node then index :: static_input_indexes
              else static_input_indexes
      else getGraphStaticInputs nodes

end StaticInputs

/-- What the rewrite is given besides the graph: the graph library's conversion
of a `GraphDef`, and the orders in which it goes through graphs. -/
structure Library where
  convertGraphDefToGraph : GraphDef → StatusOr Graph
  orders : (graph : Graph) → graph.Enumeration

/-- The rewritten graph, and where the encapsulate nodes are. -/
structure Rewritten where
  graph : Graph
  cluster_node_map : Int → Option Nat

section Rewrite

variable (library : Library) (enc : Encapsulator) (graph_id : Int)
  (device_config : List (String × String))

/-- The attributes that every encapsulate node has. -/
def encapsulateAttrs (cluster_idx : Int) (static_input_indexes : List Int) :
    AttrMap :=
  [("ngraph_cluster", .i cluster_idx),
    ("Targuments", .listType ((enc.cluster_input_map cluster_idx).map (·.2.2))),
    ("Tresults", .listType (enc.cluster_output_dt_map cluster_idx)),
    ("ngraph_graph_id", .i graph_id),
    ("_ngraph_static_inputs", .listI static_input_indexes)]

def encapsulateNode (id : Nat) (cluster_idx : Int) (device : String)
    (static_input_indexes : List Int) : Node where
  id := id
  name := "ngraph_cluster_" ++ toString cluster_idx
  type_string := "_nGraphEncapsulate"
  attrs := encapsulateAttrs enc graph_id cluster_idx static_input_indexes ++
    device_config.map (fun entry => (entry.1, .s entry.2))
  input_types := (enc.cluster_input_map cluster_idx).map (·.2.2)
  output_types := enc.cluster_output_dt_map cluster_idx
  assigned_device_name := device
  requested_inputs := []

/-- The edges that `Finalize` adds for the inputs of a new node. -/
def addInputs (dst : Nat) : List (Nat × Int × DataType) → Nat → Graph → Graph
  | [], _, graph => graph
  | input :: inputs, position, graph =>
      addInputs dst inputs (position + 1)
        (graph.addEdge input.1 input.2.1 dst position)

/-- An attribute is not given two values. -/
def attrsConflict : Bool :=
  device_config.any fun entry =>
    ["ngraph_cluster", "Targuments", "Tresults", "ngraph_graph_id",
      "_ngraph_static_inputs"].contains entry.1

/-- Pass 3: the encapsulate node of one cluster. -/
def addEncapsulate (cluster_idx : Int) (device : String)
    (rewritten : Rewritten) : StatusOr Rewritten :=
  match enc.manager.getClusterGraph cluster_idx with
  | none =>
      .error (errors.internal
        ("Did not find encapsulated graph in cluster manager for node ngraph_cluster_" ++
          toString cluster_idx))
  | some gdef => do
      let encapsulated ← library.convertGraphDefToGraph gdef
      let static_input_indexes ←
        getGraphStaticInputs (library.orders encapsulated) encapsulated.nodes
      if attrsConflict device_config then
        .error (errors.invalidArgument "Inconsistent values for attr")
      else
        let id := rewritten.graph.nextNodeId
        let graph := rewritten.graph.addNode
          (encapsulateNode enc graph_id device_config id cluster_idx device
            static_input_indexes)
        return {
          graph := addInputs id (enc.cluster_input_map cluster_idx) 0 graph
          cluster_node_map :=
            Function.update rewritten.cluster_node_map cluster_idx (some id) }

def addEncapsulates : List (Int × String) → Rewritten → StatusOr Rewritten
  | [], rewritten => .ok rewritten
  | (cluster_idx, device) :: entries, rewritten => do
      let rewritten ←
        addEncapsulate library enc graph_id device_config cluster_idx
          device rewritten
      addEncapsulates entries rewritten

/-- `cluster_node_map[cluster_idx]`; every cluster of a node has an entry. -/
def clusterNode (rewritten : Rewritten) (cluster_idx : Int) : Nat :=
  (rewritten.cluster_node_map cluster_idx).getD 0

/-- Move a control edge to the encapsulate nodes. -/
def moveControlEdge (rewritten : Rewritten) (src dst : Node) (edge : Edge)
    (graph : Graph) : Graph :=
  if isClustered src && isClustered dst then
    (graph.removeEdge edge).addControlEdge
      (clusterNode rewritten (clusterIdx src))
      (clusterNode rewritten (clusterIdx dst))
  else if isClustered src then
    (graph.removeEdge edge).addControlEdge
      (clusterNode rewritten (clusterIdx src)) dst.id
  else if isClustered dst then
    (graph.removeEdge edge).addControlEdge src.id
      (clusterNode rewritten (clusterIdx dst))
  else graph

/-- Pass 4 for one edge.  Nodes do not change any more, so their attributes are
read from the graph that pass 3 left. -/
def moveEdge (rewritten : Rewritten) (edge : Edge) (graph : Graph) :
    StatusOr Graph :=
  let src := rewritten.graph.node edge.src
  let dst := rewritten.graph.node edge.dst
  if clusterIdx src == clusterIdx dst then .ok graph
  else if edge.isControlEdge then
    .ok (moveControlEdge rewritten src dst edge graph)
  else if isClustered dst then .ok graph
  else
    match enc.output_remap_map (src.id, edge.src_output) with
    | none => .ok graph
    | some (cluster_idx, cluster_output) =>
        graph.updateEdge (clusterNode rewritten cluster_idx)
          cluster_output edge.dst edge.dst_input

def moveEdges (rewritten : Rewritten) : List Edge → Graph → StatusOr Graph
  | [], graph => .ok graph
  | edge :: edges, graph => do
      let graph ← moveEdge enc rewritten edge graph
      moveEdges rewritten edges graph

/-- Pass 6: the clustered nodes go. -/
def removeNodes : List Node → Graph → Graph
  | [], graph => graph
  | node :: nodes, graph =>
      if isClustered node then removeNodes nodes (graph.removeNode node.id)
      else removeNodes nodes graph

def rewritePass (graph : Graph) : StatusOr Rewritten := do
  let rewritten ← addEncapsulates library enc graph_id device_config
      enc.device_name_map ⟨graph, fun _ => none⟩
  let moved ← moveEdges enc rewritten (library.orders rewritten.graph).edges
      rewritten.graph
  return ⟨removeNodes moved.op_nodes moved, rewritten.cluster_node_map⟩

end Rewrite

structure Outcome where
  rewritten : Rewritten
  enc : Encapsulator

def encapsulateClusters (library : Library) (manager : ClusterManager)
    (graph_id : Int) (device_config : List (String × String)) (graph : Graph) :
    StatusOr Outcome := do
  let enc ← analysisPass (library.orders graph) manager
  let rewritten ← rewritePass library enc graph_id device_config graph
  return ⟨rewritten, enc⟩

end NGraphBridge.EncapsulateClusters
