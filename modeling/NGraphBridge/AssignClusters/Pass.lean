import NGraphBridge.ClusterManager
import NGraphBridge.Deadness.Analysis
import NGraphBridge.GraphCycles.Rep
import NGraphBridge.MarkForClustering.Pass

/-!
# The clustering pass

A greedy search for groups of marked nodes.  Every node starts as a cluster of
its own; edges between marked nodes are contracted, in the order in which the
graph lists them, until a whole round contracts none.
-/

namespace NGraphBridge.AssignClusters

open TF Deadness GraphCycles MarkForClustering

structure Cluster where
  index : Nat
  nodes : List Nat
  predicate_string : String
  outgoing_edges : List Edge

/-- `cluster_map` points a node to its cluster.  Clusters are shared by their
nodes, so they live in a `heap`. -/
structure State where
  cluster_map : Nat → Nat
  heap : Nat → Cluster
  nodes_predicate_map : Nat → Option String
  gc : Rep

namespace State

def init : State where
  cluster_map := id
  heap := fun _ => ⟨0, [], "", []⟩
  nodes_predicate_map := fun _ => none
  gc := Rep.empty

/-- `cluster_map[node]`, followed. -/
def cluster (state : State) (id : Nat) : Cluster :=
  state.heap (state.cluster_map id)

/-- Write through a pointer to a cluster. -/
def setCluster (state : State) (pointer : Nat) (cluster : Cluster) : State :=
  { state with heap := Function.update state.heap pointer cluster }

/-- `cluster_map[node] = pointer`. -/
def setPointer (state : State) (node pointer : Nat) : State :=
  { state with cluster_map := Function.update state.cluster_map node pointer }

section Set

variable (state : State) (pointer node : Nat) (cluster : Cluster)

@[simp] theorem setCluster_map :
    (state.setCluster pointer cluster).cluster_map = state.cluster_map := rfl

@[simp] theorem setCluster_heap_self :
    (state.setCluster pointer cluster).heap pointer = cluster :=
  Function.update_self _ _ _

theorem setCluster_heap_of_ne {other : Nat} (different : other ≠ pointer) :
    (state.setCluster pointer cluster).heap other = state.heap other :=
  Function.update_of_ne different _ _

@[simp] theorem setPointer_heap :
    (state.setPointer node pointer).heap = state.heap := rfl

theorem setPointer_map (other : Nat) :
    (state.setPointer node pointer).cluster_map other =
      if other = node then pointer else state.cluster_map other :=
  Function.update_apply _ _ _ _

end Set

end State

section Pass

variable (hasher : Hasher) {graph : Graph} (order : graph.Enumeration)

/-- Each node is a cluster of its own. -/
def addNode (predicate_map : PredicateMap) (state : State) (node : Node) :
    StatusOr State := do
  let (gc, new_index) := state.gc.newNode
  let pred_string ← getNodePredicate order predicate_map node
  return {
    cluster_map := Function.update state.cluster_map node.id node.id
    heap := Function.update state.heap node.id
      ⟨new_index, [node.id], pred_string, order.out_edges node.id⟩
    nodes_predicate_map :=
      Function.update state.nodes_predicate_map node.id (some pred_string)
    gc := gc }

def addNodes (predicate_map : PredicateMap) : List Node → State → StatusOr State
  | [], state => .ok state
  | node :: nodes, state => do
      let state ← addNode order predicate_map state node
      addNodes predicate_map nodes state

/-- The edges that the cycle check leaves out. -/
def skipsCycleCheck (graph : Graph) (edge : Edge) : Bool :=
  let src := graph.node edge.src
  let dst := graph.node edge.dst
  !src.isOp || !dst.isOp || src.isNextIteration || dst.isNextIteration

/-- Check for existing cyclicity in the graph. -/
def insertEdges (graph : Graph) : List Edge → State → StatusOr State
  | [], state => .ok state
  | edge :: edges, state =>
      if skipsCycleCheck graph edge then insertEdges graph edges state
      else
        match state.gc.insertEdge (state.cluster edge.src).index
            (state.cluster edge.dst).index with
        | (_, false) =>
            .error (errors.unimplemented
              ("Input graph has a cycle (inserting an edge from " ++
                (graph.node edge.src).name ++ " to " ++
                (graph.node edge.dst).name ++ " would create a cycle)"))
        | (gc, true) => insertEdges graph edges { state with gc := gc }

/-- A shadow node between the two ends of a static input edge. -/
def addShadow (state : State) (static_edge : Edge) : StatusOr State :=
  let (gc, shadow_node_index) := state.gc.newNode
  let (gc, srcOk) := gc.insertEdge (state.cluster static_edge.src).index
    shadow_node_index
  let (gc, dstOk) := gc.insertEdge shadow_node_index
    (state.cluster static_edge.dst).index
  if srcOk && dstOk then .ok { state with gc := gc }
  else .error (errors.internal "Unable to create shadow edges in GraphCycles")

/-- Only a static input that is not fed by a constant needs a shadow. -/
def shadowEdge (graph : Graph) (state : State) (static_edge : Edge) :
    StatusOr State :=
  if (graph.node static_edge.src).type_string != "Const" then
    addShadow state static_edge
  else .ok state

/-- `edges_to_node[static_inp_idx]`, which is undefined out of range. -/
def staticEdge (edges_to_node : List Edge) (static_inp_idx : Int) :
    StatusOr Edge :=
  match if static_inp_idx < 0 then none
      else edges_to_node[static_inp_idx.toNat]? with
  | some edge => .ok edge
  | none => .error (errors.check "edges_to_node index out of range")

def shadowEdges (graph : Graph) (edges_to_node : List Edge) :
    List Int → State → StatusOr State
  | [], state => .ok state
  | static_inp_idx :: static_inputs, state => do
      let static_edge ← staticEdge edges_to_node static_inp_idx
      let state ← shadowEdge graph state static_edge
      shadowEdges graph edges_to_node static_inputs state

def shadowNode (state : State) (node : Node) : StatusOr State :=
  if (getStaticInputs node).length > 0 then do
    let edges_to_node ← node.input_edges (order.in_edges node.id)
    shadowEdges graph edges_to_node (getStaticInputs node) state
  else .ok state

def addShadows : List Node → State → StatusOr State
  | [], state => .ok state
  | node :: nodes, state => do
      let state ← shadowNode order state node
      addShadows nodes state

/-- The predicate of the merged cluster. -/
def getMergedClusterPred (src_predicate dst_predicate : String) : String :=
  if isTruePredString src_predicate then dst_predicate else src_predicate

/-- Whether the source and destination predicates of the edge match. -/
def canContractEdgeDeadnessCheck (graph : Graph) (state : State) (edge : Edge) :
    StatusOr Bool :=
  let dst := graph.node edge.dst
  let src_predicate := (state.cluster edge.src).predicate_string
  let dst_predicate := (state.cluster edge.dst).predicate_string
  if isControlFlowPredString src_predicate ||
      isControlFlowPredString dst_predicate then
    .error (errors.internal
      s!"Attempting to contract edge with control flow ops : {edge.id}")
  else if !isTruePredString src_predicate && !isTruePredString dst_predicate &&
      src_predicate != dst_predicate then .ok false
  else if !isTruePredString src_predicate && isTruePredString dst_predicate then
    .error (errors.internal
      ("Attempting to cluster control-flow node " ++ dst.name ++ "[" ++
        dst.type_string ++ "]"))
  else if isTruePredString src_predicate &&
      (state.cluster edge.src).outgoing_edges.any (fun src_cluster_edge =>
        src_cluster_edge != edge && !isTruePredString dst_predicate &&
          dst_predicate !=
            (state.cluster src_cluster_edge.dst).predicate_string) then
    .ok false
  else .ok true

/-- Point the nodes of the merged cluster to it. -/
def moveNodes (src_cluster : Nat) : List Nat → State → State
  | [], state => state
  | node :: nodes, state =>
      let merged := state.heap src_cluster
      let state := state.setCluster src_cluster
        { merged with nodes := merged.nodes.insert node }
      moveNodes src_cluster nodes (state.setPointer node src_cluster)

/-- Merge the destination cluster into the source cluster. -/
def mergeClusters (edge : Edge) (state : State) : State :=
  let src_cluster := state.cluster_map edge.src
  let source := state.cluster edge.src
  let destination := state.cluster edge.dst
  let cluster_pred :=
    getMergedClusterPred source.predicate_string destination.predicate_string
  let outgoing_edges :=
    (source.outgoing_edges ∪ destination.outgoing_edges).filter (· != edge)
  moveNodes src_cluster destination.nodes
    (state.setCluster src_cluster
      { source with
        predicate_string := cluster_pred
        outgoing_edges := outgoing_edges })

/-- Contract an edge, unless that would make a cycle. -/
def contractEdge (edge : Edge) (state : State) : State × Bool :=
  let src_index := (state.cluster edge.src).index
  let dst_index := (state.cluster edge.dst).index
  if state.gc.hasEdge src_index dst_index then
    match state.gc.contractEdge src_index dst_index with
    | (gc, true) => ({ mergeClusters edge state with gc := gc }, true)
    | (gc, false) => ({ state with gc := gc }, false)
  else (state, false)

/-- The body of the contraction loop, and whether it contracted the edge. -/
def tryContract (graph : Graph) (edge : Edge) (state : State) :
    StatusOr (State × Bool) :=
  let src := graph.node edge.src
  let dst := graph.node edge.dst
  if !src.isOp || !dst.isOp then .ok (state, false)
  else if !nodeIsMarkedForClustering src || !nodeIsMarkedForClustering dst then
    .ok (state, false)
  else do
    let is_deadness_ok ← canContractEdgeDeadnessCheck graph state edge
    return if is_deadness_ok then contractEdge edge state else (state, false)

/-- One round over all edges, and whether it changed something. -/
def contractRound (graph : Graph) : List Edge → State → StatusOr (State × Bool)
  | [], state => .ok (state, false)
  | edge :: edges, state => do
      let tried ← tryContract graph edge state
      let rest ← contractRound graph edges tried.1
      return (rest.1, tried.2 || rest.2)

/-- Rounds until one changes nothing.  A round that changes something leaves
one cluster less, so there is fuel for all rounds. -/
def contract : Nat → State → StatusOr State
  | 0, _ => .error (errors.check "contraction does not end")
  | fuel + 1, state => do
      let round ← contractRound graph order.edges state
      if round.2 then contract fuel round.1 else .ok round.1

/-- Some sanity checks for a node's cluster assignment wrt deadness. -/
def checkNodeClusterAssignmentWRTDeadness (state : State) (node : Node) :
    StatusOr Unit :=
  match state.nodes_predicate_map node.id with
  | none =>
      .error (errors.internal
        ("Node " ++ node.name ++ " [" ++ node.type_string ++ "]" ++
          " not found in predicate map"))
  | some node_pred_string =>
      let cluster_pred_string := (state.cluster node.id).predicate_string
      let node_cluster_index := (state.cluster node.id).index
      if isControlFlowPredString node_pred_string then
        .error (errors.internal
          ("Node " ++ node.name ++ " [" ++ node.type_string ++ "]" ++
            " should not be clustered as it is a control flow op"))
      else if !isTruePredString node_pred_string &&
          node_pred_string != cluster_pred_string then
        .error (errors.internal
          ("Node " ++ node.name ++ " [" ++ node.type_string ++ "]" ++
            " Predicate : " ++ node_pred_string ++
            "should not be clustered in cluster with predicate " ++
            cluster_pred_string))
      else if isTruePredString node_pred_string &&
          !isTruePredString cluster_pred_string &&
          (order.out_edges node.id).any (fun e =>
            (state.cluster e.dst).index != node_cluster_index &&
              (state.cluster e.dst).predicate_string !=
                cluster_pred_string) then
        .error (errors.internal
          ("Node " ++ node.name ++ " [" ++ node.type_string ++ "]" ++
            " Predicate : " ++ node_pred_string ++
            " cannot not be clustered in cluster with predicate " ++
            cluster_pred_string ++
            " as it has outgoing edge to a cluster with another predicate"))
      else .ok ()

/-- Whether there are marked and unmarked nodes among some nodes, once the
marked ones have passed their checks. -/
def scanCluster (state : State) : List Nat → StatusOr (Bool × Bool)
  | [] => .ok (false, false)
  | id :: ids => do
      let node := graph.node id
      if nodeIsMarkedForClustering node then do
        checkNodeClusterAssignmentWRTDeadness order state node
        let rest ← scanCluster state ids
        return (true, rest.2)
      else do
        let rest ← scanCluster state ids
        return (rest.1, true)

/-- What tagging has done so far: the clusters seen, and the cluster id given
to each node. -/
structure Tags where
  seen : List Nat
  manager : ClusterManager
  graph : Graph

def tagNodes (cluster_idx : Nat) (ids : List Nat) (graph : Graph) : Graph :=
  ids.foldl (fun graph id => graph.updateNode id
    (·.addAttr "_ngraph_cluster" (.i cluster_idx))) graph

/-- Tag the cluster that one node points to, unless that was done before. -/
def tagCluster (state : State) (id : Nat) (tags : Tags) :
    Tags × StatusOr Unit :=
  let cluster := state.cluster_map id
  if tags.seen.contains cluster then (tags, .ok ())
  else
    let ids := order.pointers.filter (· ∈ (state.heap cluster).nodes)
    let seen := { tags with seen := cluster :: tags.seen }
    match scanCluster order state ids with
    | .error error => (tags, .error error)
    | .ok (true, true) =>
        (tags, .error (errors.internal
          ("Cluster " ++ toString (state.heap cluster).index ++
            " has both nGraph and non-nGraph nodes")))
    | .ok (false, _) => (seen, .ok ())
    | .ok (true, false) =>
        let (manager, cluster_idx) := tags.manager.newCluster
        ({ seen with
            manager := manager
            graph := tagNodes cluster_idx ids tags.graph }, .ok ())

def tagClusters (state : State) : List Nat → Tags → Tags × StatusOr Unit
  | [], tags => (tags, .ok ())
  | id :: ids, tags =>
      match tagCluster order state id tags with
      | (tags, .ok ()) => tagClusters state ids tags
      | (tags, .error error) => (tags, .error error)

/-- The cluster id of a node, if it is tagged. -/
def getNodeCluster (node : Node) : StatusOr Int :=
  getNodeAttrInt node.attrs "_ngraph_cluster"

/-- Clustering without tagging. -/
def clusters : StatusOr State := do
  let predicate_map ← populate hasher order
  let state ← addNodes order predicate_map graph.nodes State.init
  let state ← insertEdges graph order.edges state
  let state ← addShadows order graph.op_nodes state
  contract order (graph.nodes.length + 1) state

/-- What a pass leaves behind, and what it returns. -/
structure Outcome where
  graph : Graph
  manager : ClusterManager
  status : StatusOr Unit

def assignClusters (manager : ClusterManager) : Outcome :=
  match clusters hasher order with
  | .error error => ⟨graph, manager, .error error⟩
  | .ok state =>
      let (tags, status) := tagClusters order state order.pointers
        ⟨[], manager, graph⟩
      ⟨tags.graph, tags.manager, status⟩

end Pass

end NGraphBridge.AssignClusters
