import NGraphBridge.AssignClusters.Convexity
import NGraphBridge.Deadness.Liveness

/-!
# Clustering keeps liveness

A cluster dies as a whole, so a node that is always live may die once it is in
a cluster.  Whatever the cluster leads to has the predicate of the cluster
then, and would have died anyway.
-/

namespace NGraphBridge.AssignClusters

open TF Deadness MarkForClustering Predicate

/-- A liveness of the graph in which every cluster is one node.  A cluster is
live when all edges that enter it are, and a node that the analysis goes
through and that is outside all clusters fires as before. -/
structure ClusteredLiveness {graph : Graph} (order : graph.Enumeration)
    (s : Assignment) (final : Graph) (live : Int ⊕ Nat → Int → Bool) :
    Prop where
  cluster : ∀ cluster_idx slot, live (.inl cluster_idx) slot = true ↔
    ∀ edge ∈ graph.edges, clusterOf final edge.dst = .inl cluster_idx →
      clusterOf final edge.src ≠ .inl cluster_idx →
      live (clusterOf final edge.src) edge.src_output = true
  node : ∀ node ∈ order.rpo, clusterOf final node.id = .inr node.id → ∀ slot,
    live (.inr node.id) slot =
      fires order s (fun src src_output =>
        live (clusterOf final src) src_output) node slot

/-- The liveness of the nodes outside all clusters is what the predicates
say. -/
def Agrees (graph : Graph) (s : Assignment) (final : Graph)
    (predicate_map : PredicateMap) (live : Int ⊕ Nat → Int → Bool) : Prop :=
  ∀ node ∈ graph.nodes, clusterOf final node.id = .inr node.id → ∀ slot pred,
    predicate_map ⟨node.name, slot⟩ = some pred →
    live (.inr node.id) slot = pred.eval s

section Check

variable {graph : Graph} {order : graph.Enumeration} {state : State}
  {node : Node}

structure Passed (order : graph.Enumeration) (state : State) (node : Node)
    (pred_string : String) : Prop where
  recorded : state.nodes_predicate_map node.id = some pred_string
  notControlFlow : isControlFlowPredString pred_string = false
  ofCluster : isTruePredString pred_string = true ∨
    pred_string = (state.cluster node.id).predicate_string
  leaving : isTruePredString pred_string = true →
    isTruePredString (state.cluster node.id).predicate_string = false →
    ∀ edge ∈ order.out_edges node.id,
      state.index edge.dst ≠ state.index node.id →
      (state.cluster edge.dst).predicate_string =
        (state.cluster node.id).predicate_string

theorem check_ok
    (success : checkNodeClusterAssignmentWRTDeadness order state node =
      .ok ()) :
    ∃ pred_string, Passed order state node pred_string := by
  unfold checkNodeClusterAssignmentWRTDeadness at success
  split at success
  case h_1 => simp at success
  case h_2 pred_string recorded =>
    dsimp only at success
    split_ifs at success with controlFlow other leaves
    refine ⟨pred_string, recorded, by simpa using controlFlow, ?_, ?_⟩
    · by_cases isTrue : isTruePredString pred_string = true
      · exact .inl isTrue
      · right
        by_contra different
        exact other (by simp [isTrue, different])
    · intro isTrue notTrue edge member different
      by_contra otherPredicate
      apply leaves
      simp only [isTrue, notTrue, Bool.not_false, Bool.and_true, Bool.true_and,
        List.any_eq_true]
      exact ⟨edge, member, Bool.and_eq_true_iff.mpr
        ⟨bne_iff_ne.mpr different, bne_iff_ne.mpr otherPredicate⟩⟩

end Check

/-- A run of the pass over a graph whose marked nodes are data-flow nodes. -/
structure Setting {graph : Graph} (hasher : Hasher) (order : graph.Enumeration)
    (manager : ClusterManager) (predicate_map : PredicateMap) (state : State)
    (tag : Nat → Option Nat) (outcome : Outcome) : Prop
    extends Assigned hasher order manager predicate_map state tag outcome where
  wf : graph.WF
  legal : ∀ node ∈ graph.nodes, LegalName node.name
  outgoing : ∀ node ∈ graph.nodes, node.isOp = true →
    ∃ edge ∈ graph.edges, edge.src = node.id
  dataFlow : ∀ node ∈ graph.nodes, nodeIsMarkedForClustering node = true →
    DataFlow node

section Setting

variable {graph : Graph} {hasher : Hasher} {order : graph.Enumeration}
  {manager : ClusterManager} {predicate_map : PredicateMap} {state : State}
  {tag : Nat → Option Nat} {outcome : Outcome}
  (setting : Setting hasher order manager predicate_map state tag outcome)
  (s : Assignment)

include setting

theorem Setting.normal {tensor_id : TensorId} {pred : Predicate}
    (found : predicate_map tensor_id = some pred) :
    Normal (LooseIn predicate_map) pred :=
  (populate_analysed setting.wf setting.legal setting.populated).normal
    _ _ found

/-- The predicate on record for a node outside control flow is that of its
outputs. -/
theorem Setting.recordedPred {node : Node} (member : node ∈ graph.nodes)
    (isOp : node.isOp = true) (notControlFlow : node.isControlFlow = false)
    {pred_string : String}
    (recorded : state.nodes_predicate_map node.id = some pred_string) :
    ∃ pred, pred_string = pred.toString ∧ Normal (LooseIn predicate_map) pred ∧
      (∃ slot, predicate_map ⟨node.name, slot⟩ = some pred) ∧
      ∀ edge ∈ graph.edges, edge.src = node.id →
        predicate_map (inputEdgeToTensorId graph edge) = some pred := by
  obtain ⟨found, success, atNode⟩ := setting.recorded node member
  rw [recorded, Option.some.injEq] at atNode
  subst atNode
  have outgoing := setting.outgoing node member isOp
  obtain ⟨pred, text, all⟩ :=
    getNodePredicate_ok isOp notControlFlow outgoing success
  obtain ⟨edge, inGraph, leaves⟩ := outgoing
  have atEdge := all edge inGraph leaves
  refine ⟨pred, text, setting.normal atEdge, ⟨edge.src_output, ?_⟩, all⟩
  rwa [inputEdgeToTensorId, tensorId, leaves,
    setting.wf.node_eq member] at atEdge

/-- What is known of a node in a cluster. -/
structure Member (order : graph.Enumeration) (predicate_map : PredicateMap)
    (state : State) (s : Assignment) (node : Node) (pred : Predicate) :
    Prop where
  checked : Passed order state node pred.toString
  normal : Normal (LooseIn predicate_map) pred
  value : pred.eval s = inputsLive order (liveUnder s graph predicate_map) node
  inside : node ∈ order.rpo
  dataFlow : DataFlow node
  outputs : ∀ edge ∈ graph.edges, edge.src = node.id →
    predicate_map (inputEdgeToTensorId graph edge) = some pred

omit setting in
theorem Member.live {s : Assignment} {node : Node} {pred : Predicate}
    (isMember : Member order predicate_map state s node pred) {edge : Edge}
    (inGraph : edge ∈ graph.edges) (leaves : edge.src = node.id) :
    liveUnder s graph predicate_map edge.src edge.src_output =
      inputsLive order (liveUnder s graph predicate_map) node := by
  rw [liveUnder_edge (isMember.outputs edge inGraph leaves), isMember.value]

theorem Setting.member {node : Node} (inGraph : node ∈ graph.nodes)
    (marked : nodeIsMarkedForClustering node = true) :
    ∃ pred, Member order predicate_map state s node pred := by
  have atNode := setting.wf.node_eq inGraph
  have passed := @setting.passed node.id ⟨node, inGraph, rfl⟩
  rw [atNode] at passed
  obtain ⟨pred_string, checked⟩ := check_ok (passed marked)
  have dataFlow := setting.dataFlow node inGraph marked
  obtain ⟨pred, rfl, normal, ⟨slot, found⟩, outputs⟩ :=
    setting.recordedPred inGraph dataFlow.op dataFlow.notControlFlow
      checked.recorded
  refine ⟨pred, checked, normal, ?_,
    populate_inside setting.wf setting.populated inGraph found,
    dataFlow, outputs⟩
  rw [← dataFlow.fires _ slot]
  exact populate_fires setting.wf setting.legal setting.populated inGraph found

theorem Setting.clusterOf_cases {node : Node} (inGraph : node ∈ graph.nodes) :
    (nodeIsMarkedForClustering node = true ∧
      ∃ cluster_idx, clusterOf outcome.graph node.id = .inl cluster_idx) ∨
    (nodeIsMarkedForClustering node = false ∧
      clusterOf outcome.graph node.id = .inr node.id) := by
  have class_ := setting.toAssigned.clusterOf_eq setting.wf ⟨node, inGraph, rfl⟩
  cases marked : nodeIsMarkedForClustering node with
  | true =>
      obtain ⟨c, tagged⟩ :=
        setting.toAssigned.tag_of_marked setting.wf inGraph marked
      rw [tagged] at class_
      exact .inl ⟨rfl, c, class_⟩
  | false =>
      rw [setting.toAssigned.tag_of_unmarked setting.wf inGraph marked]
        at class_
      exact .inr ⟨rfl, class_⟩

theorem Setting.isMarked {node : Node} (inGraph : node ∈ graph.nodes)
    {cluster_idx : Int}
    (clustered : clusterOf outcome.graph node.id = .inl cluster_idx) :
    nodeIsMarkedForClustering node = true := by
  cases setting.clusterOf_cases inGraph with
  | inl isMarked => exact isMarked.1
  | inr unmarked => rw [clustered] at unmarked; simp at unmarked

theorem Setting.sameString {node other : Node} (inGraph : node ∈ graph.nodes)
    (otherIn : other ∈ graph.nodes)
    (same : clusterOf outcome.graph node.id =
      clusterOf outcome.graph other.id) :
    (state.cluster node.id).predicate_string =
      (state.cluster other.id).predicate_string := by
  have together :=
    (setting.toAssigned.clusterOf_iff setting.wf ⟨node, inGraph, rfl⟩
      ⟨other, otherIn, rfl⟩).mp same
  rw [State.cluster, State.cluster, together]

/-- All nodes of a cluster are live in the graph before clustering. -/
def allLive (graph : Graph) (order : graph.Enumeration) (s : Assignment)
    (predicate_map : PredicateMap) (final : Graph) (cluster_idx : Int) : Bool :=
  graph.nodes.all fun node =>
    decide (clusterOf final node.id ≠ .inl cluster_idx) ||
    inputsLive order (liveUnder s graph predicate_map) node

omit setting in
theorem allLive_iff {s : Assignment} {final : Graph} {cluster_idx : Int} :
    allLive graph order s predicate_map final cluster_idx = true ↔
      ∀ node ∈ graph.nodes, clusterOf final node.id = .inl cluster_idx →
        inputsLive order (liveUnder s graph predicate_map) node = true := by
  rw [allLive, List.all_eq_true]
  apply forall_congr'
  intro node
  apply imp_congr_right
  intro _
  rw [Bool.or_eq_true, decide_eq_true_iff]
  tauto

/-- A true predicate with the string of a cluster makes all its nodes live. -/
theorem Setting.allLive_of_pred {node : Node} (inGraph : node ∈ graph.nodes)
    {cluster_idx : Int}
    (clustered : clusterOf outcome.graph node.id = .inl cluster_idx)
    {pred : Predicate} (normal : Normal (LooseIn predicate_map) pred)
    (text : pred.toString = (state.cluster node.id).predicate_string)
    (isTrue : pred.eval s = true) :
    allLive graph order s predicate_map outcome.graph cluster_idx = true := by
  rw [allLive_iff]
  intro other otherIn otherClustered
  obtain ⟨otherPred, isMember⟩ := setting.member s otherIn
    (setting.isMarked otherIn otherClustered)
  rw [← isMember.value]
  cases isMember.checked.ofCluster with
  | inl trivial_ => exact eval_of_isTruePredString isMember.normal trivial_
  | inr same =>
      have sameText : otherPred.toString = pred.toString := by
        rw [same, text]
        exact setting.sameString otherIn inGraph
          (otherClustered.trans clustered.symm)
      rw [isMember.normal.eval_eq_of_toString s normal sameText, isTrue]

/-- Some node of a cluster has the predicate of the cluster. -/
theorem Setting.representative {node : Node} (inGraph : node ∈ graph.nodes)
    {cluster_idx : Int}
    (clustered : clusterOf outcome.graph node.id = .inl cluster_idx) :
    ∃ other ∈ graph.nodes, clusterOf outcome.graph other.id = .inl cluster_idx ∧
      ∃ pred, Member order predicate_map state s other pred ∧
        pred.toString = (state.cluster node.id).predicate_string := by
  obtain ⟨b, ⟨other, otherIn, rfl⟩, together, recorded⟩ :=
    setting.inv.predicate ⟨node, inGraph, rfl⟩
  have sameClass :=
    (setting.toAssigned.clusterOf_iff setting.wf ⟨other, otherIn, rfl⟩
      ⟨node, inGraph, rfl⟩).mpr together
  have otherClustered := sameClass.trans clustered
  obtain ⟨pred, isMember⟩ := setting.member s otherIn
    (setting.isMarked otherIn otherClustered)
  refine ⟨other, otherIn, otherClustered, pred, isMember, ?_⟩
  have atOther := isMember.checked.recorded
  rw [recorded, Option.some.injEq] at atOther
  exact atOther.symm

/-- A cluster is live when its nodes were, other nodes are live as before. -/
def clusteredLive (graph : Graph) (order : graph.Enumeration) (s : Assignment)
    (predicate_map : PredicateMap) (final : Graph) : Int ⊕ Nat → Int → Bool
  | .inl cluster_idx, _ => allLive graph order s predicate_map final cluster_idx
  | .inr id, slot =>
      fires order s (liveUnder s graph predicate_map) (graph.node id) slot

theorem Setting.read {node : Node} (inside : node ∈ order.rpo) {edge : Edge}
    (member : edge ∈ order.in_edges node.id)
    (isRead : reads order node edge = true) :
    ∃ pred, predicate_map (inputEdgeToTensorId graph edge) = some pred := by
  obtain ⟨preds, handled, _⟩ := populateFrom_all setting.populated node inside
  exact handle_reads handled member isRead

/-- Clustering revives no edge, and leaves the edges of other nodes alone. -/
theorem Setting.edge_below {edge : Edge} (inGraph : edge ∈ graph.edges)
    {pred : Predicate}
    (found : predicate_map (inputEdgeToTensorId graph edge) = some pred) :
    (clusteredLive graph order s predicate_map outcome.graph
        (clusterOf outcome.graph edge.src) edge.src_output = true →
      liveUnder s graph predicate_map edge.src edge.src_output = true) ∧
    (clusterOf outcome.graph edge.src = .inr edge.src →
      clusteredLive graph order s predicate_map outcome.graph
        (clusterOf outcome.graph edge.src) edge.src_output =
      liveUnder s graph predicate_map edge.src edge.src_output) := by
  obtain ⟨srcIn, srcId⟩ := setting.wf.node_mem (setting.wf.src edge inGraph)
  have unclustered : clusterOf outcome.graph edge.src = .inr edge.src →
      clusteredLive graph order s predicate_map outcome.graph
        (clusterOf outcome.graph edge.src) edge.src_output =
      liveUnder s graph predicate_map edge.src edge.src_output := by
    intro alone
    rw [alone, liveUnder_edge found]
    exact (populate_fires setting.wf setting.legal setting.populated srcIn
        found).symm
  refine ⟨?_, unclustered⟩
  intro isLive
  cases setting.clusterOf_cases srcIn with
  | inr alone =>
      rw [srcId] at alone
      rw [← unclustered alone.2, isLive]
  | inl inCluster =>
      obtain ⟨marked, cluster_idx, clustered⟩ := inCluster
      obtain ⟨srcPred, isMember⟩ := setting.member s srcIn marked
      rw [isMember.live inGraph srcId.symm]
      rw [srcId] at clustered
      rw [clustered] at isLive
      exact allLive_iff.mp isLive _ srcIn (srcId.symm ▸ clustered)

/-- An edge that clustering kills leads to a node or cluster with the predicate
of the cluster that it leaves. -/
theorem Setting.edge_killed {edge : Edge} (inGraph : edge ∈ graph.edges)
    {cluster_idx : Int}
    (clustered : clusterOf outcome.graph edge.src = .inl cluster_idx)
    (leaves : clusterOf outcome.graph edge.dst ≠ .inl cluster_idx)
    (isLive : liveUnder s graph predicate_map edge.src edge.src_output = true) :
    allLive graph order s predicate_map outcome.graph cluster_idx = true ∨
      (state.cluster edge.dst).predicate_string =
        (state.cluster edge.src).predicate_string := by
  have srcNode := setting.wf.src edge inGraph
  obtain ⟨srcIn, srcId⟩ := setting.wf.node_mem srcNode
  have nodeClustered := clustered
  rw [← srcId] at nodeClustered
  obtain ⟨srcPred, isMember⟩ :=
    setting.member s srcIn (setting.isMarked srcIn nodeClustered)
  have srcTrue : srcPred.eval s = true := by
    rw [isMember.value, ← isMember.live inGraph srcId.symm, isLive]
  by_cases same : srcPred.toString = (state.cluster edge.src).predicate_string
  · left
    rw [← srcId] at same
    exact setting.allLive_of_pred s srcIn nodeClustered isMember.normal
      same srcTrue
  · have checked := isMember.checked
    have ofCluster := checked.ofCluster
    have leaving := checked.leaving
    rw [srcId] at ofCluster leaving
    have trivial_ : isTruePredString srcPred.toString = true := by
      cases ofCluster with
      | inl trivial_ => exact trivial_
      | inr text => exact absurd text same
    have clusterNot :
        isTruePredString (state.cluster edge.src).predicate_string = false := by
      rw [← Bool.not_eq_true]
      intro alsoTrue
      apply same
      simp only [isTruePredString, beq_iff_eq] at trivial_ alsoTrue
      rw [trivial_, alsoTrue]
    right
    apply leaving trivial_ clusterNot edge
      ((order.mem_out_edges _ _).mpr ⟨inGraph, rfl⟩)
    intro sameIndex
    have dstNode := setting.wf.dst edge inGraph
    have together := (setting.inv.index_iff dstNode srcNode).mp sameIndex
    apply leaves
    rw [(setting.toAssigned.clusterOf_iff setting.wf dstNode srcNode).mpr
      together, clustered]

/-- Live nodes in a cluster make all edges that enter it live. -/
theorem Setting.entering_live {cluster_idx : Int}
    (isLive : allLive graph order s predicate_map outcome.graph cluster_idx =
      true)
    {edge : Edge} (inGraph : edge ∈ graph.edges)
    (clustered : clusterOf outcome.graph edge.dst = .inl cluster_idx)
    (enters : clusterOf outcome.graph edge.src ≠ .inl cluster_idx) :
    clusteredLive graph order s predicate_map outcome.graph
      (clusterOf outcome.graph edge.src) edge.src_output = true := by
  obtain ⟨srcIn, srcId⟩ := setting.wf.node_mem (setting.wf.src edge inGraph)
  obtain ⟨dstIn, dstId⟩ := setting.wf.node_mem (setting.wf.dst edge inGraph)
  have dstClustered := clustered
  rw [← dstId] at dstClustered
  obtain ⟨dstPred, dstMember⟩ :=
    setting.member s dstIn (setting.isMarked dstIn dstClustered)
  have into : edge ∈ order.in_edges (graph.node edge.dst).id := by
    rw [order.mem_in_edges, dstId]
    exact ⟨inGraph, rfl⟩
  have dstLive := allLive_iff.mp isLive _ dstIn dstClustered
  rw [inputsLive, List.all_eq_true] at dstLive
  have srcLive := dstLive edge into
  obtain ⟨pred, found⟩ :=
    setting.read dstMember.inside into (dstMember.dataFlow.reads edge)
  cases setting.clusterOf_cases srcIn with
  | inr alone =>
      rw [srcId] at alone
      rw [(setting.edge_below s inGraph found).2 alone.2, srcLive]
  | inl inCluster =>
      obtain ⟨_, other_idx, otherClustered⟩ := inCluster
      have edgeClustered := otherClustered
      rw [srcId] at edgeClustered
      rw [edgeClustered]
      have leaves : clusterOf outcome.graph edge.dst ≠ .inl other_idx := by
        rw [clustered, ← edgeClustered]
        exact enters.symm
      cases setting.edge_killed s inGraph edgeClustered leaves srcLive with
      | inl stays => exact stays
      | inr sameString =>
          -- the two clusters have one predicate, and it is true in the second
          obtain ⟨other, otherIn, inDst, otherPred, otherMember, text⟩ :=
            setting.representative s dstIn dstClustered
          rw [dstId, sameString, ← srcId] at text
          apply setting.allLive_of_pred s srcIn otherClustered
            otherMember.normal text
          rw [otherMember.value]
          exact allLive_iff.mp isLive other otherIn inDst

/-- Live edges into a cluster make all its nodes live, from the first in the
order of the op edges to the last. -/
theorem Setting.allLive_of_entering {cluster_idx : Int}
    (entering : ∀ edge ∈ graph.edges, clusterOf outcome.graph edge.dst =
      .inl cluster_idx →
      clusterOf outcome.graph edge.src ≠ .inl cluster_idx →
      clusteredLive graph order s predicate_map outcome.graph
        (clusterOf outcome.graph edge.src) edge.src_output = true) :
    allLive graph order s predicate_map outcome.graph cluster_idx = true := by
  obtain ⟨rank, increasing⟩ := setting.ranked
  have upTo : ∀ bound, ∀ node ∈ graph.nodes,
      clusterOf outcome.graph node.id = .inl cluster_idx →
      rank node.id < bound →
      inputsLive order (liveUnder s graph predicate_map) node = true := by
    intro bound
    induction bound with
    | zero => exact fun _ _ _ below => absurd below (Nat.not_lt_zero _)
    | succ bound ih =>
        intro node inGraph clustered below
        obtain ⟨pred, isMember⟩ :=
          setting.member s inGraph (setting.isMarked inGraph clustered)
        rw [inputsLive, List.all_eq_true]
        intro edge into
        obtain ⟨edgeIn, toNode⟩ := (order.mem_in_edges _ _).mp into
        obtain ⟨srcIn, srcId⟩ :=
          setting.wf.node_mem (setting.wf.src edge edgeIn)
        by_cases inside : clusterOf outcome.graph edge.src = .inl cluster_idx
        · have srcClustered := inside
          rw [← srcId] at srcClustered
          obtain ⟨srcPred, srcMember⟩ :=
            setting.member s srcIn (setting.isMarked srcIn srcClustered)
          rw [srcMember.live edgeIn srcId.symm]
          apply ih _ srcIn srcClustered
          have dstNode : graph.node edge.dst = node := by
            rw [toNode]
            exact setting.wf.node_eq inGraph
          have step : OpEdge graph edge.src node.id := by
            refine ⟨edge, edgeIn, ?_, rfl, toNode⟩
            have srcPlain :=
              (not_switch_of_not_controlFlow
                  srcMember.dataFlow.notControlFlow).2.2
            have dstPlain :=
              (not_switch_of_not_controlFlow
                  isMember.dataFlow.notControlFlow).2.2
            simp [skipsCycleCheck, dstNode, srcMember.dataFlow.op,
              isMember.dataFlow.op, srcPlain, dstPlain]
          have up := increasing step
          rw [srcId]
          omega
        · obtain ⟨pred, found⟩ := setting.read isMember.inside into
            (isMember.dataFlow.reads edge)
          apply (setting.edge_below s edgeIn found).1
          exact entering edge edgeIn (toNode ▸ clustered) inside
  rw [allLive_iff]
  intro node inGraph clustered
  exact upTo (rank node.id + 1) node inGraph clustered (Nat.lt_succ_self _)

/-- A node outside all clusters is a cluster of its own. -/
theorem Setting.ownString {node : Node} (inGraph : node ∈ graph.nodes)
    (alone : clusterOf outcome.graph node.id = .inr node.id) :
    state.nodes_predicate_map node.id =
      some (state.cluster node.id).predicate_string := by
  obtain ⟨b, ⟨other, otherIn, rfl⟩, together, recorded⟩ :=
    setting.inv.predicate ⟨node, inGraph, rfl⟩
  have sameClass := (setting.toAssigned.clusterOf_iff setting.wf
    ⟨other, otherIn, rfl⟩ ⟨node, inGraph, rfl⟩).mpr together
  rw [alone] at sameClass
  cases setting.clusterOf_cases otherIn with
  | inl inCluster =>
      obtain ⟨_, cluster_idx, clustered⟩ := inCluster
      simp [clustered] at sameClass
  | inr otherAlone =>
      rw [otherAlone.2, Sum.inr.injEq] at sameClass
      rwa [sameClass] at recorded

/-- A node outside all clusters fires as before. -/
theorem Setting.node_fires {node : Node} (inside : node ∈ order.rpo)
    (alone : clusterOf outcome.graph node.id = .inr node.id) (slot : Int) :
    fires order s (liveUnder s graph predicate_map) node slot =
      fires order s (fun src src_output =>
        clusteredLive graph order s predicate_map outcome.graph
          (clusterOf outcome.graph src) src_output) node slot := by
  have inGraph := order.rpoInside node inside
  rw [Bool.eq_iff_iff]
  constructor
  · intro fired
    refine fires_mono ?_ fired
    intro edge into isRead isLive
    obtain ⟨edgeIn, toNode⟩ := (order.mem_in_edges _ _).mp into
    obtain ⟨srcIn, srcId⟩ := setting.wf.node_mem (setting.wf.src edge edgeIn)
    obtain ⟨pred, found⟩ := setting.read inside into isRead
    cases setting.clusterOf_cases srcIn with
    | inr srcAlone =>
        rw [srcId] at srcAlone
        rw [(setting.edge_below s edgeIn found).2 srcAlone.2, isLive]
    | inl inCluster =>
        obtain ⟨_, cluster_idx, srcClustered⟩ := inCluster
        have clustered := srcClustered
        rw [srcId] at clustered
        have leaves : clusterOf outcome.graph edge.dst ≠ .inl cluster_idx := by
          rw [toNode, alone]
          simp
        rw [clustered]
        cases setting.edge_killed s edgeIn clustered leaves isLive with
        | inl stays => exact stays
        | inr sameString =>
            -- the node has the predicate of the cluster, and is live itself
            obtain ⟨_, _, _, otherPred, otherMember, text⟩ :=
              setting.representative s srcIn srcClustered
            rw [srcId, ← sameString, toNode] at text
            have recorded := setting.ownString inGraph alone
            obtain ⟨pred_string, success, atNode⟩ :=
              setting.recorded node inGraph
            have same := recorded
            rw [atNode, Option.some.injEq, ← text] at same
            obtain ⟨isOp, notControlFlow⟩ := plain_of_getNodePredicate success
              (same ▸ otherMember.checked.notControlFlow)
            obtain ⟨nodePred, nodeText, normal, ⟨other, atSlot⟩, _⟩ :=
              setting.recordedPred inGraph isOp notControlFlow recorded
            rw [← toNode, sameString, ← srcId] at nodeText
            apply setting.allLive_of_pred s srcIn srcClustered normal
              nodeText.symm
            rw [populate_fires setting.wf setting.legal setting.populated
              inGraph atSlot, fires_slot notControlFlow _ other slot, fired]
  · apply fires_mono
    intro edge into isRead isLive
    obtain ⟨edgeIn, _⟩ := (order.mem_in_edges _ _).mp into
    obtain ⟨pred, found⟩ := setting.read inside into isRead
    exact (setting.edge_below s edgeIn found).1 isLive

theorem Setting.clusteredLive_solves : ClusteredLiveness order s outcome.graph
    (clusteredLive graph order s predicate_map outcome.graph) where
  cluster := by
    intro cluster_idx slot
    constructor
    · intro isLive edge inGraph clustered enters
      exact setting.entering_live s isLive inGraph clustered enters
    · exact setting.allLive_of_entering s
  node := by
    intro node inside alone slot
    rw [← setting.node_fires s inside alone slot, clusteredLive,
      setting.wf.node_eq (order.rpoInside node inside)]

theorem Setting.clusteredLive_agrees :
    Agrees graph s outcome.graph predicate_map
    (clusteredLive graph order s predicate_map outcome.graph) := by
  intro node inGraph _ slot pred found
  rw [clusteredLive, setting.wf.node_eq inGraph]
  exact (populate_fires setting.wf setting.legal setting.populated inGraph
      found).symm

/-- Whatever the liveness after clustering, what is live was live before. -/
theorem Setting.none_revived {live : Int ⊕ Nat → Int → Bool}
    (solves : ClusteredLiveness order s outcome.graph live) :
    ∀ tensor_id pred, predicate_map tensor_id = some pred →
      ∀ node ∈ graph.nodes,
      node.name = tensor_id.name →
      live (clusterOf outcome.graph node.id) tensor_id.index = true →
      pred.eval s = true := by
  refine populateFrom_induct ?_ (by simp) setting.populated
  intro n inside preds handled before entry member node inGraph sameName isLive
  have nIn := order.rpoInside n inside
  obtain rfl := setting.wf.name_injective inGraph nIn sameName
  have below : ∀ edge ∈ order.in_edges node.id, reads order node edge = true →
      live (clusterOf outcome.graph edge.src) edge.src_output = true →
      liveUnder s graph predicate_map edge.src edge.src_output = true := by
    intro edge into isRead edgeLive
    obtain ⟨edgeIn, _⟩ := (order.mem_in_edges _ _).mp into
    obtain ⟨srcIn, srcId⟩ := setting.wf.node_mem (setting.wf.src edge edgeIn)
    obtain ⟨pred, found⟩ := setting.read inside into isRead
    rw [liveUnder_edge found]
    exact before edge into isRead pred found _ srcIn rfl (srcId.symm ▸ edgeLive)
  have normal :=
    (populate_analysed setting.wf setting.legal setting.populated).normal
  rw [handled.fires normal entry member]
  cases setting.clusterOf_cases inGraph with
  | inr alone =>
      rw [alone.2, solves.node node inside alone.2] at isLive
      exact fires_mono below isLive
  | inl inCluster =>
      obtain ⟨marked, cluster_idx, clustered⟩ := inCluster
      obtain ⟨pred, isMember⟩ := setting.member s inGraph marked
      rw [isMember.dataFlow.fires, inputsLive, List.all_eq_true]
      rw [clustered] at isLive
      intro edge into
      apply below edge into (isMember.dataFlow.reads edge)
      obtain ⟨edgeIn, toNode⟩ := (order.mem_in_edges _ _).mp into
      by_cases stays : clusterOf outcome.graph edge.src = .inl cluster_idx
      · rw [stays, (solves.cluster cluster_idx edge.src_output)]
        exact (solves.cluster cluster_idx entry.1).mp isLive
      · exact (solves.cluster cluster_idx entry.1).mp isLive edge edgeIn
          (toNode ▸ clustered) stays

omit setting in
/-- Back edges lead to merges, as in every `while` loop. -/
def BackEdges (graph : Graph) : Prop :=
  ∀ edge ∈ graph.edges, (graph.node edge.src).isNextIteration = true →
    (graph.node edge.dst).isMerge = true ∨ edge.dst = 1

omit setting in
/-- An order in which the liveness of the clusters can be computed. -/
def height (graph : Graph) (state : State) (id : Nat) : Nat :=
  if id = 0 then 0
  else if id = 1 then state.gc.size + 2
  else if (graph.node id).isNextIteration then state.gc.size + 1
  else state.gc.rank (state.index id) + 1

theorem Setting.height_lt (backEdges : BackEdges graph) {edge : Edge}
    (inGraph : edge ∈ graph.edges)
    (apart : clusterOf outcome.graph edge.src =
      clusterOf outcome.graph edge.dst →
      edge.src = edge.dst)
    (forward : (graph.node edge.src).isNextIteration = true →
      (graph.node edge.dst).isMerge = false) :
    height graph state edge.src < height graph state edge.dst := by
  have srcNode := setting.wf.src edge inGraph
  have dstNode := setting.wf.dst edge inGraph
  have bound : ∀ {id}, graph.HasNode id →
      state.gc.rank (state.index id) < state.gc.size := by
    intro id idNode
    exact setting.inv.gc.rank_lt (setting.inv.live idNode).1
  have srcBound := bound srcNode
  have dstBound := bound dstNode
  have notSource := setting.wf.outOfSource edge inGraph
  have notSink := setting.wf.intoSink edge inGraph
  unfold height
  rw [if_neg notSource, if_neg notSink]
  by_cases source : edge.src = 0
  · rw [if_pos source]
    split_ifs <;> omega
  · rw [if_neg source]
    by_cases sink : edge.dst = 1
    · rw [if_pos sink]
      split_ifs <;> omega
    · rw [if_neg sink]
      by_cases srcNext : (graph.node edge.src).isNextIteration = true
      · cases backEdges edge inGraph srcNext with
        | inl isMerge => simp [forward srcNext] at isMerge
        | inr isSink => exact absurd isSink sink
      · rw [if_neg srcNext]
        by_cases dstNext : (graph.node edge.dst).isNextIteration = true
        · rw [if_pos dstNext]
          omega
        · rw [if_neg dstNext]
          have srcId := (setting.wf.node_mem srcNode).2
          have dstId := (setting.wf.node_mem dstNode).2
          have step : OpEdge graph edge.src edge.dst := by
            refine ⟨edge, inGraph, ?_, rfl, rfl⟩
            simp only [Bool.not_eq_true] at srcNext dstNext
            simp [skipsCycleCheck, Node.isOp, Node.isSource, Node.isSink,
              srcId, dstId, source, sink, notSource, notSink, srcNext, dstNext]
          have different : state.index edge.src ≠ state.index edge.dst := by
            intro sameIndex
            have together :=
              (setting.inv.index_iff srcNode dstNode).mp sameIndex
            have loop := apart
              ((setting.toAssigned.clusterOf_iff setting.wf srcNode
              dstNode).mpr together)
            obtain ⟨rank, increasing⟩ := setting.ranked
            have up := increasing step
            rw [loop] at up
            exact absurd up (lt_irrefl _)
          have up := setting.inv.gc.increasing
            (setting.inv.edges step different)
          omega

theorem Setting.height_eq {node other : Node} (inGraph : node ∈ graph.nodes)
    (otherIn : other ∈ graph.nodes) {cluster_idx : Int}
    (clustered : clusterOf outcome.graph node.id = .inl cluster_idx)
    (otherClustered : clusterOf outcome.graph other.id = .inl cluster_idx) :
    height graph state node.id = height graph state other.id := by
  have plain : ∀ {member : Node}, member ∈ graph.nodes →
      clusterOf outcome.graph member.id = .inl cluster_idx →
      height graph state member.id =
        state.gc.rank (state.index member.id) + 1 := by
    intro member memberIn memberClustered
    have dataFlow := setting.dataFlow member memberIn
      (setting.isMarked memberIn memberClustered)
    have notNext := (not_switch_of_not_controlFlow dataFlow.notControlFlow).2.2
    have isOp := dataFlow.op
    simp only [Node.isOp, Node.isSource, Node.isSink, Bool.and_eq_true,
      Bool.not_eq_true', beq_eq_false_iff_ne] at isOp
    rw [height, if_neg isOp.1, if_neg isOp.2, setting.wf.node_eq memberIn,
      if_neg (by simp [notNext])]
  rw [plain inGraph clustered, plain otherIn otherClustered]
  have together :=
    (setting.toAssigned.clusterOf_iff setting.wf ⟨node, inGraph, rfl⟩
      ⟨other, otherIn, rfl⟩).mp (clustered.trans otherClustered.symm)
  rw [State.index, State.index, State.cluster, State.cluster, together]

/-- The edges that a node reads come from below it. -/
theorem Setting.read_lower (backEdges : BackEdges graph) {node : Node}
    (inside : node ∈ order.rpo) {edge : Edge}
    (into : edge ∈ order.in_edges node.id)
    (isRead : reads order node edge = true)
    (apart : clusterOf outcome.graph edge.src =
      clusterOf outcome.graph node.id →
      edge.src = node.id) :
    ∃ src ∈ order.rpo, src.id = edge.src ∧
      height graph state src.id < height graph state node.id := by
  obtain ⟨edgeIn, toNode⟩ := (order.mem_in_edges _ _).mp into
  obtain ⟨srcIn, srcId⟩ := setting.wf.node_mem (setting.wf.src edge edgeIn)
  obtain ⟨pred, found⟩ := setting.read inside into isRead
  refine ⟨graph.node edge.src,
    populate_inside setting.wf setting.populated srcIn found, srcId, ?_⟩
  rw [srcId, ← toNode]
  apply setting.height_lt backEdges edgeIn (by rwa [toNode])
  intro srcNext
  rw [toNode, setting.wf.node_eq (order.rpoInside node inside)]
  exact not_merge_of_reads into isRead srcNext

/-- With back edges to merges only, there is one liveness after clustering. -/
theorem Setting.unique (backEdges : BackEdges graph)
    {first second : Int ⊕ Nat → Int → Bool}
    (firstSolves : ClusteredLiveness order s outcome.graph first)
    (secondSolves : ClusteredLiveness order s outcome.graph second) :
    ∀ node ∈ order.rpo, ∀ slot, first (clusterOf outcome.graph node.id) slot =
      second (clusterOf outcome.graph node.id) slot := by
  have upTo : ∀ bound, ∀ node ∈ order.rpo, height graph state node.id < bound →
      ∀ slot, first (clusterOf outcome.graph node.id) slot =
        second (clusterOf outcome.graph node.id) slot := by
    intro bound
    induction bound with
    | zero => exact fun _ _ below => absurd below (Nat.not_lt_zero _)
    | succ bound ih =>
        intro node inside below slot
        have inGraph := order.rpoInside node inside
        have earlier : ∀ {dst : Node}, dst ∈ order.rpo →
            height graph state dst.id = height graph state node.id →
            ∀ edge ∈ order.in_edges dst.id, reads order dst edge = true →
            (clusterOf outcome.graph edge.src = clusterOf outcome.graph dst.id →
              edge.src = dst.id) →
            first (clusterOf outcome.graph edge.src) edge.src_output =
              second (clusterOf outcome.graph edge.src) edge.src_output := by
          intro dst dstInside sameHeight edge into isRead apart
          obtain ⟨src, srcInside, srcId, lower⟩ :=
            setting.read_lower backEdges dstInside into isRead apart
          rw [← srcId]
          exact ih src srcInside (by omega) edge.src_output
        cases setting.clusterOf_cases inGraph with
        | inr alone =>
            rw [alone.2, firstSolves.node node inside alone.2,
              secondSolves.node node inside alone.2]
            apply fires_congr
            intro edge into isRead
            apply earlier inside rfl edge into isRead
            intro together
            obtain ⟨edgeIn, _⟩ := (order.mem_in_edges _ _).mp into
            obtain ⟨srcIn, srcId⟩ :=
              setting.wf.node_mem (setting.wf.src edge edgeIn)
            rw [alone.2, ← srcId] at together
            cases setting.clusterOf_cases srcIn with
            | inl inCluster =>
                obtain ⟨_, cluster_idx, clustered⟩ := inCluster
                simp [clustered] at together
            | inr srcAlone =>
                rw [srcAlone.2, Sum.inr.injEq, srcId] at together
                exact together
        | inl inCluster =>
            obtain ⟨_, cluster_idx, clustered⟩ := inCluster
            rw [clustered, Bool.eq_iff_iff, firstSolves.cluster,
              secondSolves.cluster]
            apply forall₂_congr
            intro edge edgeIn
            apply forall₂_congr
            intro dstClustered enters
            obtain ⟨dstIn, dstId⟩ :=
              setting.wf.node_mem (setting.wf.dst edge edgeIn)
            rw [← dstId] at dstClustered
            obtain ⟨pred, isMember⟩ :=
              setting.member s dstIn (setting.isMarked dstIn dstClustered)
            have same := earlier isMember.inside
              (setting.height_eq dstIn inGraph dstClustered clustered) edge
              ((order.mem_in_edges _ _).mpr ⟨edgeIn, dstId.symm⟩)
              (isMember.dataFlow.reads edge)
              (fun together => absurd (together.trans dstClustered) enters)
            rw [same]
  intro node inside slot
  exact upTo _ node inside (Nat.lt_succ_self _) slot

end Setting

variable {graph : Graph} {hasher : Hasher} {order : graph.Enumeration}
  {manager : ClusterManager}

/-- Treating each cluster as one node changes the liveness of no other node:
there is a liveness after clustering that agrees with the analysis, none of
them makes a dead node live, and there is only one when back edges lead to
merges. -/
theorem assignClusters_liveness (wf : graph.WF)
    (legal : ∀ node ∈ graph.nodes, LegalName node.name)
    (outgoing : ∀ node ∈ graph.nodes, node.isOp = true →
      ∃ edge ∈ graph.edges, edge.src = node.id)
    (dataFlow : ∀ node ∈ graph.nodes, nodeIsMarkedForClustering node = true →
      DataFlow node)
    (success : (assignClusters hasher order manager).status = .ok ())
    (s : Assignment) :
    let final := (assignClusters hasher order manager).graph
    ∃ predicate_map, populate hasher order = .ok predicate_map ∧
      (∃ live, ClusteredLiveness order s final live ∧
        Agrees graph s final predicate_map live) ∧
      (∀ live, ClusteredLiveness order s final live →
        ∀ node ∈ graph.nodes, clusterOf final node.id = .inr node.id →
        ∀ slot pred,
          predicate_map ⟨node.name, slot⟩ = some pred →
          live (.inr node.id) slot = true → pred.eval s = true) ∧
      (BackEdges graph → ∀ live, ClusteredLiveness order s final live →
        Agrees graph s final predicate_map live) := by
  intro final
  obtain ⟨predicate_map, state, tag, assigned⟩ :=
    assignClusters_assigned wf success
  have setting : Setting hasher order manager predicate_map state tag
      (assignClusters hasher order manager) :=
    ⟨assigned, wf, legal, outgoing, dataFlow⟩
  refine ⟨predicate_map, setting.populated, ?_, ?_, ?_⟩
  · exact ⟨_, setting.clusteredLive_solves s, setting.clusteredLive_agrees s⟩
  · intro live solves node inGraph alone slot pred found isLive
    rw [← alone] at isLive
    exact setting.none_revived s solves _ pred found node inGraph rfl isLive
  · intro backEdges live solves node inGraph alone slot pred found
    have inside := populate_inside wf setting.populated inGraph found
    have same := setting.unique s backEdges solves
      (setting.clusteredLive_solves s) node inside slot
    have agrees :=
      setting.clusteredLive_agrees s node inGraph alone slot pred found
    rw [alone] at same
    rw [same, agrees]

theorem switchGraph_dataFlow : ∀ node ∈ switchGraph.nodes,
    nodeIsMarkedForClustering node = true → DataFlow node := by
  have fields : ∀ node ∈ switchGraph.nodes,
      nodeIsMarkedForClustering node = true →
      node.isOp = true ∧ node.isControlFlow = false ∧
      node.isControlTrigger = false ∧
        (node.isRecv || node.isHostRecv) = false := by
    decide
  intro node member marked
  obtain ⟨op, notControlFlow, notTrigger, notRecv⟩ := fields node member marked
  exact ⟨op, notControlFlow, notTrigger, notRecv⟩

theorem assignClusters_liveness_switchGraph :
    ∃ predicate_map,
      populate constantHasher switchGraph.byInsertion = .ok predicate_map ∧
      ∀ live, ClusteredLiveness switchGraph.byInsertion (fun _ _ => true)
        (assignClusters constantHasher switchGraph.byInsertion .init).graph
        live →
      Agrees switchGraph (fun _ _ => true)
        (assignClusters constantHasher switchGraph.byInsertion .init).graph
        predicate_map live := by
  obtain ⟨predicate_map, populated, _, _, agrees⟩ :=
    @assignClusters_liveness _ constantHasher switchGraph.byInsertion .init
      switchGraph_wf (by decide) (by decide) switchGraph_dataFlow (by decide)
      (fun _ _ => true)
  exact ⟨predicate_map, populated, agrees (by unfold BackEdges; decide)⟩

end NGraphBridge.AssignClusters
