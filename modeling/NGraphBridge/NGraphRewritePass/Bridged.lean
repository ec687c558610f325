import NGraphBridge.EncapsulateClusters.Failure
import NGraphBridge.NGraphRewritePass.Pass

/-!
# Graphs with encapsulated clusters

What encapsulation leaves, also when it fails, is a graph with
`_nGraphEncapsulate` nodes beside old ones. An evaluation of such a graph looks
the clusters up where the kernels do.
-/

namespace NGraphBridge.NGraphRewritePass

open TF MarkForClustering AssignClusters EncapsulateClusters
  NGraphBridge.Digraph

variable {V : Type}

/-- Every `_nGraphEncapsulate` node computes its cluster, and every other node
its op. -/
structure EvaluatesBridged (manager : ClusterManager)
    (interp : Interpretation V) (graph : Graph) (val : Nat × Int → V) :
    Prop where
  op : ∀ node ∈ graph.op_nodes, node.type_string ≠ "_nGraphEncapsulate" →
    graph.Computes interp val node
  cluster : ∀ node ∈ graph.op_nodes, node.type_string = "_nGraphEncapsulate" →
    ComputesCluster manager interp graph val node

/-- One node is the other, up to what it is annotated with. -/
structure SameNode (node other : Node) : Prop where
  id : other.id = node.id
  name : other.name = node.name
  type : other.type_string = node.type_string

theorem SameNode.refl (node : Node) : SameNode node node := ⟨rfl, rfl, rfl⟩

/-- A node that stands for a cluster. -/
def StandsForCluster (node : Node) : Prop :=
  node.type_string = "_nGraphEncapsulate" ∧
    ∃ cluster_idx : Int, node.name = "ngraph_cluster_" ++ toString cluster_idx

/-- `next` consists of op nodes of `graph` and of new nodes for clusters. It can
be evaluated, and whatever its evaluation, the op nodes of `graph` that it still
has give and take the values they had. -/
structure Preserves (manager : ClusterManager) (interp : Interpretation V)
    (graph : Graph) (val : Nat × Int → V) (next : Graph) : Prop where
  evaluable : ∃ after, EvaluatesBridged manager interp next after
  same : ∀ node ∈ graph.op_nodes, next.HasNode node.id →
    ∃ other ∈ next.op_nodes, SameNode node other
  origin : ∀ other ∈ next.op_nodes,
    (∃ node ∈ graph.op_nodes, SameNode node other) ∨ StandsForCluster other
  output : ∀ after, EvaluatesBridged manager interp next after →
    ∀ node ∈ graph.op_nodes, next.HasNode node.id →
      ∀ slot, after (node.id, slot) = val (node.id, slot)
  input : ∀ after, EvaluatesBridged manager interp next after →
    ∀ node ∈ graph.op_nodes, next.HasNode node.id → ∀ input < node.num_inputs,
      ∃ value, graph.InputValue val node.id input value ∧
        ∀ other, next.InputValue after node.id input other ↔ other = value

/-- The clusters that a graph looks up hold copies of nodes with such names. -/
def CopiesFrom (manager : ClusterManager) (graph : Graph)
    (names : String → Prop) : Prop :=
  ∀ node ∈ graph.op_nodes, node.type_string = "_nGraphEncapsulate" → ∀ idx gdef,
    getNodeAttrInt node.attrs "ngraph_cluster" = .ok idx →
    manager.getClusterGraph idx = some gdef →
    ∀ node_def ∈ gdef.node, node_def.op ≠ "_Arg" → node_def.op ≠ "_Retval" →
      names node_def.name

/-- Moreover only such nodes went into clusters. -/
structure Kept (manager : ClusterManager) (interp : Interpretation V)
    (graph : Graph) (moves : Node → Prop) (val : Nat × Int → V)
    (next : Graph) : Prop
    extends Preserves manager interp graph val next where
  stays : ∀ node ∈ graph.op_nodes, ¬ moves node → next.HasNode node.id
  copies : CopiesFrom manager next fun name =>
    ∃ node ∈ graph.op_nodes, moves node ∧ node.name = name

/-- A graph that was not processed before. -/
def Unprocessed (graph : Graph) : Prop :=
  ∀ node ∈ graph.nodes, node.type_string ≠ "_nGraphEncapsulate"

theorem unprocessed_iff {graph : Graph} :
    Unprocessed graph ↔ isAlreadyProcessed graph = false := by
  simp [Unprocessed, isAlreadyProcessed]

section Plain

variable {manager : ClusterManager} {interp : Interpretation V} {graph : Graph}
  {val after : Nat × Int → V}

theorem evaluatesBridged_iff (unprocessed : Unprocessed graph) :
    EvaluatesBridged manager interp graph val ↔ graph.Evaluates interp val := by
  constructor
  · intro evaluates node member
    exact evaluates.op node member
      (unprocessed node (List.mem_filter.mp member).1)
  · intro evaluates
    constructor
    case op => exact fun node member _ => evaluates node member
    case cluster =>
      intro node member isEncapsulate
      exact absurd isEncapsulate
        (unprocessed node (List.mem_filter.mp member).1)

/-- A graph without cycles has one evaluation at most. -/
theorem evaluates_unique (wf : graph.WF) (acyclic : Acyclic graph.DataEdge)
    (evaluates : graph.Evaluates interp val)
    (other : graph.Evaluates interp after) :
    ∀ node ∈ graph.op_nodes, ∀ slot,
      after (node.id, slot) = val (node.id, slot) := by
  have byId : ∀ id, ∀ node ∈ graph.op_nodes, node.id = id →
      ∀ slot, after (node.id, slot) = val (node.id, slot) := by
    intro id
    induction id using (dataEdge_wellFounded wf acyclic).induction with
    | _ id ih =>
        intro node member atId slot
        obtain ⟨values, reads, computes⟩ := evaluates node member
        obtain ⟨otherValues, otherReads, otherComputes⟩ := other node member
        have sameValues : otherValues = values.map fun value => value := by
          apply forall₂_eq_map reads otherReads
          intro input _ value otherValue isValue isOther
          obtain ⟨source, feeds, rfl⟩ := isValue
          obtain ⟨otherSource, otherFeeds, rfl⟩ := isOther
          obtain ⟨sameSrc, sameSlot⟩ := wf.single_feeds otherFeeds feeds
          have srcOp := (feeds_ends wf feeds).1.2
          have step : graph.DataEdge source.1 id := atId ▸ ⟨_, _, feeds⟩
          have here := ih source.1 step _ srcOp (Graph.node_id _) source.2
          rw [Graph.node_id] at here
          rw [show otherSource = source from Prod.ext sameSrc sameSlot]
          exact here
        rw [List.map_id'] at sameValues
        rw [otherComputes, computes, sameValues]
  exact fun node member => byId node.id node member rfl

/-- What a node reads when the tensors have the values they had. -/
theorem inputValue_of_same (wf : graph.WF) {next : Graph} {node : Node}
    {input : Nat} {values : List V}
    (reads : graph.Reads val node.id node.num_inputs values)
    (inside : input < node.num_inputs)
    (feeds : ∀ u a, next.Feeds u a node.id input ↔
      graph.Feeds u a node.id input)
    (same : ∀ u a, graph.Feeds u a node.id input → after (u, a) = val (u, a)) :
    ∃ value, graph.InputValue val node.id input value ∧
      ∀ other, next.InputValue after node.id input other ↔ other = value := by
  obtain ⟨tensor, fed, _⟩ := reads.input inside
  refine ⟨val tensor, ⟨tensor, fed, rfl⟩, fun other => ?_⟩
  constructor
  · rintro ⟨source, sourceFeeds, rfl⟩
    have oldFeeds := (feeds source.1 source.2).mp sourceFeeds
    obtain ⟨sameSrc, sameSlot⟩ := wf.single_feeds oldFeeds fed
    rw [show source = tensor from Prod.ext sameSrc sameSlot]
    exact same tensor.1 tensor.2 fed
  · rintro rfl
    exact ⟨tensor, (feeds _ _).mpr fed, (same tensor.1 tensor.2 fed).symm⟩

end Plain

section Rewritten

variable {interp : Interpretation V} {library : Library} {graph_id : Int}
  {device_config : List (String × String)} {graph : Graph}
  {manager : ClusterManager} {enc : Encapsulator} {order : graph.Enumeration}
  {outs : Int → List (Nat × Int)} {added : Int → List NodeDef}
  {result : Rewritten} {val : Nat × Int → V}

theorem encapsulate_type {cluster_idx : Int} {node : Node}
    (encapsulate :
      IsEncapsulate library enc graph_id device_config cluster_idx node) :
    node.type_string = "_nGraphEncapsulate" := by
  obtain ⟨_, _, _, _, _, _, _, same⟩ := encapsulate
  rw [same]
  rfl

theorem encapsulate_stands {cluster_idx : Int} {node : Node}
    (encapsulate :
      IsEncapsulate library enc graph_id device_config cluster_idx node) :
    StandsForCluster node := by
  refine ⟨encapsulate_type encapsulate, cluster_idx, ?_⟩
  obtain ⟨_, _, _, _, _, _, _, same⟩ := encapsulate
  rw [same]
  rfl

theorem rewritten_type
    (rewired : Rewired library enc graph_id device_config graph result)
    (unprocessed : Unprocessed graph) {node : Node}
    (member : node ∈ result.graph.nodes) :
    node.type_string = "_nGraphEncapsulate" ↔
      ∃ c, result.cluster_node_map c = some node.id := by
  cases rewired.nodes node member with
  | inl old =>
      refine iff_of_false (unprocessed node old.1) ?_
      rintro ⟨c, mapped⟩
      exact rewired.unmapped old.1 c mapped
  | inr new =>
      obtain ⟨c, mapped, encapsulate⟩ := new
      exact iff_of_true (encapsulate_type encapsulate) ⟨c, mapped⟩

theorem evaluatesBridged_rewritten
    (rewired : Rewired library enc graph_id device_config graph result)
    (unprocessed : Unprocessed graph) :
    EvaluatesBridged enc.manager interp result.graph val ↔
      EvaluatesRewritten interp ⟨result, enc⟩ val := by
  have isNew : ∀ node ∈ result.graph.op_nodes,
      node.type_string = "_nGraphEncapsulate" ↔
      ∃ c, result.cluster_node_map c = some node.id :=
    fun node member => rewritten_type rewired unprocessed
      (List.mem_filter.mp member).1
  constructor
  · intro bridged
    constructor
    case op =>
      intro node member unmapped
      apply bridged.op node member
      intro isEncapsulate
      obtain ⟨c, mapped⟩ := (isNew node member).mp isEncapsulate
      exact unmapped c mapped
    case cluster =>
      exact fun node member c mapped =>
        bridged.cluster node member ((isNew node member).mpr ⟨c, mapped⟩)
  · intro solves
    constructor
    case op =>
      intro node member notEncapsulate
      exact solves.op node member fun c mapped =>
        notEncapsulate ((isNew node member).mpr ⟨c, mapped⟩)
    case cluster =>
      intro node member isEncapsulate
      obtain ⟨c, mapped⟩ := (isNew node member).mp isEncapsulate
      exact solves.cluster node member c mapped

theorem rewritten_kept (wf : graph.WF)
    (rewired : Rewired library enc graph_id device_config graph result)
    {node : Node} (member : node ∈ graph.op_nodes)
    (idNode : result.graph.HasNode node.id) :
    node ∈ result.graph.op_nodes ∧ isClustered node = false := by
  obtain ⟨inGraph, isOp⟩ := List.mem_filter.mp member
  obtain ⟨left, leftIn, sameId⟩ := idNode
  cases rewired.nodes left leftIn with
  | inl old =>
      obtain ⟨leftOld, stays⟩ := old
      obtain rfl : left = node := wf.id_injective leftOld inGraph sameId
      exact ⟨List.mem_filter.mpr ⟨leftIn, isOp⟩, stays isOp⟩
  | inr new =>
      obtain ⟨c, mapped, _⟩ := new
      exact absurd ⟨node, inGraph, sameId.symm⟩
        (rewired.placed c left.id mapped).1

/-- The cluster of a new node holds copies of the nodes that it stands for. -/
theorem copies_encapsulate (analysed : Analysed order manager outs added enc)
    (encapsulable : Encapsulable manager graph) {c : Int} {node : Node}
    (encapsulate : IsEncapsulate library enc graph_id device_config c node)
    (used : ∃ inside ∈ graph.op_nodes, getNodeCluster inside = .ok c)
    {idx : Int} {gdef : GraphDef}
    (hasCluster : getNodeAttrInt node.attrs "ngraph_cluster" = .ok idx)
    (stored : enc.manager.getClusterGraph idx = some gdef) {node_def : NodeDef}
    (inDef : node_def ∈ gdef.node) (notArg : node_def.op ≠ "_Arg")
    (notRetval : node_def.op ≠ "_Retval") :
    ∃ inside ∈ graph.op_nodes, isClustered inside = true ∧
    inside.name = node_def.name := by
  rw [encapsulate.cluster] at hasCluster
  obtain rfl := Except.ok.inj hasCluster
  obtain ⟨inside, insideOp, inCluster⟩ := used
  rw [analysed.getClusterGraph encapsulable insideOp inCluster] at stored
  obtain rfl := Option.some.inj stored
  cases (analysed.defs c node_def).mp inDef with
  | inl border =>
      cases border with
      | inl argument =>
          obtain ⟨_, _, _, rfl⟩ := argument
          exact absurd rfl notArg
      | inr retval =>
          obtain ⟨_, _, _, _, _, rfl⟩ := retval
          exact absurd rfl notRetval
  | inr copy =>
      obtain ⟨copied, copiedOp, copiedIn, made⟩ := copy
      obtain ⟨_, _, made⟩ := bind_ok made
      obtain rfl := Except.ok.inj made
      exact ⟨copied, copiedOp, (clusterIdx_of copiedIn).1, rfl⟩

theorem preserves_rewritten (analysed : Analysed order manager outs added enc)
    (encapsulable : Encapsulable manager graph)
    (unprocessed : Unprocessed graph) (evaluates : graph.Evaluates interp val)
    (rewired : Rewired library enc graph_id device_config graph result) :
    Preserves enc.manager interp graph val result.graph := by
  have wf := encapsulable.wf
  have bridged :
      ∀ after, EvaluatesBridged enc.manager interp result.graph after ↔
      EvaluatesRewritten interp ⟨result, enc⟩ after :=
    fun _ => evaluatesBridged_rewritten rewired unprocessed
  have unique : ∀ after,
      EvaluatesBridged enc.manager interp result.graph after →
      ∀ tensor, Shown graph outs tensor →
      after (movedTensor enc result tensor) = val tensor :=
    fun after solves => rewritten_unique analysed encapsulable evaluates rewired
      ((bridged after).mp solves)
  constructor
  case evaluable =>
    exact ⟨_, (bridged _).mpr
      (rewritten_exists analysed encapsulable evaluates rewired)⟩
  case same =>
    exact fun node member idNode =>
      ⟨node, (rewritten_kept wf rewired member idNode).1, .refl node⟩
  case origin =>
    intro other member
    obtain ⟨inResult, isOp⟩ := List.mem_filter.mp member
    cases rewired.nodes other inResult with
    | inl old =>
        exact .inl ⟨other, List.mem_filter.mpr ⟨old.1, isOp⟩, .refl other⟩
    | inr new =>
        obtain ⟨_, _, encapsulate⟩ := new
        exact .inr (encapsulate_stands encapsulate)
  case output =>
    intro after solves node member idNode slot
    have unclustered := (rewritten_kept wf rewired member idNode).2
    have nodeSelf := wf.node_eq (List.mem_filter.mp member).1
    have shown : Shown graph outs (node.id, slot) := by
      refine ⟨nodeSelf.symm ▸ member, fun clustered => ?_⟩
      rw [nodeSelf, unclustered] at clustered
      exact absurd clustered (by simp)
    have here := unique after solves (node.id, slot) shown
    rwa [moved_unclustered analysed (by rw [nodeSelf, unclustered])] at here
  case input =>
    intro after solves node member idNode input inside
    have unclustered := (rewritten_kept wf rewired member idNode).2
    have inGraph := (List.mem_filter.mp member).1
    have nodeUnclustered : isClustered (graph.node node.id) = false := by
      rw [wf.node_eq inGraph, unclustered]
    obtain ⟨values, reads, _⟩ := evaluates node member
    obtain ⟨tensor, feeds, _⟩ := reads.input inside
    have here := unique after solves tensor
      (shown_of_read analysed wf feeds nodeUnclustered)
    have feedsAfter : ∀ u a, result.graph.Feeds u a node.id input ↔
        movedTensor enc result tensor = (u, a) := by
      intro u a
      rw [rewired.feedsOld node.id ⟨node, inGraph, rfl⟩]
      constructor
      · rintro ⟨_, src, slot, alsoFeeds, atMoved⟩
        obtain ⟨sameSrc, sameSlot⟩ := wf.single_feeds feeds alsoFeeds
        rwa [← sameSrc, ← sameSlot] at atMoved
      · exact fun atMoved =>
          ⟨nodeUnclustered, tensor.1, tensor.2, feeds, atMoved⟩
    refine ⟨val tensor, ⟨tensor, feeds, rfl⟩, fun other => ?_⟩
    constructor
    · rintro ⟨moved, movedFeeds, rfl⟩
      rw [← here, (feedsAfter moved.1 moved.2).mp movedFeeds]
    · rintro rfl
      exact ⟨_, (feedsAfter _ _).mpr rfl, here.symm⟩

end Rewritten

section Placed

variable {interp : Interpretation V} {library : Library} {graph_id : Int}
  {device_config : List (String × String)} {graph : Graph}
  {manager : ClusterManager} {enc : Encapsulator} {order : graph.Enumeration}
  {outs : Int → List (Nat × Int)} {added : Int → List NodeDef} {keys : List Int}
  {last : Rewritten} {val : Nat × Int → V}

/-- Pass 3 stops after a run that succeeds on the clusters before. -/
theorem addEncapsulatesLeaving_done (entries : List (Int × String))
    (rewritten : Rewritten) :
    ∃ done next, done.Sublist entries ∧
      addEncapsulates library enc graph_id device_config done rewritten =
        .ok next ∧
      addEncapsulatesLeaving library enc graph_id device_config done rewritten =
        ⟨next.graph, .ok next⟩ ∧
      (addEncapsulatesLeaving library enc graph_id device_config entries
        rewritten).graph =
        next.graph := by
  induction entries generalizing rewritten with
  | nil => exact ⟨[], rewritten, .slnil, rfl, rfl, rfl⟩
  | cons entry entries ih =>
      cases first : addEncapsulate library enc graph_id device_config
        entry.1 entry.2 rewritten with
      | error error =>
          refine ⟨[], rewritten, List.nil_sublist _, rfl, rfl, ?_⟩
          rw [addEncapsulatesLeaving, first]
      | ok middle =>
          obtain ⟨done, next, earlier, success, leaving, stops⟩ := ih middle
          refine ⟨entry :: done, next, earlier.cons_cons entry, ?_, ?_, ?_⟩
          · rw [addEncapsulates, first]
            exact success
          · rw [addEncapsulatesLeaving, first]
            exact leaving
          · rw [addEncapsulatesLeaving, first]
            exact stops

/-- A rewrite fails in pass 3, or not at all. -/
theorem rewritePassLeaving_placed (library : Library) (graph_id : Int)
    (device_config : List (String × String)) (wf : graph.WF)
    (analysed : Analysed order manager outs added enc) :
    (∃ keys last,
      (rewritePassLeaving library enc graph_id device_config graph).graph =
        last.graph ∧ Placed library enc graph_id device_config graph keys last ∧
      Sprouted graph last.graph ∧
      ∀ c ∈ keys, ∃ node ∈ graph.op_nodes, getNodeCluster node = .ok c) ∨
    ∃ result, rewritePassLeaving library enc graph_id device_config graph =
        ⟨result.graph, .ok result⟩ ∧
      rewritePass library enc graph_id device_config graph = .ok result := by
  have inputs : ∀ c, ∀ input ∈ enc.cluster_input_map c,
      graph.HasNode input.1 := by
    intro c input member
    obtain ⟨edge, crosses, _, _, same⟩ :=
      analysed.inSource c (input.1, input.2.1) (List.mem_map_of_mem member)
    rw [(Prod.mk.inj same).1]
    exact wf.src edge crosses.member
  have start : Placed library enc graph_id device_config graph []
      ⟨graph, fun _ => none⟩ :=
    placed_init wf
  have status :=
    @addEncapsulatesLeaving_status library enc graph_id device_config
      enc.device_name_map ⟨graph, fun _ => none⟩
  obtain ⟨done, last, earlier, success, leaving, stops⟩ :=
    @addEncapsulatesLeaving_done library graph_id device_config enc
      enc.device_name_map ⟨graph, fun _ => none⟩
  cases made : addEncapsulates library enc graph_id device_config
    enc.device_name_map ⟨graph, fun _ => none⟩ with
  | ok rewritten =>
      right
      cases rewritePassLeaving_cases library graph_id device_config wf analysed
        with
      | inr passes => exact passes
      | inl fails =>
          obtain ⟨_, error, _, atPass, _, _⟩ := fails
          obtain ⟨keys, members, placed⟩ := start.addEncapsulates analysed.data
            analysed.devicesNodup (by simp) made
          have stands : ∀ c,
              (∃ node ∈ graph.op_nodes, getNodeCluster node = .ok c) →
              c ∈ keys := by
            intro c used
            rw [members, analysed.devices]
            exact .inl used
          obtain ⟨moved, atMoved⟩ :=
            (moved_init placed.tidy).moveEdges_succeeds wf analysed
              placed stands fun edge member =>
                (Graph.Enumeration.mem_edges (library.orders rewritten.graph)
                    edge).mp member
          simp only [rewritePass, bind, Except.bind, made, atMoved] at atPass
          cases atPass
  | error error =>
      left
      have distinct : (done.map Prod.fst).Nodup :=
        (earlier.map Prod.fst).nodup analysed.devicesNodup
      obtain ⟨keys, members, placed⟩ :=
        start.addEncapsulates analysed.data distinct
          (by simp) success
      obtain ⟨_, other, sameGraph, _, sprouted⟩ := start.addEncapsulatesLeaving
        (Sprouted.refl graph) analysed.data inputs distinct (by simp)
      rw [leaving] at sameGraph
      have sameLast : last.graph = other.graph := sameGraph
      refine ⟨keys, last, ?_, placed, sameLast ▸ sprouted, ?_⟩
      · rw [made] at status
        rw [rewritePassLeaving]
        generalize addEncapsulatesLeaving library enc graph_id device_config
          enc.device_name_map ⟨graph, fun _ => none⟩ = leaves at status stops ⊢
        obtain ⟨leftGraph, leftStatus⟩ := leaves
        dsimp only at status
        subst status
        exact stops
      · intro c member
        have inEntries := ((members c).mp member).resolve_right (by simp)
        exact (analysed.devices c).mp ((earlier.map Prod.fst).subset inEntries)

/-- The old values, and at the outputs of a new node those of its cluster. -/
noncomputable def placedVal (graph : Graph) (outs : Int → List (Nat × Int))
    (last : Rewritten) (val : Nat × Int → V) : Nat × Int → V := by
  classical
  exact fun tensor =>
    if graph.HasNode tensor.1 then val tensor
    else if mapped : ∃ c, last.cluster_node_map c = some tensor.1 then
      val ((outs mapped.choose).getD tensor.2.toNat (0, 0))
    else val tensor

theorem placedVal_old {id : Nat} (idNode : graph.HasNode id) (slot : Int) :
    placedVal graph outs last val (id, slot) = val (id, slot) :=
  if_pos idNode

theorem placedVal_new
    (placed : Placed library enc graph_id device_config graph keys last)
    {c : Int} {id k : Nat} {tensor : Nat × Int}
    (mapped : last.cluster_node_map c = some id)
    (atK : (outs c)[k]? = some tensor) :
    placedVal graph outs last val (id, (k : Int)) = val tensor := by
  have some_ : ∃ d, last.cluster_node_map d = some id := ⟨c, mapped⟩
  obtain ⟨notOld, node, nodeIn, nodeId, isNode⟩ := placed.placed c id mapped
  obtain ⟨_, other, otherIn, otherId, isOther⟩ :=
    placed.placed _ id some_.choose_spec
  have sameCluster : c = some_.choose :=
    isNode.cluster_eq isOther placed.ids nodeIn otherIn
      (nodeId.trans otherId.symm)
  rw [placedVal]
  dsimp only
  rw [if_neg notOld, dif_pos some_, ← sameCluster, Int.toNat_natCast,
    List.getD_eq_getElem?_getD, atK, Option.getD_some]

/-- The graph before a failed pass 3 is evaluated together with its new
nodes. -/
theorem evaluable_placed (analysed : Analysed order manager outs added enc)
    (encapsulable : Encapsulable manager graph)
    (unprocessed : Unprocessed graph) (evaluates : graph.Evaluates interp val)
    (placed : Placed library enc graph_id device_config graph keys last)
    (sprouted : Sprouted graph last.graph)
    (used : ∀ c ∈ keys, ∃ node ∈ graph.op_nodes, getNodeCluster node = .ok c) :
    EvaluatesBridged enc.manager interp last.graph
      (placedVal graph outs last val) := by
  have wf := encapsulable.wf
  have old : ∀ {u v : Nat} {a b : Int}, last.graph.Feeds u a v b →
      placedVal graph outs last val (u, a) = val (u, a) :=
    fun feeds => placedVal_old (sprouted.feeds_src wf feeds) _
  constructor
  case op =>
    intro node member notEncapsulate
    obtain ⟨inLast, isOp⟩ := List.mem_filter.mp member
    cases placed.new node inLast with
    | inr new =>
        obtain ⟨c, _, encapsulate⟩ := new
        exact absurd (encapsulate_type encapsulate) notEncapsulate
    | inl inGraph =>
        have idNode : graph.HasNode node.id := ⟨node, inGraph, rfl⟩
        obtain ⟨values, reads, computes⟩ :=
          evaluates node (List.mem_filter.mpr ⟨inGraph, isOp⟩)
        refine ⟨values, ?_, fun slot => ?_⟩
        · apply List.Forall₂.imp _ reads
          rintro input value ⟨tensor, feeds, rfl⟩
          have stillFeeds := (sprouted.feeds_old idNode _ _ _).mpr feeds
          exact ⟨tensor, stillFeeds, (old stillFeeds).symm⟩
        · rw [placedVal_old idNode, computes]
  case cluster =>
    intro node member isEncapsulate
    have inLast := (List.mem_filter.mp member).1
    cases placed.new node inLast with
    | inl inGraph => exact absurd isEncapsulate (unprocessed node inGraph)
    | inr new =>
        obtain ⟨c, mapped, encapsulate⟩ := new
        obtain ⟨inside, insideOp, inCluster⟩ :=
          used c ((placed.mapped c).mp (by simp [mapped]))
        refine ⟨c, ⟨added c⟩, (enc.inputsOf c).map val,
          insideVal graph val (enc.inputsOf c), encapsulate.cluster,
          analysed.getClusterGraph encapsulable insideOp inCluster, ?_,
          inside_exists analysed encapsulable evaluates c, ?_⟩
        · have lengths :
              node.num_inputs = ((enc.inputsOf c).map val).length := by
            rw [encapsulate.num_inputs, List.length_map]
          rw [Graph.Reads, lengths]
          apply forall₂_range
          intro k value atK
          rw [List.getElem?_map] at atK
          obtain ⟨tensor, atTensor, rfl⟩ := Option.map_eq_some_iff.mp atK
          have feeds : last.graph.Feeds tensor.1 tensor.2 node.id k :=
            (placed.feeds _ _ _ _).mpr (.inr ⟨c, mapped, k, rfl, atTensor⟩)
          exact ⟨tensor, feeds, (old feeds).symm⟩
        · intro index inOutputs
          rw [encapsulate.num_outputs, analysed.outLength] at inOutputs
          have atIndex := List.getElem?_eq_getElem inOutputs
          apply (returns_iff analysed encapsulable
            (fun other otherOp _ => insideVal_node wf otherOp) atIndex).mpr
          exact placedVal_new placed mapped atIndex

theorem preserves_placed (analysed : Analysed order manager outs added enc)
    (encapsulable : Encapsulable manager graph)
    (unprocessed : Unprocessed graph) (evaluates : graph.Evaluates interp val)
    (placed : Placed library enc graph_id device_config graph keys last)
    (sprouted : Sprouted graph last.graph)
    (used : ∀ c ∈ keys, ∃ node ∈ graph.op_nodes, getNodeCluster node = .ok c) :
    Preserves enc.manager interp graph val last.graph := by
  have wf := encapsulable.wf
  have same : ∀ after, EvaluatesBridged enc.manager interp last.graph after →
      ∀ node ∈ graph.op_nodes, ∀ slot,
      after (node.id, slot) = val (node.id, slot) := by
    intro after solves
    apply evaluates_unique wf encapsulable.acyclic evaluates
    intro node member
    obtain ⟨inGraph, isOp⟩ := List.mem_filter.mp member
    exact (sprouted.computes_old wf (fun _ _ _ => rfl) inGraph).mp
      (solves.op node (List.mem_filter.mpr ⟨sprouted.nodes node inGraph, isOp⟩)
        (unprocessed node inGraph))
  constructor
  case evaluable =>
    exact ⟨_, evaluable_placed analysed encapsulable unprocessed evaluates
      placed sprouted used⟩
  case same =>
    intro node member _
    obtain ⟨inGraph, isOp⟩ := List.mem_filter.mp member
    exact ⟨node, List.mem_filter.mpr ⟨placed.old node inGraph, isOp⟩,
      .refl node⟩
  case origin =>
    intro other member
    obtain ⟨inLast, isOp⟩ := List.mem_filter.mp member
    cases placed.new other inLast with
    | inl old =>
        exact .inl ⟨other, List.mem_filter.mpr ⟨old, isOp⟩, .refl other⟩
    | inr new =>
        obtain ⟨_, _, encapsulate⟩ := new
        exact .inr (encapsulate_stands encapsulate)
  case output =>
    exact fun after solves node member _ => same after solves node member
  case input =>
    intro after solves node member _ input inside
    obtain ⟨values, reads, _⟩ := evaluates node member
    apply inputValue_of_same wf reads inside
    · exact fun u a =>
        sprouted.feeds_old ⟨node, (List.mem_filter.mp member).1, rfl⟩ u a input
    · intro u a feeds
      have here := same after solves _ (feeds_ends wf feeds).1.2 a
      rwa [Graph.node_id] at here

end Placed

section Whole

variable {interp : Interpretation V} {graph : Graph} {manager : ClusterManager}
  {val : Nat × Int → V}

theorem preserves_refl (wf : graph.WF) (acyclic : Acyclic graph.DataEdge)
    (unprocessed : Unprocessed graph) (evaluates : graph.Evaluates interp val) :
    Preserves manager interp graph val graph := by
  have same : ∀ after, EvaluatesBridged manager interp graph after →
      ∀ node ∈ graph.op_nodes, ∀ slot,
      after (node.id, slot) = val (node.id, slot) :=
    fun after solves => evaluates_unique wf acyclic evaluates
      ((evaluatesBridged_iff unprocessed).mp solves)
  constructor
  case evaluable =>
    exact ⟨val, (evaluatesBridged_iff unprocessed).mpr evaluates⟩
  case same =>
    exact fun node member _ => ⟨node, member, .refl node⟩
  case origin => exact fun other member => .inl ⟨other, member, .refl other⟩
  case output =>
    exact fun after solves node member _ => same after solves node member
  case input =>
    intro after solves node member _ input inside
    obtain ⟨values, reads, _⟩ := evaluates node member
    apply inputValue_of_same wf reads inside (fun _ _ => Iff.rfl)
    intro u a feeds
    have here := same after solves _ (feeds_ends wf feeds).1.2 a
    rwa [Graph.node_id] at here

/-- Preservation does not depend on what the nodes are annotated with. -/
theorem Preserves.of_mapNodes {update : Node → Node} {next : Graph}
    (relabels : Graph.Relabels update)
    (preserves : Preserves manager interp (graph.mapNodes update) val next) :
    Preserves manager interp graph val next := by
  have there : ∀ node ∈ graph.op_nodes,
      update node ∈ (graph.mapNodes update).op_nodes :=
    fun node member => relabels.op_nodes.mpr ⟨node, member, rfl⟩
  constructor
  case evaluable => exact preserves.evaluable
  case same =>
    intro node member idNode
    obtain ⟨other, inNext, same⟩ :=
      preserves.same _ (there node member) (by rwa [relabels.id])
    exact ⟨other, inNext, same.id.trans (relabels.id node),
      same.name.trans (relabels.name node),
      same.type.trans (relabels.type node)⟩
  case origin =>
    intro other member
    cases preserves.origin other member with
    | inr new => exact .inr new
    | inl old =>
        obtain ⟨made, madeIn, same⟩ := old
        obtain ⟨node, nodeIn, rfl⟩ := relabels.op_nodes.mp madeIn
        exact .inl ⟨node, nodeIn, same.id.trans (relabels.id node),
          same.name.trans (relabels.name node),
          same.type.trans (relabels.type node)⟩
  case output =>
    intro after solves node member idNode slot
    have here := preserves.output after solves _ (there node member)
      (by rwa [relabels.id]) slot
    rwa [relabels.id] at here
  case input =>
    intro after solves node member idNode input inside
    have here := preserves.input after solves _ (there node member)
      (by rwa [relabels.id]) input (by rwa [relabels.inputs])
    rwa [relabels.id] at here

theorem Kept.of_mapNodes {update : Node → Node} {next : Graph}
    {inner outer : Node → Prop} (relabels : Graph.Relabels update)
    (moves : ∀ node ∈ graph.op_nodes, inner (update node) → outer node)
    (kept : Kept manager interp (graph.mapNodes update) inner val next) :
    Kept manager interp graph outer val next where
  toPreserves := kept.toPreserves.of_mapNodes relabels
  stays := by
    intro node member notMoved
    have here := kept.stays _ (relabels.op_nodes.mpr ⟨node, member, rfl⟩)
      fun moved => notMoved (moves node member moved)
    rwa [relabels.id] at here
  copies := by
    intro node member isEncapsulate idx gdef hasCluster stored node_def inDef
      notArg notRetval
    obtain ⟨made, madeIn, moved, named⟩ :=
      kept.copies node member isEncapsulate idx gdef
        hasCluster stored node_def inDef notArg notRetval
    obtain ⟨old, oldIn, rfl⟩ := relabels.op_nodes.mp madeIn
    exact ⟨old, oldIn, moves old oldIn moved, by rw [← named, relabels.name]⟩

theorem kept_refl (wf : graph.WF) (acyclic : Acyclic graph.DataEdge)
    (unprocessed : Unprocessed graph) (evaluates : graph.Evaluates interp val)
    (moves : Node → Prop) : Kept manager interp graph moves val graph where
  toPreserves := preserves_refl wf acyclic unprocessed evaluates
  stays := fun node member _ => ⟨node, (List.mem_filter.mp member).1, rfl⟩
  copies := fun node member isEncapsulate =>
    absurd isEncapsulate (unprocessed node (List.mem_filter.mp member).1)

/-- Whether encapsulation fails or not, the graph that is left keeps the values,
and only nodes in clusters went into clusters. -/
theorem encapsulateClustersLeaving_kept (environment : Environment)
    (library : Library) (graph_id : Int)
    (device_config : List (String × String))
    (encapsulable : Encapsulable manager graph)
    (unprocessed : Unprocessed graph) (evaluates : graph.Evaluates interp val) :
    Kept (managerAfter (library.orders graph) manager) interp graph
      (fun node => isClustered node = true) val
      (encapsulateClustersLeaving environment library manager graph_id
        device_config graph).graph := by
  have wf := encapsulable.wf
  rw [encapsulateClustersLeaving, managerAfter]
  cases analysis : analysisPass (library.orders graph) manager with
  | error error =>
      exact kept_refl wf encapsulable.acyclic unprocessed evaluates _
  | ok enc =>
      obtain ⟨outs, added, analysed⟩ := analysisPass_analysed wf analysis
      cases rewritePassLeaving_placed library graph_id device_config wf analysed
        with
      | inl fails =>
          obtain ⟨keys, last, atLeft, placed, sprouted, used⟩ := fails
          have kept : Kept enc.manager interp graph
              (fun node => isClustered node = true) val
              last.graph := by
            constructor
            case toPreserves =>
              exact preserves_placed analysed encapsulable unprocessed evaluates
                placed sprouted
                used
            case stays =>
              exact fun node member _ =>
                ⟨node, sprouted.nodes node (List.mem_filter.mp member).1, rfl⟩
            case copies =>
              intro node member isEncapsulate idx gdef hasCluster stored
                node_def inDef
              cases placed.new node (List.mem_filter.mp member).1 with
              | inl old => exact absurd isEncapsulate (unprocessed node old)
              | inr new =>
                  obtain ⟨c, mapped, encapsulate⟩ := new
                  exact copies_encapsulate analysed encapsulable encapsulate
                    (used c ((placed.mapped c).mp (by simp [mapped])))
                    hasCluster stored inDef
          rw [← atLeft] at kept
          dsimp only
          split
          case h_1 left error same =>
            rw [same] at kept
            exact kept
          case h_2 left rewritten same =>
            rw [same] at kept
            split
            · exact kept
            · exact kept
      | inr passes =>
          obtain ⟨result, atLeft, atPass⟩ := passes
          have rewired := rewritePass_rewired wf analysed atPass
          have kept : Kept enc.manager interp graph
              (fun node => isClustered node = true) val
              result.graph := by
            constructor
            case toPreserves =>
              exact preserves_rewritten analysed encapsulable unprocessed
                evaluates rewired
            case stays =>
              intro node member unclustered
              have stays := rewired.kept_op member (by simpa using unclustered)
              exact ⟨node, (List.mem_filter.mp stays).1, rfl⟩
            case copies =>
              intro node member isEncapsulate idx gdef hasCluster stored
                node_def inDef
              cases rewired.nodes node (List.mem_filter.mp member).1 with
              | inl old => exact absurd isEncapsulate (unprocessed node old.1)
              | inr new =>
                  obtain ⟨c, mapped, encapsulate⟩ := new
                  exact copies_encapsulate analysed encapsulable encapsulate
                    ((rewired.mapped c).mp (by simp [mapped])) hasCluster
                    stored inDef
          dsimp only
          rw [atLeft]
          dsimp only
          split
          · exact kept
          · exact kept

end Whole

end NGraphBridge.NGraphRewritePass
