import NGraphBridge.EncapsulateClusters.Copies
import NGraphBridge.EncapsulateClusters.Rewrite
import NGraphBridge.Lib.Digraph

/-!
# Encapsulation keeps the values

The rewritten graph is evaluated with every new node standing for the `GraphDef`
of its cluster.  What an op node that is left reads is what it read before.
-/

namespace NGraphBridge.EncapsulateClusters

open TF MarkForClustering AssignClusters NGraphBridge.Digraph

variable {V : Type*}

/-- A new node computes its cluster: its inputs are the arguments and its
outputs are the results. -/
def ComputesCluster (manager : ClusterManager) (interp : Interpretation V)
    (graph : Graph) (val : Nat × Int → V) (node : Node) : Prop :=
  ∃ cluster_idx gdef args local_, getNodeAttrInt node.attrs "ngraph_cluster" =
    .ok cluster_idx ∧
    manager.getClusterGraph cluster_idx = some gdef ∧
    graph.Reads val node.id node.num_inputs args ∧
    gdef.Evaluates interp args local_ ∧
    ∀ index < node.num_outputs, gdef.Returns local_ index (val (node.id, index))

/-- An evaluation of the rewritten graph. -/
structure EvaluatesRewritten (interp : Interpretation V) (outcome : Outcome)
    (val : Nat × Int → V) : Prop where
  op : ∀ node ∈ outcome.rewritten.graph.op_nodes,
    (∀ c, outcome.rewritten.cluster_node_map c ≠ some node.id) →
    outcome.rewritten.graph.Computes interp val node
  cluster : ∀ node ∈ outcome.rewritten.graph.op_nodes, ∀ c,
    outcome.rewritten.cluster_node_map c = some node.id →
    ComputesCluster outcome.enc.manager interp outcome.rewritten.graph val node

/-- The cluster of a node, or the node alone. -/
def blockOf (graph : Graph) (id : Nat) : Int ⊕ Nat :=
  if isClustered (graph.node id) then .inl (clusterIdx (graph.node id))
  else .inr id

/-- What the callers of the pass promise. -/
structure Encapsulable (manager : ClusterManager) (graph : Graph) : Prop where
  wf : graph.WF
  legal : ∀ node ∈ graph.nodes, LegalName node.name
  generated : ∀ node ∈ graph.op_nodes, ∀ k, node.name ≠ inputName k
  pure : ∀ node ∈ graph.op_nodes, isClustered node = true →
    node.type_string ≠ "_Arg" ∧ node.type_string ≠ "_Retval"
  empty : ∀ node ∈ graph.op_nodes, ∀ c gdef, getNodeCluster node = .ok c →
    manager.getClusterGraph c = some gdef → gdef = .empty
  acyclic : Acyclic graph.DataEdge
  blocks : Acyclic (quotient graph.DataEdge (blockOf graph))

section Values

variable {interp : Interpretation V} {library : Library} {graph_id : Int}
  {device_config : List (String × String)} {graph : Graph}
  {manager : ClusterManager} {enc : Encapsulator} {order : graph.Enumeration}
  {outs : Int → List (Nat × Int)} {added : Int → List NodeDef}
  {result : Rewritten} {val : Nat × Int → V}

theorem Analysed.getClusterGraph
    (analysed : Analysed order manager outs added enc)
    (encapsulable : Encapsulable manager graph) {node : Node}
    (member : node ∈ graph.op_nodes) {c : Int}
    (inCluster : getNodeCluster node = .ok c) :
    enc.manager.getClusterGraph c = some ⟨added c⟩ := by
  obtain ⟨gdef, found⟩ := analysed.inManager node member c inCluster
  have empty := encapsulable.empty node member c gdef inCluster found
  rw [analysed.appended, found, empty]
  rfl

/-- A valuation inside a cluster that agrees with the graph on what the nodes of
the cluster read. -/
def AgreesInside (graph : Graph) (enc : Encapsulator) (c : Int)
    (val : Nat × Int → V) (local_ : String × Int → V) (id : Nat) : Prop :=
  ∀ src slot input, graph.Feeds src slot id input →
    local_ (localTensor graph enc c (src, slot)) = val (src, slot)

/-- Then a copy reads what its node reads. -/
theorem copy_inputValues (analysed : Analysed order manager outs added enc)
    (encapsulable : Encapsulable manager graph) {c : Int} {node : Node}
    {node_def : NodeDef} {values : List V} {local_ : String × Int → V}
    (reads : graph.Reads val node.id node.num_inputs values)
    (copied : copyDef graph (order.in_edges node.id) enc c node = .ok node_def)
    (agrees : AgreesInside graph enc c val local_ node.id) :
    node_def.name = node.name ∧ node_def.op = node.type_string ∧
      node_def.attr = node.attrs ∧
      node_def.inputValues local_ = values := by
  have fed : ∀ input < node.num_inputs, ∃ src slot,
      graph.Feeds src slot node.id input := by
    intro input inside
    obtain ⟨tensor, feeds, _⟩ := reads.input inside
    exact ⟨tensor.1, tensor.2, feeds⟩
  obtain ⟨name, op, attr, texts⟩ :=
    copyDef_inputs encapsulable.wf encapsulable.legal analysed fed copied
  refine ⟨name, op, attr, ?_⟩
  refine (forall₂_eq_map texts reads ?_).symm
  intro input _ text value stands isValue
  obtain ⟨src, slot, feeds, parsed⟩ := stands
  obtain ⟨tensor, alsoFeeds, rfl⟩ := isValue
  obtain ⟨sameSrc, sameSlot⟩ := encapsulable.wf.single_feeds alsoFeeds feeds
  rw [parsed, agrees src slot input feeds, ← sameSrc, ← sameSlot]

theorem dataEdge_wellFounded (wf : graph.WF)
    (acyclic : Acyclic graph.DataEdge) :
    WellFounded graph.DataEdge := by
  refine acyclic.wellFounded (graph.nodes.map Node.id) ?_
  rintro _ _ ⟨_, _, edge, member, _, rfl, _, _, _⟩
  obtain ⟨node, inNodes, same⟩ := wf.src edge member
  exact same ▸ List.mem_map_of_mem inNodes

theorem feeds_ends (wf : graph.WF) {src id : Nat} {slot input : Int}
    (feeds : graph.Feeds src slot id input) :
    (graph.HasNode src ∧ graph.node src ∈ graph.op_nodes) ∧
      graph.HasNode id ∧ graph.node id ∈ graph.op_nodes := by
  obtain ⟨edge, member, data, rfl, _, rfl, _⟩ := feeds
  obtain ⟨srcOp, dstOp⟩ := wf.opEnds edge member data
  have srcNode := wf.src edge member
  have dstNode := wf.dst edge member
  exact ⟨⟨srcNode, List.mem_filter.mpr ⟨(wf.node_mem srcNode).1, srcOp⟩⟩,
    dstNode, List.mem_filter.mpr ⟨(wf.node_mem dstNode).1, dstOp⟩⟩

theorem Analysed.clustered_of_idx
    (analysed : Analysed order manager outs added enc) {c : Int}
    {node other : Node} (member : node ∈ graph.op_nodes)
    (inCluster : getNodeCluster node = .ok c) (same : clusterIdx other = c) :
    getNodeCluster other = .ok c := by
  obtain ⟨clustered, atC⟩ := clusterIdx_of inCluster
  have nonneg := analysed.clusterIdx_nonneg member clustered
  cases otherClustered : isClustered other with
  | true => rw [getNodeCluster_of otherClustered, same]
  | false =>
      have alone := clusterIdx_unclustered otherClustered
      omega

/-- What agrees on the nodes and the arguments of a cluster agrees on what its
nodes read. -/
theorem agreesInside_of (analysed : Analysed order manager outs added enc)
    (encapsulable : Encapsulable manager graph) {c : Int} {node : Node}
    {local_ : String × Int → V} (member : node ∈ graph.op_nodes)
    (inCluster : getNodeCluster node = .ok c)
    (own : ∀ src ∈ graph.op_nodes, getNodeCluster src = .ok c →
      graph.DataEdge src.id node.id →
      ∀ slot, local_ (src.name, slot) = val (src.id, slot))
    (argument : ∀ (k : Nat) tensor, (enc.inputsOf c)[k]? = some tensor →
      local_ (inputName k, 0) = val tensor) :
    AgreesInside graph enc c val local_ node.id := by
  intro src slot input feeds
  have wf := encapsulable.wf
  obtain ⟨⟨srcNode, srcOp⟩, _⟩ := feeds_ends wf feeds
  have nodeSelf := wf.node_eq (List.mem_filter.mp member).1
  obtain ⟨clustered, atC⟩ := clusterIdx_of inCluster
  obtain ⟨edge, inGraph, data, rfl, rfl, atDst, atInput⟩ := feeds
  have cases_ := analysed.localTensor wf inGraph data
    (by rw [atDst, nodeSelf, clustered]) (by rw [atDst, nodeSelf, atC])
  cases cases_ with
  | inl inside =>
      obtain ⟨together, called⟩ := inside
      have srcCluster := analysed.clustered_of_idx member inCluster together
      have srcId : (graph.node edge.src).id = edge.src := Graph.node_id edge.src
      have here := own _ srcOp srcCluster
        (by rw [srcId]; exact ⟨_, _, edge, inGraph, data, rfl, rfl,
            atDst, atInput⟩)
        edge.src_output
      rw [called, here, srcId]
  | inr border =>
      obtain ⟨k, atK, called⟩ := border
      rw [called, argument k _ atK]

theorem Analysed.argument (analysed : Analysed order manager outs added enc)
    {c : Int} {k : Nat} {tensor : Nat × Int}
    (atK : (enc.inputsOf c)[k]? = some tensor) :
    ∃ src dt, argDef k k src dt ∈ added c := by
  rw [Encapsulator.inputsOf, List.getElem?_map] at atK
  obtain ⟨input, found, _⟩ := Option.map_eq_some_iff.mp atK
  exact ⟨graph.node input.1, input.2.2,
    (analysed.defs c _).mpr (.inl (.inl ⟨k, input, found, rfl⟩))⟩

/-- Every evaluation of the `GraphDef` gives the tensors of the cluster their
values. -/
theorem inside_unique (analysed : Analysed order manager outs added enc)
    (encapsulable : Encapsulable manager graph)
    (evaluates : graph.Evaluates interp val) {c : Int} {args : List V}
    {local_ : String × Int → V}
    (arguments : ∀ (k : Nat) tensor, (enc.inputsOf c)[k]? = some tensor →
      args[k]? = some (val tensor))
    (solves : GraphDef.Evaluates ⟨added c⟩ interp args local_) :
    ∀ node ∈ graph.op_nodes, getNodeCluster node = .ok c →
      ∀ slot, local_ (node.name, slot) = val (node.id, slot) := by
  have argument : ∀ (k : Nat) tensor, (enc.inputsOf c)[k]? = some tensor →
      local_ (inputName k, 0) = val tensor := by
    intro k tensor atK
    obtain ⟨src, dt, inDef⟩ := analysed.argument atK
    obtain ⟨index, atIndex, value⟩ := solves.arg _ inDef rfl
    have sameIndex : index = k := by
      have read : (Except.ok (k : Int) : StatusOr Int) = .ok index := atIndex
      exact (Int.ofNat_inj.mp (Except.ok.inj read)).symm
    rw [sameIndex, arguments k tensor atK] at value
    exact (Option.some.inj value).symm
  have byId : ∀ id, ∀ node ∈ graph.op_nodes, node.id = id →
      getNodeCluster node = .ok c →
      ∀ slot, local_ (node.name, slot) = val (node.id, slot) := by
    intro id
    induction id
      using (dataEdge_wellFounded encapsulable.wf
        encapsulable.acyclic).induction with
    | _ id ih =>
        intro node member atId inCluster slot
        have agrees := agreesInside_of analysed encapsulable member inCluster
          (fun src srcOp srcCluster step =>
            ih src.id (atId ▸ step) src srcOp rfl srcCluster)
          argument
        obtain ⟨values, reads, computes⟩ := evaluates node member
        obtain ⟨node_def, copied⟩ := analysed.copies node member c inCluster
        obtain ⟨name, op, attr, inputs⟩ :=
          copy_inputValues analysed encapsulable reads copied agrees
        have inDef := (analysed.defs c node_def).mpr
          (.inr ⟨node, member, inCluster, copied⟩)
        obtain ⟨notArg, notRetval⟩ :=
          encapsulable.pure node member (clusterIdx_of inCluster).1
        have here := solves.op node_def inDef (op ▸ notArg)
          (op ▸ notRetval) slot
        rw [name, op, attr, inputs] at here
        rw [here, computes]
  exact fun node member => byId node.id node member rfl

/-- The results of the `GraphDef` are the tensors that the cluster offers. -/
theorem returns_iff (analysed : Analysed order manager outs added enc)
    (encapsulable : Encapsulable manager graph) {c : Int}
    {local_ : String × Int → V}
    (own : ∀ node ∈ graph.op_nodes, getNodeCluster node = .ok c →
      ∀ slot, local_ (node.name, slot) = val (node.id, slot))
    {index : Nat} {tensor : Nat × Int}
    (atIndex : (outs c)[index]? = some tensor) {value : V} :
    GraphDef.Returns ⟨added c⟩ local_ index value ↔ value = val tensor := by
  have wf := encapsulable.wf
  have made : ∀ (position : Nat) output dt, (outs c)[position]? = some output →
      (retvalDef position position (graph.node output.1) output.2
        dt).inputValues local_ =
        [val output] := by
    intro position output dt atPosition
    obtain ⟨edge, crosses, clustered, atC, rfl⟩ :=
      analysed.outSource c output (List.mem_of_getElem? atPosition)
    obtain ⟨srcOp, _⟩ := wf.opEnds edge crosses.member crosses.data
    obtain ⟨srcIn, srcId⟩ := wf.node_mem (wf.src edge crosses.member)
    have nonneg := (wf.slots edge crosses.member crosses.data).1.1
    obtain ⟨text, single, parsed⟩ := @retvalDef_inputs position position _ _ dt
      (encapsulable.legal _ srcIn) nonneg
    have here := own _ (List.mem_filter.mpr ⟨srcIn, srcOp⟩)
      (by rw [getNodeCluster_of clustered, atC]) edge.src_output
    rw [srcId] at here
    rw [NodeDef.inputValues, single, List.map_singleton, parsed, here]
  constructor
  · rintro ⟨node_def, inDef, isRetval, hasIndex, inputs⟩
    cases (analysed.defs c node_def).mp inDef with
    | inl border =>
        cases border with
        | inl argument =>
            obtain ⟨k, input, _, rfl⟩ := argument
            exact absurd isRetval (by simp [argDef])
        | inr retval =>
            obtain ⟨k, output, dt, atK, _, rfl⟩ := retval
            have read : (Except.ok (k : Int) : StatusOr Int) = .ok index :=
              hasIndex
            have sameIndex := Int.ofNat_inj.mp (Except.ok.inj read)
            rw [sameIndex, atIndex] at atK
            obtain rfl := Option.some.inj atK
            rw [sameIndex, made index tensor dt atIndex] at inputs
            exact (List.singleton_inj.mp inputs).symm
    | inr copy =>
        obtain ⟨node, member, inCluster, copied⟩ := copy
        obtain ⟨_, notRetval⟩ :=
          encapsulable.pure node member (clusterIdx_of inCluster).1
        obtain ⟨_, _, success⟩ := bind_ok copied
        obtain rfl := Except.ok.inj success
        exact absurd isRetval notRetval
  · rintro rfl
    have dtThere : index < (enc.cluster_output_dt_map c).length := by
      rw [analysed.outLength]
      exact (List.getElem?_eq_some_iff.mp atIndex).1
    have inDef := (analysed.defs c _).mpr (.inl (.inr
      ⟨index, tensor, _, atIndex, List.getElem?_eq_getElem dtThere, rfl⟩))
    exact ⟨_, inDef, rfl, rfl, made index tensor _ atIndex⟩

/-- The values inside a cluster, by the names of its `GraphDef`. -/
def insideVal (graph : Graph) (val : Nat × Int → V)
    (inputs : List (Nat × Int)) :
    String × Int → V
  | (name, slot) =>
      match graph.op_nodes.find? (fun node => node.name == name) with
      | some node => val (node.id, slot)
      | none =>
          match (List.range inputs.length).find? (fun k => inputName k == name)
            with
          | some k => val (inputs.getD k (0, 0))
          | none => val (0, 0)

theorem insideVal_node (wf : graph.WF) {inputs : List (Nat × Int)} {node : Node}
    (member : node ∈ graph.op_nodes) (slot : Int) :
    insideVal graph val inputs (node.name, slot) = val (node.id, slot) := by
  unfold insideVal
  cases found : graph.op_nodes.find? (fun other => other.name == node.name) with
  | none => exact absurd (List.find?_eq_none.mp found node member) (by simp)
  | some other =>
      have otherIn := (List.mem_filter.mp (List.mem_of_find?_eq_some found)).1
      have sameName : other.name = node.name := by
        simpa using List.find?_some found
      dsimp only
      rw [found]
      dsimp only
      rw [wf.name_injective otherIn (List.mem_filter.mp member).1 sameName]

theorem insideVal_argument (encapsulable : Encapsulable manager graph)
    {inputs : List (Nat × Int)} {k : Nat} {tensor : Nat × Int}
    (atK : inputs[k]? = some tensor) :
    insideVal graph val inputs (inputName k, 0) = val tensor := by
  unfold insideVal
  have noNode : graph.op_nodes.find? (fun node => node.name == inputName k) =
      none := by
    rw [List.find?_eq_none]
    intro node member
    simpa using encapsulable.generated node member k
  dsimp only
  rw [noNode]
  dsimp only
  cases found : (List.range inputs.length).find?
    (fun l => inputName l == inputName k) with
  | none =>
      have inside := (List.getElem?_eq_some_iff.mp atK).1
      exact absurd (List.find?_eq_none.mp found k (List.mem_range.mpr inside))
        (by simp)
  | some l =>
      have same : inputName l = inputName k := by
        simpa using List.find?_some found
      dsimp only
      rw [inputName_injective same, List.getD_eq_getElem?_getD, atK,
        Option.getD_some]

/-- The `GraphDef` of a cluster has an evaluation. -/
theorem inside_exists (analysed : Analysed order manager outs added enc)
    (encapsulable : Encapsulable manager graph)
    (evaluates : graph.Evaluates interp val) (c : Int) :
    GraphDef.Evaluates ⟨added c⟩ interp ((enc.inputsOf c).map val)
      (insideVal graph val (enc.inputsOf c)) := by
  constructor
  case arg =>
    intro node_def inDef isArg
    cases (analysed.defs c node_def).mp inDef with
    | inl border =>
        cases border with
        | inl argument =>
            obtain ⟨k, input, atK, rfl⟩ := argument
            have atInput :
                (enc.inputsOf c)[k]? = some (input.1, input.2.1) := by
              rw [Encapsulator.inputsOf, List.getElem?_map, atK]
              rfl
            refine ⟨k, rfl, ?_⟩
            rw [List.getElem?_map, atInput, Option.map_some]
            exact congrArg some (insideVal_argument encapsulable atInput).symm
        | inr retval =>
            obtain ⟨k, output, dt, _, _, rfl⟩ := retval
            exact absurd isArg (by simp [retvalDef])
    | inr copy =>
        obtain ⟨node, member, inCluster, copied⟩ := copy
        obtain ⟨notArg, _⟩ :=
          encapsulable.pure node member (clusterIdx_of inCluster).1
        obtain ⟨_, _, success⟩ := bind_ok copied
        obtain rfl := Except.ok.inj success
        exact absurd isArg notArg
  case op =>
    intro node_def inDef notArg notRetval slot
    cases (analysed.defs c node_def).mp inDef with
    | inl border =>
        cases border with
        | inl argument =>
            obtain ⟨k, input, _, rfl⟩ := argument
            exact absurd rfl notArg
        | inr retval =>
            obtain ⟨k, output, dt, _, _, rfl⟩ := retval
            exact absurd rfl notRetval
    | inr copy =>
        obtain ⟨node, member, inCluster, copied⟩ := copy
        have agrees : AgreesInside graph enc c val
            (insideVal graph val (enc.inputsOf c)) node.id :=
          agreesInside_of analysed encapsulable member inCluster
            (fun src srcOp _ _ => insideVal_node encapsulable.wf srcOp)
            (fun k tensor atK => insideVal_argument encapsulable atK)
        obtain ⟨values, reads, computes⟩ := evaluates node member
        obtain ⟨name, op, attr, inputs⟩ :=
          copy_inputValues analysed encapsulable reads copied agrees
        rw [name, op, attr, inputs, insideVal_node encapsulable.wf member,
          computes]

/-- The tensors that the rewritten graph still has. -/
def Shown (graph : Graph) (outs : Int → List (Nat × Int))
    (tensor : Nat × Int) : Prop :=
  graph.node tensor.1 ∈ graph.op_nodes ∧
    (isClustered (graph.node tensor.1) = true →
    tensor ∈ outs (clusterIdx (graph.node tensor.1)))

theorem shown_of_read (analysed : Analysed order manager outs added enc)
    (wf : graph.WF) {src v : Nat} {slot b : Int}
    (feeds : graph.Feeds src slot v b)
    (unclustered : isClustered (graph.node v) = false) :
    Shown graph outs (src, slot) := by
  obtain ⟨⟨_, srcOp⟩, _⟩ := feeds_ends wf feeds
  refine ⟨srcOp, fun clustered => ?_⟩
  obtain ⟨edge, member, data, rfl, rfl, rfl, _⟩ := feeds
  have nonneg := analysed.clusterIdx_nonneg srcOp clustered
  have alone := clusterIdx_unclustered unclustered
  exact (analysed.covered edge ⟨member, data, by omega⟩).2 clustered

theorem shown_of_crossing (analysed : Analysed order manager outs added enc)
    (wf : graph.WF) {edge : Edge} (crosses : Crosses graph edge) :
    Shown graph outs (edge.src, edge.src_output) := by
  have ends := feeds_ends wf
    ⟨edge, crosses.member, crosses.data, rfl, rfl, rfl, rfl⟩
  exact ⟨ends.1.2, (analysed.covered edge crosses).2⟩

theorem shown_of_output (analysed : Analysed order manager outs added enc)
    (wf : graph.WF) {c : Int} {tensor : Nat × Int} (member : tensor ∈ outs c) :
    Shown graph outs tensor ∧ isClustered (graph.node tensor.1) = true ∧
      clusterIdx (graph.node tensor.1) = c := by
  obtain ⟨edge, crosses, clustered, atC, rfl⟩ :=
    analysed.outSource c tensor member
  exact ⟨shown_of_crossing analysed wf crosses, clustered, atC⟩

theorem moved_unclustered (analysed : Analysed order manager outs added enc)
    {tensor : Nat × Int}
    (unclustered : isClustered (graph.node tensor.1) = false) :
    movedTensor enc result tensor = tensor := by
  have unmapped : enc.output_remap_map (tensor.1, tensor.2) = none :=
    analysed.outMap_unclustered unclustered
  rw [movedTensor, unmapped]

theorem moved_output (analysed : Analysed order manager outs added enc)
    {c : Int} {k id : Nat} {tensor : Nat × Int}
    (atK : (outs c)[k]? = some tensor)
    (mapped : result.cluster_node_map c = some id) :
    movedTensor enc result tensor = (id, (k : Int)) := by
  rw [movedTensor, (analysed.outMap _ _ _).mpr atK]
  simp [clusterNode, mapped]

theorem Shown.output {tensor : Nat × Int} (shown : Shown graph outs tensor)
    (rewired : Rewired library enc graph_id device_config graph result)
    (clustered : isClustered (graph.node tensor.1) = true) :
    ∃ (k : Nat) (id : Nat), (outs (clusterIdx (graph.node tensor.1)))[k]? =
      some tensor ∧
      result.cluster_node_map (clusterIdx (graph.node tensor.1)) = some id := by
  obtain ⟨k, atK⟩ := List.getElem?_of_mem (shown.2 clustered)
  obtain ⟨id, mapped⟩ := Option.isSome_iff_exists.mp
    ((rewired.mapped _).mpr ⟨_, shown.1, getNodeCluster_of clustered⟩)
  exact ⟨k, id, atK, mapped⟩

theorem Encapsulable.blocks_wellFounded
    (encapsulable : Encapsulable manager graph) :
    WellFounded (quotient graph.DataEdge (blockOf graph)) := by
  refine encapsulable.blocks.wellFounded
    (graph.nodes.map (fun node => blockOf graph node.id)) ?_
  rintro _ _ ⟨_, _, _, ⟨_, _, edge, member, _, rfl, _, _, _⟩, rfl, _⟩
  obtain ⟨node, inNodes, same⟩ := encapsulable.wf.src edge member
  exact List.mem_map.mpr ⟨node, inNodes, by rw [same]⟩

theorem quotient_read (encapsulable : Encapsulable manager graph) {src v : Nat}
    {slot b : Int} (feeds : graph.Feeds src slot v b)
    (unclustered : isClustered (graph.node v) = false) :
    quotient graph.DataEdge (blockOf graph) (blockOf graph src)
      (blockOf graph v) := by
  refine ⟨?_, src, v, ⟨slot, b, feeds⟩, rfl, rfl⟩
  intro same
  simp only [blockOf, unclustered, Bool.false_eq_true, if_false] at same
  split at same
  case isTrue => simp at same
  case isFalse =>
    obtain rfl := Sum.inr.inj same
    exact encapsulable.acyclic.irrefl src ⟨slot, b, feeds⟩

theorem quotient_crossing {edge : Edge} (crosses : Crosses graph edge)
    (clustered : isClustered (graph.node edge.dst) = true) :
    quotient graph.DataEdge (blockOf graph) (blockOf graph edge.src)
      (.inl (clusterIdx (graph.node edge.dst))) := by
  have atDst : blockOf graph edge.dst =
      .inl (clusterIdx (graph.node edge.dst)) := by
    simp [blockOf, clustered]
  refine ⟨?_, edge.src, edge.dst,
    ⟨_, _, edge, crosses.member, crosses.data, rfl, rfl, rfl, rfl⟩, rfl, atDst⟩
  intro same
  unfold blockOf at same
  split at same
  case isTrue => exact crosses.apart (Sum.inl.inj same).symm
  case isFalse => simp at same

theorem Rewired.unmapped
    (rewired : Rewired library enc graph_id device_config graph result)
    {node : Node} (member : node ∈ graph.nodes) (c : Int) :
    result.cluster_node_map c ≠ some node.id :=
  fun mapped => (rewired.placed c node.id mapped).1 ⟨node, member, rfl⟩

theorem Rewired.kept_op
    (rewired : Rewired library enc graph_id device_config graph result)
    {node : Node} (member : node ∈ graph.op_nodes)
    (unclustered : isClustered node = false) :
    node ∈ result.graph.op_nodes := by
  obtain ⟨inNodes, isOp⟩ := List.mem_filter.mp member
  exact List.mem_filter.mpr
    ⟨rewired.kept node inNodes (fun _ => unclustered), isOp⟩

theorem Rewired.cluster_node (wf : graph.WF)
    (rewired : Rewired library enc graph_id device_config graph result)
    {c : Int} {id : Nat} (mapped : result.cluster_node_map c = some id) :
    ∃ node ∈ result.graph.op_nodes, node.id = id ∧
      IsEncapsulate library enc graph_id device_config c node := by
  obtain ⟨notOld, node, member, rfl, encapsulate⟩ := rewired.placed c id mapped
  refine ⟨node, List.mem_filter.mpr ⟨member, ?_⟩, rfl, encapsulate⟩
  have notSource : node.id ≠ 0 := fun same => notOld (same ▸ wf.source)
  have notSink : node.id ≠ 1 := fun same => notOld (same ▸ wf.sink)
  simp [Node.isOp, Node.isSource, Node.isSink, notSource, notSink]

/-- Every evaluation of the rewritten graph gives the tensors that are left
their old values. -/
theorem rewritten_unique (analysed : Analysed order manager outs added enc)
    (encapsulable : Encapsulable manager graph)
    (evaluates : graph.Evaluates interp val)
    (rewired : Rewired library enc graph_id device_config graph result)
    {after : Nat × Int → V}
    (solves : EvaluatesRewritten interp ⟨result, enc⟩ after) :
    ∀ tensor, Shown graph outs tensor →
    after (movedTensor enc result tensor) = val tensor := by
  have wf := encapsulable.wf
  have byBlock : ∀ block tensor, Shown graph outs tensor →
      blockOf graph tensor.1 = block →
      after (movedTensor enc result tensor) = val tensor := by
    intro block
    induction block using encapsulable.blocks_wellFounded.induction with
    | _ block ih =>
        intro tensor shown atBlock
        have nodeId : (graph.node tensor.1).id = tensor.1 := Graph.node_id _
        have inNodes := (List.mem_filter.mp shown.1).1
        cases clustered : isClustered (graph.node tensor.1) with
        | false =>
            rw [moved_unclustered analysed clustered]
            obtain ⟨afterValues, afterReads, afterComputes⟩ := solves.op _
              (rewired.kept_op shown.1 clustered) (rewired.unmapped inNodes)
            obtain ⟨values, reads, computes⟩ := evaluates _ shown.1
            have sameValues : afterValues = values.map id := by
              refine forall₂_eq_map reads afterReads ?_
              intro input _ value afterValue isValue isAfter
              obtain ⟨source, feeds, rfl⟩ := isValue
              obtain ⟨moved, movedFeeds, rfl⟩ := isAfter
              rw [nodeId] at feeds movedFeeds
              obtain ⟨_, src, slot, srcFeeds, atMoved⟩ :=
                (rewired.feedsOld tensor.1 ⟨_, inNodes, nodeId⟩ moved.1 moved.2
                    input).mp movedFeeds
              obtain ⟨sameSrc, sameSlot⟩ := wf.single_feeds feeds srcFeeds
              have same : source = (src, slot) := Prod.ext sameSrc sameSlot
              have old := ih (blockOf graph src)
                (atBlock ▸ quotient_read encapsulable srcFeeds clustered)
                (src, slot) (shown_of_read analysed wf srcFeeds clustered) rfl
              rw [atMoved] at old
              rw [same]
              exact old
            rw [List.map_id] at sameValues
            have here := afterComputes tensor.2
            rw [nodeId, sameValues] at here
            have before := computes tensor.2
            rw [nodeId] at before
            exact here.trans before.symm
        | true =>
            obtain ⟨k, id, atK, mapped⟩ := shown.output rewired clustered
            generalize atC : clusterIdx (graph.node tensor.1) = c at atK mapped
            have inCluster : getNodeCluster (graph.node tensor.1) = .ok c := by
              rw [getNodeCluster_of clustered, atC]
            have isBlock : block = .inl c := by
              rw [← atBlock, blockOf, if_pos clustered, atC]
            obtain ⟨node, nodeOp, rfl, encapsulate⟩ :=
              rewired.cluster_node wf mapped
            obtain ⟨d, gdef, args, local_, hasCluster, stored, afterReads,
              evaluatesDef, returns⟩ :=
              solves.cluster node nodeOp c mapped
            rw [encapsulate.cluster] at hasCluster
            obtain rfl := Except.ok.inj hasCluster
            have storedDef :=
              analysed.getClusterGraph encapsulable shown.1 inCluster
            dsimp only at stored
            rw [storedDef] at stored
            obtain rfl := Option.some.inj stored
            have arguments : ∀ (l : Nat) input,
                (enc.inputsOf c)[l]? = some input →
                args[l]? = some (val input) := by
              intro l input atL
              have inside := (List.getElem?_eq_some_iff.mp atL).1
              rw [← encapsulate.num_inputs] at inside
              obtain ⟨moved, feeds, atArg⟩ := afterReads.input inside
              obtain ⟨m, src, slot, sameL, atM, atMoved⟩ :=
                (rewired.feedsNew c node.id mapped moved.1 moved.2 l).mp feeds
              obtain rfl := Int.ofNat_inj.mp sameL
              rw [atL] at atM
              obtain rfl := Option.some.inj atM
              obtain ⟨edge, crosses, dstClustered, dstC, same⟩ :=
                analysed.inSource c _ (List.mem_of_getElem? atL)
              obtain ⟨rfl, rfl⟩ := Prod.mk.inj same
              have step := quotient_crossing crosses dstClustered
              rw [dstC, ← isBlock] at step
              have old := ih _ step (edge.src, edge.src_output)
                (shown_of_crossing analysed wf crosses) rfl
              rw [atMoved] at old
              rw [atArg]
              exact congrArg some old
            have own := inside_unique analysed encapsulable evaluates arguments
              evaluatesDef
            have inOutputs : k < node.num_outputs := by
              rw [encapsulate.num_outputs, analysed.outLength]
              exact (List.getElem?_eq_some_iff.mp atK).1
            rw [moved_output analysed atK mapped]
            exact (returns_iff analysed encapsulable own atK).mp
              (returns k inOutputs)
  exact fun tensor shown => byBlock _ tensor shown rfl

theorem moved_injective (analysed : Analysed order manager outs added enc)
    (rewired : Rewired library enc graph_id device_config graph result)
    {left right : Nat × Int} (leftShown : Shown graph outs left)
    (rightShown : Shown graph outs right)
    (same : movedTensor enc result left = movedTensor enc result right) :
    left = right := by
  have apart : ∀ {plain inside : Nat × Int}, Shown graph outs plain →
      Shown graph outs inside →
      isClustered (graph.node plain.1) = false →
      isClustered (graph.node inside.1) = true →
      movedTensor enc result plain ≠ movedTensor enc result inside := by
    intro plain inside plainShown insideShown unclustered clustered equal
    obtain ⟨k, id, atK, mapped⟩ := insideShown.output rewired clustered
    rw [moved_unclustered analysed unclustered,
      moved_output analysed atK mapped] at equal
    have atId : plain.1 = id := congrArg Prod.fst equal
    exact (rewired.placed _ id mapped).1
      ⟨_, (List.mem_filter.mp plainShown.1).1, (Graph.node_id _).trans atId⟩
  cases leftClustered : isClustered (graph.node left.1) with
  | false =>
      cases rightClustered : isClustered (graph.node right.1) with
      | false =>
          rwa [moved_unclustered analysed leftClustered,
            moved_unclustered analysed rightClustered] at same
      | true =>
          exact absurd same
            (apart leftShown rightShown leftClustered rightClustered)
  | true =>
      cases rightClustered : isClustered (graph.node right.1) with
      | false =>
          exact absurd same.symm
            (apart rightShown leftShown rightClustered leftClustered)
      | true =>
          obtain ⟨k, id, atK, leftMapped⟩ :=
            leftShown.output rewired leftClustered
          obtain ⟨l, other, atL, rightMapped⟩ :=
            rightShown.output rewired rightClustered
          rw [moved_output analysed atK leftMapped,
            moved_output analysed atL rightMapped] at same
          obtain ⟨rfl, sameIndex⟩ := Prod.mk.inj same
          obtain ⟨_, leftNode, leftIn, leftId, isLeft⟩ :=
            rewired.placed _ id leftMapped
          obtain ⟨_, rightNode, rightIn, rightId, isRight⟩ :=
            rewired.placed _ id rightMapped
          have sameNode : leftNode = rightNode :=
            List.inj_on_of_nodup_map rewired.ids leftIn rightIn
              (leftId.trans rightId.symm)
          have sameCluster := isLeft.cluster
          rw [sameNode, isRight.cluster] at sameCluster
          rw [Except.ok.inj sameCluster, ← Int.ofNat_inj.mp sameIndex,
            atK] at atL
          exact Option.some.inj atL

open Classical in
/-- The old values, where the rewritten graph reads them. -/
noncomputable def shownVal (graph : Graph) (outs : Int → List (Nat × Int))
    (enc : Encapsulator) (result : Rewritten) (val : Nat × Int → V) :
    Nat × Int → V := fun tensor =>
  if shown : ∃ old, Shown graph outs old ∧
    movedTensor enc result old = tensor then
    val shown.choose
  else val tensor

theorem shownVal_moved (analysed : Analysed order manager outs added enc)
    (rewired : Rewired library enc graph_id device_config graph result)
    {tensor : Nat × Int} (shown : Shown graph outs tensor) :
    shownVal graph outs enc result val (movedTensor enc result tensor) =
      val tensor := by
  have there : ∃ old, Shown graph outs old ∧
      movedTensor enc result old = movedTensor enc result tensor :=
    ⟨tensor, shown, rfl⟩
  rw [shownVal, dif_pos there]
  obtain ⟨chosenShown, same⟩ := there.choose_spec
  rw [moved_injective analysed rewired chosenShown shown same]

theorem forall₂_range {α : Type*} {R : Nat → α → Prop} {list : List α}
    (each : ∀ (k : Nat) x, list[k]? = some x → R k x) :
    List.Forall₂ R (List.range list.length) list := by
  rw [List.forall₂_iff_get]
  refine ⟨by simp, fun k inRange inside => ?_⟩
  have here := each k list[k] (List.getElem?_eq_getElem inside)
  simpa using here

/-- The rewritten graph has an evaluation. -/
theorem rewritten_exists (analysed : Analysed order manager outs added enc)
    (encapsulable : Encapsulable manager graph)
    (evaluates : graph.Evaluates interp val)
    (rewired : Rewired library enc graph_id device_config graph result) :
    EvaluatesRewritten interp ⟨result, enc⟩
      (shownVal graph outs enc result val) := by
  have wf := encapsulable.wf
  constructor
  case op =>
    intro node member unmapped
    obtain ⟨inResult, isOp⟩ := List.mem_filter.mp member
    cases rewired.nodes node inResult with
    | inr new =>
        obtain ⟨c, mapped, _⟩ := new
        exact absurd mapped (unmapped c)
    | inl old =>
        obtain ⟨inGraph, stays⟩ := old
        have nodeOp : node ∈ graph.op_nodes :=
          List.mem_filter.mpr ⟨inGraph, isOp⟩
        have nodeSelf := wf.node_eq inGraph
        have unclustered : isClustered (graph.node node.id) = false := by
          rw [nodeSelf, stays isOp]
        obtain ⟨values, reads, computes⟩ := evaluates node nodeOp
        refine ⟨values, ?_, fun slot => ?_⟩
        · refine List.Forall₂.imp ?_ reads
          rintro input value ⟨tensor, feeds, rfl⟩
          have shown := shown_of_read analysed wf feeds unclustered
          refine ⟨movedTensor enc result tensor, ?_,
            (shownVal_moved analysed rewired shown).symm⟩
          exact (rewired.feedsOld node.id ⟨node, inGraph, rfl⟩ _ _ _).mpr
            ⟨unclustered, tensor.1, tensor.2, feeds, rfl⟩
        · have shown : Shown graph outs (node.id, slot) := by
            refine ⟨by rwa [nodeSelf], fun clustered => ?_⟩
            rw [unclustered] at clustered
            exact absurd clustered (by simp)
          have here : shownVal graph outs enc result val
              (movedTensor enc result (node.id, slot)) =
              val (node.id, slot) := shownVal_moved analysed rewired shown
          rw [moved_unclustered analysed unclustered] at here
          rw [here, computes]
  case cluster =>
    intro node member c mapped
    dsimp only at member mapped
    obtain ⟨_, other, otherIn, sameId, encapsulate⟩ :=
      rewired.placed c node.id mapped
    obtain rfl : other = node :=
      List.inj_on_of_nodup_map rewired.ids otherIn
        (List.mem_filter.mp member).1 sameId
    obtain ⟨inside, insideOp, inCluster⟩ :=
      (rewired.mapped c).mp (by simp [mapped])
    refine ⟨c, ⟨added c⟩, (enc.inputsOf c).map val,
      insideVal graph val (enc.inputsOf c), encapsulate.cluster,
      analysed.getClusterGraph encapsulable insideOp inCluster, ?_,
      inside_exists analysed encapsulable evaluates c, ?_⟩
    · have lengths : other.num_inputs = ((enc.inputsOf c).map val).length := by
        rw [encapsulate.num_inputs, List.length_map]
      rw [Graph.Reads, lengths]
      apply forall₂_range
      intro k value atK
      rw [List.getElem?_map] at atK
      obtain ⟨tensor, atTensor, rfl⟩ := Option.map_eq_some_iff.mp atK
      obtain ⟨edge, crosses, _, _, rfl⟩ :=
        analysed.inSource c _ (List.mem_of_getElem? atTensor)
      have shown := shown_of_crossing analysed wf crosses
      exact ⟨_, (rewired.feedsNew c other.id mapped _ _ k).mpr
        ⟨k, _, _, rfl, atTensor, rfl⟩,
        (shownVal_moved analysed rewired shown).symm⟩
    · intro index inOutputs
      rw [encapsulate.num_outputs, analysed.outLength] at inOutputs
      have atIndex := List.getElem?_eq_getElem inOutputs
      refine (returns_iff analysed encapsulable
        (fun node nodeOp _ => insideVal_node wf nodeOp) atIndex).mpr ?_
      have shown :=
        (shown_of_output analysed wf (List.mem_of_getElem? atIndex)).1
      have here : shownVal graph outs enc result val
          (movedTensor enc result (outs c)[index]) =
          val (outs c)[index] := shownVal_moved analysed rewired shown
      rw [← here, moved_output analysed atIndex mapped]

end Values

/-- The rewritten graph can be evaluated, and whatever its evaluation, an op
node that is left reads the same value at each of its inputs. -/
theorem encapsulateClusters_values {interp : Interpretation V}
    {library : Library} {manager : ClusterManager} {graph_id : Int}
    {device_config : List (String × String)} {graph : Graph} {outcome : Outcome}
    {val : Nat × Int → V} (encapsulable : Encapsulable manager graph)
    (success : encapsulateClusters library manager graph_id device_config
      graph = .ok outcome)
    (evaluates : graph.Evaluates interp val) :
    (∃ after, EvaluatesRewritten interp outcome after) ∧
    ∀ after, EvaluatesRewritten interp outcome after →
      ∀ node ∈ graph.op_nodes, isClustered node = false →
        node ∈ outcome.rewritten.graph.op_nodes ∧
        ∀ input < node.num_inputs, ∃ value,
          graph.InputValue val node.id input value ∧
          ∀ other, outcome.rewritten.graph.InputValue after node.id
            input other ↔
            other = value := by
  have wf := encapsulable.wf
  obtain ⟨enc, analysis, success⟩ := bind_ok success
  obtain ⟨result, rewrite_, success⟩ := bind_ok success
  obtain rfl := Except.ok.inj success
  obtain ⟨outs, added, analysed⟩ := analysisPass_analysed wf analysis
  have rewired := rewritePass_rewired wf analysed rewrite_
  refine ⟨⟨_, rewritten_exists analysed encapsulable evaluates rewired⟩, ?_⟩
  intro after solves node member unclustered
  refine ⟨rewired.kept_op member unclustered, fun input inside => ?_⟩
  have inGraph := (List.mem_filter.mp member).1
  obtain ⟨values, reads, _⟩ := evaluates node member
  obtain ⟨tensor, feeds, _⟩ := reads.input inside
  have nodeUnclustered : isClustered (graph.node node.id) = false := by
    rw [wf.node_eq inGraph, unclustered]
  have same := rewritten_unique analysed encapsulable evaluates rewired
    solves tensor (shown_of_read analysed wf feeds nodeUnclustered)
  have feedsAfter : ∀ u a, result.graph.Feeds u a node.id input ↔
      movedTensor enc result tensor = (u, a) := by
    intro u a
    rw [rewired.feedsOld node.id ⟨node, inGraph, rfl⟩]
    constructor
    · rintro ⟨_, src, slot, alsoFeeds, atMoved⟩
      obtain ⟨sameSrc, sameSlot⟩ := wf.single_feeds feeds alsoFeeds
      rwa [← sameSrc, ← sameSlot] at atMoved
    · exact fun atMoved => ⟨nodeUnclustered, tensor.1, tensor.2, feeds, atMoved⟩
  refine ⟨val tensor, ⟨tensor, feeds, rfl⟩, fun other => ?_⟩
  constructor
  · rintro ⟨moved, movedFeeds, rfl⟩
    rw [← same, (feedsAfter moved.1 moved.2).mp movedFeeds]
  · rintro rfl
    exact ⟨_, (feedsAfter _ _).mpr rfl, same.symm⟩

/-- A graph for a `GraphDef`, every tensor of type float: node `i` of the
`GraphDef` has id `i + 2`. -/
def importGraph (gdef : GraphDef) : Graph where
  nodes :=
    [⟨0, "_SOURCE", "NoOp", [], [], [], "", []⟩,
      ⟨1, "_SINK", "NoOp", [], [], [], "", []⟩] ++
    gdef.node.mapIdx fun i node_def =>
      ⟨i + 2, node_def.name, node_def.op, node_def.attr,
        node_def.dataInputs.map (fun _ => .DT_FLOAT),
        if node_def.op == "_Retval" then [] else [.DT_FLOAT], "",
        node_def.input⟩
  edges := ((gdef.node.mapIdx fun i node_def =>
      node_def.dataInputs.mapIdx fun input text =>
        ((gdef.node.findIdx
              (fun other => other.name == (parseTensorName text).1)) + 2,
          (parseTensorName text).2, i + 2, input)).flatten).mapIdx
    fun id ends => ⟨id, ends.1, ends.2.1, ends.2.2.1, ends.2.2.2⟩

def importLibrary : Library where
  convertGraphDefToGraph := fun gdef => .ok (importGraph gdef)
  orders := Graph.byInsertion

/-- `-(x * x) + x`: the product in a cluster, its negation in another one, and
the sum in none. -/
def squareGraph : Graph where
  nodes := [
    ⟨0, "_SOURCE", "NoOp", [], [], [], "", []⟩,
    ⟨1, "_SINK", "NoOp", [], [], [], "", []⟩,
    ⟨2, "x", "Placeholder", [], [], [.DT_FLOAT], "", []⟩,
    ⟨3, "square", "Mul", [("_ngraph_cluster", .i 0)], [.DT_FLOAT, .DT_FLOAT],
      [.DT_FLOAT], "", ["x", "x"]⟩,
    ⟨4, "neg", "Neg", [("_ngraph_cluster", .i 1)], [.DT_FLOAT], [.DT_FLOAT],
      "", ["square"]⟩,
    ⟨5, "sum", "Add", [], [.DT_FLOAT, .DT_FLOAT], [.DT_FLOAT], "",
      ["neg", "x"]⟩]
  edges := [⟨0, 0, -1, 2, -1⟩, ⟨1, 2, 0, 3, 0⟩, ⟨2, 2, 0, 3, 1⟩,
    ⟨3, 3, 0, 4, 0⟩, ⟨4, 4, 0, 5, 0⟩, ⟨5, 2, 0, 5, 1⟩, ⟨6, 5, -1, 1, -1⟩]

def squareInterp : Interpretation Int := fun _ op _ values _ =>
  match op, values with
  | "Placeholder", [] => 7
  | "Mul", [x, y] => x * y
  | "Neg", [x] => -x
  | "Add", [x, y] => x + y
  | _, _ => 0

def squareVal : Nat × Int → Int
  | (2, _) => 7
  | (3, _) => 49
  | (4, _) => -49
  | (5, _) => -42
  | _ => 0

def twoClusters : ClusterManager := ⟨[.empty, .empty]⟩

theorem squareGraph_encapsulable : Encapsulable twoClusters squareGraph where
  wf := by constructor <;> decide
  legal := by decide
  generated := by
    intro node member k same
    have short : ∀ node ∈ squareGraph.op_nodes, node.name.length < 13 := by
      decide
    have long : 13 ≤ (inputName k).length := by
      rw [inputName, String.length_append]
      exact Nat.le_add_right 13 _
    have tooShort := short node member
    rw [same] at tooShort
    omega
  pure := by decide
  empty := by
    intro node _ c gdef _ found
    unfold ClusterManager.getClusterGraph at found
    split at found
    · simp at found
    · simpa [twoClusters] using List.mem_of_getElem? found
  acyclic := by
    apply acyclic_of_rank id
    rintro _ _ ⟨_, _, edge, member, data, rfl, _, rfl, _⟩
    have rising : ∀ edge ∈ squareGraph.edges, edge.isControlEdge = false →
        edge.src < edge.dst := by decide
    exact rising edge member data
  blocks := by
    apply acyclic_of_rank (Sum.elim (fun c => if c = 0 then 3 else 4) id)
    rintro _ _ ⟨_, _, _, ⟨_, _, edge, member, data, rfl, _, rfl, _⟩, rfl, rfl⟩
    have rising : ∀ edge ∈ squareGraph.edges, edge.isControlEdge = false →
        Sum.elim (fun c => if c = 0 then 3 else 4) id
          (blockOf squareGraph edge.src) <
        Sum.elim (fun c => if c = 0 then 3 else 4) id
          (blockOf squareGraph edge.dst) := by decide
    exact rising edge member data

theorem squareGraph_evaluates :
    squareGraph.Evaluates squareInterp squareVal := by
  intro node member
  change node ∈ [_, _, _, _] at member
  simp only [List.mem_cons, List.not_mem_nil, or_false] at member
  rcases member with rfl | rfl | rfl | rfl
  · exact ⟨[], .nil, fun _ => rfl⟩
  · exact ⟨[7, 7], .cons ⟨(2, 0), ⟨⟨1, 2, 0, 3, 0⟩, by decide⟩, rfl⟩
      (.cons ⟨(2, 0), ⟨⟨2, 2, 0, 3, 1⟩, by decide⟩, rfl⟩ .nil), fun _ => rfl⟩
  · exact ⟨[49], .cons ⟨(3, 0), ⟨⟨3, 3, 0, 4, 0⟩, by decide⟩, rfl⟩ .nil,
      fun _ => rfl⟩
  · exact ⟨[-49, 7], .cons ⟨(4, 0), ⟨⟨4, 4, 0, 5, 0⟩, by decide⟩, rfl⟩
      (.cons ⟨(2, 0), ⟨⟨5, 2, 0, 5, 1⟩, by decide⟩, rfl⟩ .nil), fun _ => rfl⟩

/-- The sum reads what the second cluster makes of the tensor of the first. -/
theorem encapsulateClusters_values_squareGraph : ∃ outcome,
    encapsulateClusters importLibrary twoClusters 0 [] squareGraph =
      .ok outcome ∧
      ∃ after, EvaluatesRewritten squareInterp outcome after ∧
        outcome.rewritten.graph.InputValue after 5 0 (-49) := by
  have succeeds : (encapsulateClusters importLibrary twoClusters 0 []
      squareGraph).toOption.isSome = true := by decide
  cases result : encapsulateClusters importLibrary twoClusters 0 []
      squareGraph with
  | error error => simp [result, Except.toOption] at succeeds
  | ok outcome =>
      obtain ⟨⟨after, solves⟩, unique⟩ := encapsulateClusters_values
        squareGraph_encapsulable result squareGraph_evaluates
      obtain ⟨_, inputs⟩ := unique after solves
        ⟨5, "sum", "Add", [], [.DT_FLOAT, .DT_FLOAT], [.DT_FLOAT], "",
          ["neg", "x"]⟩ (by decide) (by decide)
      obtain ⟨value, ⟨tensor, feeds, isValue⟩, same⟩ := inputs 0 (by decide)
      have atTensor := squareGraph_encapsulable.wf.single_feeds feeds
        ⟨⟨4, 4, 0, 5, 0⟩, by decide, rfl, rfl, rfl, rfl, rfl⟩
      have isNegative : value = -49 := by
        rw [isValue, show tensor = (4, 0) from Prod.ext atTensor.1 atTensor.2]
        rfl
      exact ⟨outcome, rfl, after, solves, (same (-49)).mpr isNegative.symm⟩

end NGraphBridge.EncapsulateClusters
