import NGraphBridge.EncapsulateClusters.Values
import NGraphBridge.NGraphRewritePass.Pass

/-!
# Static inputs

The translator needs the value of a static input, so in the `GraphDef` of a
cluster it must come from a constant or from an argument whose value is passed
in.  The shadows of the second phase keep every other producer out of the
cluster.
-/

namespace NGraphBridge.NGraphRewritePass

open TF Deadness MarkForClustering AssignClusters DeassignClusters
  EncapsulateClusters

/-- What TensorFlow's `ConvertGraphDefToGraph` promises: node names are unique,
every `NodeDef` becomes a node with its name, op and attributes, and every data
input becomes an edge from the node that it names. -/
structure Converts (gdef : GraphDef) (graph : Graph) : Prop where
  wf : graph.WF
  distinct : (gdef.node.map NodeDef.name).Nodup
  node : ∀ node_def ∈ gdef.node, ∃ node ∈ graph.nodes,
    node.name = node_def.name ∧
    node.type_string = node_def.op ∧ ∀ name value,
      node_def.attr.find name = some value → node.attrs.find name = some value
  edge : ∀ dst_def ∈ gdef.node, ∀ src_def ∈ gdef.node, ∀ (input : Nat) text,
    dst_def.dataInputs[input]? = some text →
    (parseTensorName text).1 = src_def.name →
    ∃ edge ∈ graph.edges, edge.isControlEdge = false ∧ edge.dst_input = input ∧
      (graph.node edge.src).name = src_def.name ∧
      (graph.node edge.dst).name = dst_def.name

/-- The attribute `_ngraph_static_inputs` of a `NodeDef`. -/
def defStaticInputs (node_def : NodeDef) : List Int :=
  match getNodeAttrInts node_def.attr "_ngraph_static_inputs" with
  | .ok inputs => inputs
  | .error _ => []

section StaticArguments

variable {graph : Graph} {order : graph.Enumeration}

theorem getGraphStaticInputs_mem {nodes : List Node}
    {static_input_indexes : List Int}
    (success : getGraphStaticInputs order nodes = .ok static_input_indexes)
    {node : Node} {index : Int} (member : node ∈ nodes)
    (isArg : node.type_string = "_Arg")
    (hasIndex : getNodeAttrInt node.attrs "index" = .ok index)
    (static : argIsStatic order node = true) :
    index ∈ static_input_indexes := by
  induction nodes generalizing static_input_indexes with
  | nil => simp at member
  | cons head nodes ih =>
      unfold getGraphStaticInputs at success
      split at success
      case isTrue headArg =>
        split at success
        case h_1 => simp at success
        case h_2 headIndex atIndex =>
          obtain ⟨rest, atRest, success⟩ := bind_ok success
          obtain rfl := Except.ok.inj success
          cases List.mem_cons.mp member with
          | inl same =>
              rw [same, atIndex] at hasIndex
              obtain rfl := Except.ok.inj hasIndex
              rw [same] at static
              simp [static]
          | inr later =>
              have inRest := ih atRest later
              split
              · exact List.mem_cons_of_mem _ inRest
              · exact inRest
      case isFalse notArg =>
        cases List.mem_cons.mp member with
        | inl same => exact absurd (by rw [← same, isArg]; rfl) notArg
        | inr later => exact ih success later

theorem argIsStatic_of_edge (wf : graph.WF) {edge : Edge}
    (member : edge ∈ graph.edges) (data : edge.isControlEdge = false)
    (static : edge.dst_input ∈ getStaticInputs (graph.node edge.dst))
    {node : Node} (atSrc : graph.node edge.src = node) :
    argIsStatic order node = true := by
  have srcId : edge.src = node.id := by rw [← atSrc, Graph.node_id]
  rw [argIsStatic, List.any_eq_true]
  refine ⟨edge, (order.mem_out_edges node.id edge).mpr ⟨member, srcId⟩, ?_⟩
  have dstOp := (wf.opEnds edge member data).2
  simp [data, dstOp, inputIsStatic, static]

end StaticArguments

section Clustered

variable {bridge : Bridge} {request : Request} {statics : Statics}
  {predicate_map : PredicateMap} {state : AssignClusters.State}
  {tag : Nat → Option Nat} {busted : Int → Bool}

theorem getStaticInputs_relabelled (busted : Int → Bool)
    (tag : Nat → Option Nat) (node : Node) :
    getStaticInputs ((keepOrBust busted ∘ tagNode tag) node) =
      getStaticInputs node := by
  have same : ((keepOrBust busted ∘ tagNode tag) node).attrs.find
      "_ngraph_static_inputs" =
      node.attrs.find "_ngraph_static_inputs" := by
    rw [← tagNode_find tag node (by decide), Function.comp_apply]
    generalize tagNode tag node = tagged
    unfold keepOrBust
    split
    · split
      · rw [bustNode, Node.clearAttr, AttrMap.find_clear_of_ne _ (by decide),
          Node.clearAttr, AttrMap.find_clear_of_ne _ (by decide)]
      · rfl
    · rfl
  simp only [getStaticInputs, getNodeAttrInts, same]

/-- The inputs of a node with static inputs have their edges. -/
theorem Clustered.fed
    (clustered : Clustered bridge request statics predicate_map state tag
      busted) {node : Node}
    (member : node ∈ (declustered bridge request statics).op_nodes)
    (hasStatic : getStaticInputs node ≠ []) :
    Fed (declustered bridge request statics) node := by
  rw [clustered.output] at member ⊢
  obtain ⟨old, oldMember, rfl⟩ := clustered.relabels.op_nodes.mp member
  rw [getStaticInputs_relabelled] at hasStatic
  have fed := clustered.found.fed old oldMember hasStatic
  have sameId := clustered.relabels.id old
  constructor
  · intro input inside
    rw [clustered.relabels.inputs] at inside
    rw [sameId]
    exact fed.input input inside
  · intro idx listed
    rw [getStaticInputs_relabelled] at listed
    rw [sameId]
    exact fed.static idx listed

/-- Inside a cluster only a constant feeds a static input. -/
theorem Clustered.const
    (clustered : Clustered bridge request statics predicate_map state tag
      busted) {edge : Edge}
    (member : edge ∈ (declustered bridge request statics).edges)
    (data : edge.isControlEdge = false) {c : Int}
    (srcCluster : getNodeCluster
      ((declustered bridge request statics).node edge.src) = .ok c)
    (dstCluster : getNodeCluster
      ((declustered bridge request statics).node edge.dst) = .ok c)
    (static : edge.dst_input ∈
      getStaticInputs ((declustered bridge request statics).node edge.dst)) :
    ((declustered bridge request statics).node edge.src).type_string =
      "Const" := by
  have old : edge ∈ (marked bridge request statics).graph.edges := by
    rw [clustered.output] at member
    exact member
  have srcNode := clustered.markedWF.src edge old
  have dstNode := clustered.markedWF.dst edge old
  obtain ⟨⟨k, srcTag, rfl⟩, _⟩ := (clustered.cluster_iff srcNode).mp srcCluster
  obtain ⟨⟨l, dstTag, sameCluster⟩, _⟩ :=
    (clustered.cluster_iff dstNode).mp dstCluster
  obtain rfl := Int.ofNat_inj.mp sameCluster
  rw [clustered.output, clustered.relabels.node dstNode,
    getStaticInputs_relabelled] at static
  rw [clustered.output, clustered.relabels.node srcNode,
    clustered.relabels.type]
  by_contra notConst
  have staticEdge : StaticEdge (marked bridge request statics).graph edge :=
    ⟨old, data, (clustered.markedWF.opEnds edge old data).2, static, notConst⟩
  exact clustered.found.inv.separated staticEdge
    ((clustered.found.together srcNode dstNode srcTag).mp dstTag)

theorem Clustered.legal
    (clustered : Clustered bridge request statics predicate_map state
      tag busted)
    (legal : ∀ node ∈ request.graph.nodes, LegalName node.name) :
    ∀ node ∈ (declustered bridge request statics).nodes,
      LegalName node.name := by
  intro node member
  obtain ⟨update, keeps, markedGraph⟩ := marked_eq bridge request statics
  rw [clustered.output] at member
  obtain ⟨middle, inMarked, rfl⟩ := List.mem_map.mp member
  rw [markedGraph] at inMarked
  obtain ⟨old, inRequest, rfl⟩ := List.mem_map.mp inMarked
  rw [clustered.relabels.name, keeps.name]
  exact legal old inRequest

end Clustered

/-- What the translator finds at a static input: a constant, or an argument that
the encapsulate node passes as static. -/
def IsStaticSource (encapsulate : Node) (src_def : NodeDef) : Prop :=
  src_def.op = "Const" ∨ (src_def.op = "_Arg" ∧ ∃ index,
    getNodeAttrInt src_def.attr "index" = .ok index ∧
    index ∈ getStaticInputs encapsulate)

theorem encapsulate_static {library : Library} {enc : Encapsulator}
    {graph_id : Int} {device_config : List (String × String)} {c : Int}
    {node : Node} {gdef : GraphDef}
    (encapsulate : IsEncapsulate library enc graph_id device_config c node)
    (stored : enc.manager.getClusterGraph c = some gdef) :
    ∃ graph, library.convertGraphDefToGraph gdef = .ok graph ∧
      getGraphStaticInputs (library.orders graph) graph.nodes =
        .ok (getStaticInputs node) := by
  obtain ⟨device, other, graph, static_input_indexes, found, converted,
    static, same⟩ :=
    encapsulate
  rw [stored] at found
  obtain rfl := Option.some.inj found
  refine ⟨graph, converted, ?_⟩
  rw [same, static]
  rfl

section Sources

variable {library : Library} {graph : Graph} {order : graph.Enumeration}
  {manager : ClusterManager} {enc : Encapsulator}
  {outs : Int → List (Nat × Int)} {added : Int → List NodeDef} {c : Int}

theorem defStaticInputs_border {node_def : NodeDef}
    (border : IsBorderDef graph outs enc c node_def) :
    defStaticInputs node_def = [] := by
  cases border with
  | inl argument =>
      obtain ⟨k, input, _, rfl⟩ := argument
      rfl
  | inr retval =>
      obtain ⟨k, output, dt, _, _, rfl⟩ := retval
      rfl

/-- A static input of a copied node, with the tensor that feeds it. -/
theorem copy_static (wf : graph.WF)
    (legal : ∀ node ∈ graph.nodes, LegalName node.name)
    (analysed : Analysed order manager outs added enc) {node : Node}
    {node_def : NodeDef} (fed : getStaticInputs node ≠ [] → Fed graph node)
    (member : node ∈ graph.op_nodes)
    (copied : copyDef graph (order.in_edges node.id) enc c node = .ok node_def)
    {input : Int} (listed : input ∈ defStaticInputs node_def) :
    input ∈ getStaticInputs node ∧ ∃ edge ∈ graph.edges,
      edge.isControlEdge = false ∧
      edge.dst = node.id ∧ edge.dst_input = input ∧
        ∃ (position : Nat) (text : String),
        input = position ∧ node_def.dataInputs[position]? = some text ∧
        parseTensorName text = localTensor graph enc c
          (edge.src, edge.src_output) := by
  have sameInputs : defStaticInputs node_def = getStaticInputs node := by
    obtain ⟨_, _, success⟩ := bind_ok copied
    obtain rfl := Except.ok.inj success
    rfl
  rw [sameInputs] at listed
  have isFed := fed (List.ne_nil_of_mem listed)
  obtain ⟨edge, inGraph, data, atNode, atInput⟩ := isFed.static input listed
  have slots := (wf.slots edge inGraph data).2
  rw [atNode, wf.node_eq (List.mem_filter.mp member).1, atInput] at slots
  obtain ⟨position, rfl⟩ := Int.eq_ofNat_of_zero_le slots.1
  have feeds : ∀ position < node.num_inputs, ∃ src slot,
      graph.Feeds src slot node.id position := by
    intro position inside
    obtain ⟨edge, inGraph, data, atNode, atInput⟩ := isFed.input position inside
    exact ⟨_, _, edge, inGraph, data, rfl, rfl, atNode, atInput⟩
  obtain ⟨_, _, _, texts⟩ := copyDef_inputs wf legal analysed feeds copied
  have inRange : position < (List.range node.num_inputs).length := by
    rw [List.length_range]
    omega
  have inTexts : position < node_def.dataInputs.length :=
    texts.length_eq ▸ inRange
  obtain ⟨src, slot, srcFeeds, parsed⟩ := texts.get inRange inTexts
  simp only [List.get_eq_getElem, List.getElem_range] at srcFeeds parsed
  obtain ⟨sameSrc, sameSlot⟩ := wf.single_feeds srcFeeds
    ⟨edge, inGraph, data, rfl, rfl, atNode, atInput⟩
  refine ⟨listed, edge, inGraph, data, atNode, atInput, position, _, rfl,
    List.getElem?_eq_getElem inTexts, ?_⟩
  rw [parsed, sameSrc, sameSlot]

/-- The argument for a static input is static for the encapsulate node. -/
theorem argument_static {gdef : GraphDef} {inner : Graph}
    (innerGraph : Converts gdef inner) {static_input_indexes : List Int}
    (found : getGraphStaticInputs (library.orders inner) inner.nodes =
      .ok static_input_indexes)
    {dst_def src_def : NodeDef} (dstIn : dst_def ∈ gdef.node)
    (srcIn : src_def ∈ gdef.node) {position : Nat} {text : String}
    (atPosition : dst_def.dataInputs[position]? = some text)
    (named : (parseTensorName text).1 = src_def.name)
    (listed : (position : Int) ∈ defStaticInputs dst_def)
    (isArg : src_def.op = "_Arg") {index : Int}
    (hasIndex : getNodeAttrInt src_def.attr "index" = .ok index) :
    index ∈ static_input_indexes := by
  have wf := innerGraph.wf
  obtain ⟨edge, member, data, atInput, srcName, dstName⟩ :=
    innerGraph.edge dst_def dstIn src_def srcIn position text atPosition named
  have isNode : ∀ {id : Nat} {node_def : NodeDef}, inner.HasNode id →
      node_def ∈ gdef.node →
      (inner.node id).name = node_def.name →
      (inner.node id).type_string = node_def.op ∧
        ∀ name value, node_def.attr.find name = some value →
          (inner.node id).attrs.find name = some value := by
    intro id node_def idNode inDef sameName
    obtain ⟨node, inNodes, name, op, attrs⟩ := innerGraph.node node_def inDef
    have same := wf.name_injective (wf.node_mem idNode).1 inNodes
      (sameName.trans name.symm)
    rw [same]
    exact ⟨op, attrs⟩
  obtain ⟨srcOp, srcAttrs⟩ := isNode (wf.src edge member) srcIn srcName
  obtain ⟨_, dstAttrs⟩ := isNode (wf.dst edge member) dstIn dstName
  have srcIndex : getNodeAttrInt (inner.node edge.src).attrs "index" =
      .ok index := by
    unfold getNodeAttrInt at hasIndex ⊢
    split at hasIndex
    case h_1 value isInt => rw [srcAttrs _ _ isInt, ← hasIndex]
    case h_2 => simp at hasIndex
  have dstStatic : edge.dst_input ∈ getStaticInputs (inner.node edge.dst) := by
    rw [atInput]
    unfold defStaticInputs getNodeAttrInts at listed
    unfold getStaticInputs getNodeAttrInts
    split at listed
    case h_1 inputs isList =>
      split at isList
      case h_1 values atAttr =>
        rw [dstAttrs _ _ atAttr]
        exact Except.ok.inj isList ▸ listed
      case h_2 => simp at isList
    case h_2 => simp at listed
  exact getGraphStaticInputs_mem found (wf.node_mem (wf.src edge member)).1
    (srcOp.trans isArg) srcIndex
    (argIsStatic_of_edge wf member data dstStatic rfl)

end Sources

/-- Every static input of every node in the `GraphDef` of a cluster is fed, and
what feeds it is a constant or a static argument. -/
theorem static_inputs_fed {bridge : Bridge} {request : Request}
    {statics after : Statics} {outcome : EncapsulateClusters.Outcome}
    (converts : ∀ gdef graph, bridge.library.convertGraphDefToGraph gdef =
      .ok graph →
      Converts gdef graph)
    (legal : ∀ node ∈ request.graph.nodes, LegalName node.name)
    (success : rewrite bridge request statics = (after, .rewritten outcome))
    {c : Int} {id : Nat} {gdef : GraphDef}
    (mapped : outcome.rewritten.cluster_node_map c = some id)
    (stored : after.manager.getClusterGraph c = some gdef) :
    ∀ node_def ∈ gdef.node, ∀ input ∈ defStaticInputs node_def,
      ∃ (position : Nat) (text : String),
      input = position ∧ node_def.dataInputs[position]? = some text ∧
      (∃ src_def ∈ gdef.node, src_def.name = (parseTensorName text).1) ∧
      ∀ src_def ∈ gdef.node, src_def.name = (parseTensorName text).1 →
        IsStaticSource (outcome.rewritten.graph.node id) src_def := by
  obtain ⟨status, encapsulation, sameManager⟩ := rewrite_ok success
  obtain ⟨predicate_map, state, tag, busted, clustered⟩ :=
    clustered_of_ok bridge request statics status
  obtain ⟨enc, analysis, encapsulation⟩ := bind_ok encapsulation
  obtain ⟨rewritten, rewrite_, encapsulation⟩ := bind_ok encapsulation
  obtain rfl := Except.ok.inj encapsulation
  have wf := clustered.wf
  obtain ⟨outs, added, analysed⟩ := analysisPass_analysed wf analysis
  have rewired := rewritePass_rewired wf analysed rewrite_
  rw [sameManager] at stored
  dsimp only at mapped stored ⊢
  obtain ⟨_, encapsulate, inResult, rfl, isEncapsulate⟩ :=
    rewired.placed c id mapped
  rw [Graph.node_of_mem rewired.ids inResult]
  obtain ⟨inner, converted, static_inputs⟩ :=
    encapsulate_static isEncapsulate stored
  have innerGraph := converts gdef inner converted
  obtain ⟨inside, insideOp, insideCluster⟩ :=
    (rewired.mapped c).mp (by simp [mapped])
  have isAdded : gdef = ⟨added c⟩ := by
    rw [analysed.appended, (clustered.fresh insideOp insideCluster).2] at stored
    exact (Option.some.inj stored).symm
  subst isAdded
  have legalAfter := clustered.legal legal
  intro node_def inDef input listed
  cases (analysed.defs c node_def).mp inDef with
  | inl border =>
      rw [defStaticInputs_border border] at listed
      exact absurd listed (by simp)
  | inr copy =>
      obtain ⟨node, member, inCluster, copied⟩ := copy
      obtain ⟨isStatic, edge, inGraph, data, atNode, rfl, position, text,
        atPosition, hasText, parsed⟩ := copy_static wf legalAfter analysed
        (clustered.fed member) member copied listed
      have nodeSelf := wf.node_eq (List.mem_filter.mp member).1
      obtain ⟨isClustered_, atC⟩ := clusterIdx_of inCluster
      refine ⟨position, text, atPosition, hasText, ?_⟩
      rw [parsed]
      have only : ∀ src_def ∈ (added c), ∀ other ∈ added c,
          other.name = src_def.name →
          other = src_def := fun src_def srcIn other otherIn sameName =>
        List.inj_on_of_nodup_map innerGraph.distinct otherIn srcIn sameName
      cases analysed.localTensor wf inGraph data
        (by rw [atNode, nodeSelf, isClustered_])
        (by rw [atNode, nodeSelf, atC]) with
      | inl own =>
          obtain ⟨together, called⟩ := own
          have srcOp : (declustered bridge request statics).node edge.src ∈
              (declustered bridge request statics).op_nodes :=
            (feeds_ends wf ⟨edge, inGraph, data, rfl, rfl, rfl, rfl⟩).1.2
          have srcCluster := analysed.clustered_of_idx member inCluster together
          have isConst := clustered.const inGraph data srcCluster
            (by rw [atNode, nodeSelf, inCluster])
            (by rw [atNode, nodeSelf]; exact isStatic)
          obtain ⟨src_def, srcCopied⟩ := analysed.copies _ srcOp c srcCluster
          have srcIn := (analysed.defs c src_def).mpr
            (.inr ⟨_, srcOp, srcCluster, srcCopied⟩)
          obtain ⟨_, _, made⟩ := bind_ok srcCopied
          obtain rfl := Except.ok.inj made
          rw [called]
          refine ⟨⟨_, srcIn, rfl⟩, fun other otherIn sameName => .inl ?_⟩
          rw [only _ srcIn other otherIn sameName]
          exact isConst
      | inr border =>
          obtain ⟨k, atK, called⟩ := border
          obtain ⟨src, dt, srcIn⟩ := analysed.argument atK
          rw [called]
          refine ⟨⟨_, srcIn, rfl⟩, fun other otherIn sameName => .inr ?_⟩
          rw [only _ srcIn other otherIn sameName]
          refine ⟨rfl, k, rfl, ?_⟩
          exact argument_static innerGraph static_inputs inDef srcIn hasText
            (by rw [parsed, called]; rfl) (atPosition ▸ listed) rfl rfl

/-- A tensor reshaped to a shape that is only known at run time. -/
def reshapeGraph : Graph where
  nodes := [
    ⟨0, "_SOURCE", "NoOp", [], [], [], "", []⟩,
    ⟨1, "_SINK", "NoOp", [], [], [], "", []⟩,
    ⟨2, "x", "Placeholder", [], [], [.DT_FLOAT], "", []⟩,
    ⟨3, "shape", "Placeholder", [], [], [.DT_INT32], "", []⟩,
    ⟨4, "y", "Reshape", [("T", .type .DT_FLOAT), ("Tshape", .type .DT_INT32)],
      [.DT_FLOAT, .DT_INT32], [.DT_FLOAT], "", ["x", "shape"]⟩,
    ⟨5, "out", "_Send", [], [.DT_FLOAT], [], "", ["y"]⟩]
  edges :=
    [⟨0, 0, -1, 2, -1⟩, ⟨1, 0, -1, 3, -1⟩, ⟨2, 2, 0, 4, 0⟩, ⟨3, 3, 0, 4, 1⟩,
      ⟨4, 4, 0, 5, 0⟩, ⟨5, 5, -1, 1, -1⟩]

def reshapeAttrs : AttrMap :=
  [("_ngraph_cluster", .i 0), ("_ngraph_static_inputs", .listI [1]),
  ("_ngraph_marked_for_clustering", .b true), ("T", .type .DT_FLOAT),
  ("Tshape", .type .DT_INT32)]

/-- The `GraphDef` that its cluster gets. -/
def reshapeDef : GraphDef where
  node := [
    ⟨"ngraph_input_0", "_Arg", [],
      [("T", .type .DT_FLOAT), ("index", .i 0), ("_prov_tag", .s "x")]⟩,
    ⟨"ngraph_input_1", "_Arg", [],
      [("T", .type .DT_INT32), ("index", .i 1), ("_prov_tag", .s "shape")]⟩,
    ⟨"ngraph_output_0", "_Retval", ["y:0"],
      [("T", .type .DT_FLOAT), ("index", .i 0)]⟩,
    ⟨"y", "Reshape", ["ngraph_input_0", "ngraph_input_1"], reshapeAttrs⟩]

/-- The graph of that `GraphDef`. -/
def reshapeInner : Graph where
  nodes := [
    ⟨0, "_SOURCE", "NoOp", [], [], [], "", []⟩,
    ⟨1, "_SINK", "NoOp", [], [], [], "", []⟩,
    ⟨2, "ngraph_input_0", "_Arg",
      [("T", .type .DT_FLOAT), ("index", .i 0), ("_prov_tag", .s "x")], [],
      [.DT_FLOAT], "", []⟩,
    ⟨3, "ngraph_input_1", "_Arg",
      [("T", .type .DT_INT32), ("index", .i 1), ("_prov_tag", .s "shape")], [],
      [.DT_INT32], "", []⟩,
    ⟨4, "ngraph_output_0", "_Retval", [("T", .type .DT_FLOAT), ("index", .i 0)],
      [.DT_FLOAT], [], "", ["y:0"]⟩,
    ⟨5, "y", "Reshape", reshapeAttrs, [.DT_FLOAT, .DT_INT32], [.DT_FLOAT], "",
      ["ngraph_input_0", "ngraph_input_1"]⟩]
  edges :=
    [⟨0, 0, -1, 2, -1⟩, ⟨1, 0, -1, 3, -1⟩, ⟨2, 2, 0, 5, 0⟩, ⟨3, 3, 0, 5, 1⟩,
      ⟨4, 5, 0, 4, 0⟩, ⟨5, 4, -1, 1, -1⟩]

def reshapeBridge : Bridge where
  backend := ⟨"CPU", fun _ => true⟩
  hasher := constantHasher
  library := {
    convertGraphDefToGraph := fun gdef =>
      if gdef = reshapeDef then .ok reshapeInner
      else .error (errors.invalidArgument "Unknown op")
    orders := Graph.byInsertion }

theorem reshapeGraph_wf : reshapeGraph.WF := by
  constructor <;> decide

def reshapeRequest : Request where
  graph := reshapeGraph
  skip_these_nodes := ∅
  config_map := []
  enabled := true
  disabled_ops := ∅
  deassign := ⟨true, none⟩
  wf := reshapeGraph_wf
  unassigned := by decide

theorem reshapeBridge_converts (gdef : GraphDef) (graph : Graph)
    (success : reshapeBridge.library.convertGraphDefToGraph gdef = .ok graph) :
    Converts gdef graph := by
  change (if gdef = reshapeDef then _ else _) = _ at success
  split at success
  case isTrue same =>
    obtain rfl := Except.ok.inj success
    subst same
    constructor
    case wf => constructor <;> decide
    case distinct => decide
    case node =>
      have found : ∀ node_def ∈ reshapeDef.node, ∃ node ∈ reshapeInner.nodes,
          node.name = node_def.name ∧ node.type_string = node_def.op ∧
            node.attrs = node_def.attr := by decide
      intro node_def member
      obtain ⟨node, inNodes, name, op, attrs⟩ := found node_def member
      refine ⟨node, inNodes, name, op, fun _ _ atName => ?_⟩
      rw [attrs, atName]
    case edge =>
      intro dst_def dstIn src_def srcIn input text atInput named
      have found : ∀ dst_def ∈ reshapeDef.node, ∀ src_def ∈ reshapeDef.node,
          ∀ entry ∈ dst_def.dataInputs.zipIdx,
          (parseTensorName entry.1).1 = src_def.name →
          ∃ edge ∈ reshapeInner.edges, edge.isControlEdge = false ∧
            edge.dst_input = entry.2 ∧
            (reshapeInner.node edge.src).name = src_def.name ∧
            (reshapeInner.node edge.dst).name = dst_def.name := by decide
      exact found dst_def dstIn src_def srcIn (text, input)
        (List.mk_mem_zipIdx_iff_getElem?.mpr atInput) named
  case isFalse => simp at success

theorem static_inputs_fed_reshapeGraph : ∃ after outcome,
    rewrite reshapeBridge reshapeRequest .init = (after, .rewritten outcome) ∧
      ∃ id, outcome.rewritten.cluster_node_map 0 = some id ∧
        after.manager.getClusterGraph 0 = some reshapeDef ∧
        IsStaticSource (outcome.rewritten.graph.node id)
          ⟨"ngraph_input_1", "_Arg", [],
          [("T", .type .DT_INT32), ("index", .i 1),
            ("_prov_tag", .s "shape")]⟩ := by
  have succeeds : (match rewrite reshapeBridge reshapeRequest .init with
      | (after, .rewritten outcome) =>
          (outcome.rewritten.cluster_node_map 0).isSome &&
          after.manager.getClusterGraph 0 == some reshapeDef
      | _ => false) = true := by decide
  split at succeeds
  case h_1 after outcome call =>
    obtain ⟨mapped, stored⟩ := Bool.and_eq_true_iff.mp succeeds
    obtain ⟨id, mapped⟩ := Option.isSome_iff_exists.mp mapped
    have stored := eq_of_beq stored
    refine ⟨after, outcome, call, id, mapped, stored, ?_⟩
    obtain ⟨position, text, isOne, atPosition, _, sources⟩ :=
      static_inputs_fed reshapeBridge_converts (by decide) call mapped stored
        ⟨"y", "Reshape", ["ngraph_input_0", "ngraph_input_1"], reshapeAttrs⟩
        (by decide) 1 (by decide)
    obtain rfl := Int.ofNat_inj.mp isOne
    obtain rfl : "ngraph_input_1" = text := Option.some.inj atPosition
    exact sources _ (by decide) (by decide)
  case h_2 => simp at succeeds

end NGraphBridge.NGraphRewritePass
