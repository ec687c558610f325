import NGraphBridge.EncapsulateClusters.Quotient
import NGraphBridge.MarkForClustering.History
import NGraphBridge.NGraphRewritePass.Bridged
import NGraphBridge.NGraphRewritePass.Devices
import NGraphBridge.NGraphRewritePass.Process

/-!
# A rewrite keeps the values

Marking, clustering and deassigning annotate the nodes, and encapsulation is
only given clusters that it can evaluate. So the graph that a call leaves
computes what the graph before it did, whatever status the call returns.
-/

namespace NGraphBridge.NGraphRewritePass

open TF MarkForClustering AssignClusters DeassignClusters EncapsulateClusters
  NGraphBridge.Digraph

variable {V : Type}

/-- The attributes that the first three phases write. -/
def bridgeAttrs : List String :=
  ["_ngraph_marked_for_clustering", "_ngraph_static_inputs", "_ngraph_cluster"]

/-- Ops do not look at these attributes. -/
def Oblivious (interp : Interpretation V) : Prop :=
  ∀ name op (attrs other : AttrMap) values slot,
    (∀ key, key ∉ bridgeAttrs → attrs.find key = other.find key) →
    interp name op attrs values slot = interp name op other values slot

/-- An update of these attributes. -/
structure Annotates (update : Node → Node) :
    Prop extends Graph.Relabels update where
  attr : ∀ node key, key ∉ bridgeAttrs →
    (update node).attrs.find key = node.attrs.find key

theorem annotates_id : Annotates id :=
  ⟨⟨fun _ => rfl, fun _ => rfl, fun _ => rfl, fun _ => rfl, fun _ => rfl⟩,
    fun _ _ _ => rfl⟩

theorem Annotates.comp {first second : Node → Node} (outer : Annotates second)
    (inner : Annotates first) : Annotates (second ∘ first) :=
  ⟨outer.toRelabels.comp inner.toRelabels,
    fun node key other => (outer.attr _ key other).trans
      (inner.attr node key other)⟩

theorem annotates_of_pointwise {update : Node → Node}
    (each : ∀ node, ∃ other, Annotates other ∧ update node = other node) :
    Annotates update := by
  refine ⟨⟨?_, ?_, ?_, ?_, ?_⟩, ?_⟩
  all_goals
    intro node
    obtain ⟨other, annotates, same⟩ := each node
    rw [same]
  · exact annotates.id node
  · exact annotates.name node
  · exact annotates.type node
  · exact annotates.inputs node
  · exact annotates.outputs node
  · exact annotates.attr node

theorem annotates_addAttr {name : String} (listed : name ∈ bridgeAttrs)
    (value : Node → AttrValue) :
    Annotates fun node => node.addAttr name (value node) := by
  refine ⟨⟨fun _ => rfl, fun _ => rfl, fun _ => rfl, fun _ => rfl,
      fun _ => rfl⟩, ?_⟩
  intro node key other
  apply AttrMap.find_set_of_ne
  rintro rfl
  exact other listed

theorem annotates_clearAttr {name : String} (listed : name ∈ bridgeAttrs) :
    Annotates fun node => node.clearAttr name := by
  refine ⟨⟨fun _ => rfl, fun _ => rfl, fun _ => rfl, fun _ => rfl,
      fun _ => rfl⟩, ?_⟩
  intro node key other
  apply AttrMap.find_clear_of_ne
  rintro rfl
  exact other listed

theorem annotates_markNode : Annotates markNode := by
  have mark : Annotates (·.addAttr "_ngraph_marked_for_clustering" (.b true)) :=
    annotates_addAttr (by decide) _
  apply annotates_of_pointwise
  intro node
  cases markNode_cases node with
  | inl plain => exact ⟨_, mark, plain⟩
  | inr static =>
      obtain ⟨indices, same⟩ := static
      have setter : Annotates (setStaticInputs indices) :=
        annotates_addAttr (by decide) _
      exact ⟨_, setter.comp mark, same⟩

theorem annotates_tagNode (tag : Nat → Option Nat) :
    Annotates (tagNode tag) := by
  apply annotates_of_pointwise
  intro node
  cases tagged : tag node.id with
  | none => exact ⟨id, annotates_id, by simp [tagNode, tagged]⟩
  | some k =>
      have tags : Annotates (·.addAttr "_ngraph_cluster" (.i k)) :=
        annotates_addAttr (by decide) _
      exact ⟨_, tags, by simp [tagNode, tagged]⟩

theorem annotates_bustNode : Annotates bustNode := by
  have first : Annotates (·.clearAttr "_ngraph_cluster") :=
    annotates_clearAttr (by decide)
  have second : Annotates (·.clearAttr "_ngraph_marked_for_clustering") :=
    annotates_clearAttr (by decide)
  exact second.comp first

theorem annotates_keepOrBust (busted : Int → Bool) :
    Annotates (keepOrBust busted) := by
  apply annotates_of_pointwise
  intro node
  unfold keepOrBust
  split
  · split
    · exact ⟨bustNode, annotates_bustNode, rfl⟩
    · exact ⟨id, annotates_id, rfl⟩
  · exact ⟨id, annotates_id, rfl⟩

section Annotated

variable {graph : Graph} {update : Node → Node} (annotates : Annotates update)

include annotates

theorem Annotates.evaluates {interp : Interpretation V} {val : Nat × Int → V}
    (oblivious : Oblivious interp) (evaluates : graph.Evaluates interp val) :
    (graph.mapNodes update).Evaluates interp val := by
  intro node member
  obtain ⟨old, oldIn, rfl⟩ := annotates.op_nodes.mp member
  obtain ⟨values, reads, computes⟩ := evaluates old oldIn
  refine ⟨values, ?_, ?_⟩
  · rw [annotates.id, annotates.inputs]
    exact reads
  · intro slot
    rw [annotates.id, annotates.name, annotates.type, computes]
    exact oblivious _ _ _ _ _ _ fun key other =>
      (annotates.attr old key other).symm

theorem Annotates.unprocessed (unprocessed : Unprocessed graph) :
    Unprocessed (graph.mapNodes update) := by
  intro node member
  obtain ⟨old, oldIn, rfl⟩ := List.mem_map.mp member
  rw [annotates.type]
  exact unprocessed old oldIn

end Annotated

section Marks

theorem examine_accepted {backend : Backend} {map : ConfirmationMap}
    {skip_these_nodes : OrderedSet String} {node : Node}
    (success : examine backend map skip_these_nodes node = .ok .accepted) :
    node.name ∉ skip_these_nodes ∧ map.find node.type_string ≠ none ∧
      backend.isSupported node.type_string = true := by
  have confirmed : map.find node.type_string ≠ none := by
    cases examine_ok success with
    | inl absent => simp at absent
    | inr present =>
        obtain ⟨confirm, found, _⟩ := present
        simp [found]
  unfold examine at success
  split at success
  case isTrue => simp at success
  case isFalse notSkipped =>
    refine ⟨by simpa [checkIfOutputNode] using notSkipped, confirmed, ?_⟩
    rw [if_neg (by simp [nGraphPlacementRequested])] at success
    obtain ⟨_, _, success⟩ := bind_ok success
    split at success
    case isTrue =>
      split at success
      · simp [pure, Except.pure] at success
      · simp [pure, Except.pure] at success
    case isFalse =>
      split at success
      case isTrue => simp [pure, Except.pure] at success
      case isFalse =>
        split at success
        case isTrue => simp [pure, Except.pure] at success
        case isFalse supported => simpa using supported

/-- Distinct nodes are each marked once. -/
theorem markNodes_mapNodes (graph : Graph) {nodes : List Node}
    (distinct : (nodes.map Node.id).Nodup) :
    markNodes graph nodes = graph.mapNodes fun node =>
      if node.id ∈ nodes.map Node.id then markNode node else node := by
  induction nodes generalizing graph with
  | nil => simp [markNodes, Graph.mapNodes]
  | cons node nodes ih =>
      rw [List.map_cons, List.nodup_cons] at distinct
      have step : markNodes graph (node :: nodes) =
          markNodes (graph.updateNode node.id markNode) nodes := rfl
      rw [step, ih _ distinct.2]
      simp only [Graph.mapNodes, Graph.updateNode, List.map_map,
        TF.Graph.mk.injEq, and_true]
      apply List.map_congr_left
      intro other _
      simp only [Function.comp_apply, beq_iff_eq, List.map_cons, List.mem_cons]
      by_cases same : other.id = node.id
      · have notLater : (markNode other).id ∉ nodes.map Node.id := by
          rw [annotates_markNode.id, same]
          exact distinct.1
        rw [if_pos same, if_neg notLater, if_pos (.inl same)]
      · rw [if_neg same]
        simp [same]

theorem examineAll_nodes {backend : Backend} {map : ConfirmationMap}
    {skip_these_nodes : OrderedSet String} {nodes : List Node}
    {verdicts : List (Node × Verdict)}
    (success : examineAll backend map skip_these_nodes nodes = .ok verdicts) :
    verdicts.map Prod.fst = nodes := by
  induction nodes generalizing verdicts with
  | nil =>
      obtain rfl := Except.ok.inj success
      rfl
  | cons node nodes ih =>
      obtain ⟨verdict, _, success⟩ := bind_ok success
      obtain ⟨rest, atRest, success⟩ := bind_ok success
      obtain rfl := Except.ok.inj success
      rw [List.map_cons, ih atRest]

variable (bridge : Bridge) (request : Request) (statics : Statics)

/-- A node that a call can mark: it is not to be skipped, and its op is
supported and, unless the set of disabled ops was turned down before, not
disabled. -/
structure Acceptable (node : Node) : Prop where
  name : node.name ∉ request.skip_these_nodes
  supported : bridge.backend.isSupported node.type_string = true
  enabled : statics.mark.Inv → Supported request.disabled_ops →
    node.type_string ∉ request.disabled_ops

theorem marked_mapNodes : ∃ accepted : List Nat,
    (marked bridge request statics).graph = request.graph.mapNodes
      (fun node => if node.id ∈ accepted then markNode node else node) ∧
    ∀ node ∈ request.graph.nodes, node.id ∈ accepted →
      Acceptable bridge request statics node := by
  have unchanged : request.graph = request.graph.mapNodes
      (fun node => if node.id ∈ ([] : List Nat) then markNode node
        else node) := by
    simp [Graph.mapNodes]
  unfold marked markForClustering
  split
  · exact ⟨[], unchanged, by simp⟩
  case h_2 updated update =>
    split
    · exact ⟨[], unchanged, by simp⟩
    case h_2 verdicts examined =>
      have nodes := examineAll_nodes examined
      have fewer : (nodesMarkedForClustering verdicts).Sublist
          request.graph.nodes := by
        have some_ : (nodesMarkedForClustering verdicts).Sublist
            (verdicts.map Prod.fst) :=
          List.filter_sublist.map Prod.fst
        rw [nodes] at some_
        exact some_.trans List.filter_sublist
      have distinct : ((nodesMarkedForClustering verdicts).map Node.id).Nodup :=
        (fewer.map Node.id).nodup request.wf.ids
      refine ⟨_, markNodes_mapNodes request.graph distinct, ?_⟩
      intro node member isMarked
      obtain ⟨other, otherMarked, sameId⟩ := List.mem_map.mp isMarked
      obtain rfl : other = node :=
        request.wf.id_injective (fewer.subset otherMarked) member sameId
      obtain ⟨entry, inVerdicts, rfl⟩ := List.mem_map.mp otherMarked
      obtain ⟨inAll, isAccepted⟩ := List.mem_filter.mp inVerdicts
      have verdict : entry.2 = .accepted := by simpa using isAccepted
      have examinedNode :=
        examineAll_mem examined (show (entry.1, entry.2) ∈ verdicts from inAll)
      rw [verdict] at examinedNode
      obtain ⟨notSkipped, confirmed, supported⟩ := examine_accepted examinedNode
      refine ⟨notSkipped, supported, fun inv validated isDisabled =>
        confirmed ?_⟩
      rw [(updateStatics_ok inv (.inr validated) update).2, if_pos isDisabled]

end Marks

/-- What the callers of a rewrite promise: names are legal and not those of
arguments, and there is no loop. -/
structure Rewritable (graph : Graph) : Prop where
  legal : ∀ node ∈ graph.nodes, LegalName node.name
  generated : ∀ node ∈ graph.op_nodes, ∀ k, node.name ≠ inputName k
  acyclic : Acyclic graph.DataEdge
  loopFree : ∀ node ∈ graph.op_nodes, node.isNextIteration = false
  marks : ∀ node ∈ graph.op_nodes, nodeIsMarkedForClustering node = true →
    node.type_string ≠ "_Arg" ∧ node.type_string ≠ "_Retval"

/-- A graph whose names are short and whose edges go up. -/
theorem rewritable_of_rising {graph : Graph}
    (legal : ∀ node ∈ graph.nodes, LegalName node.name)
    (short : ∀ node ∈ graph.op_nodes, node.name.length < 13)
    (rising : ∀ edge ∈ graph.edges, edge.isControlEdge = false →
      edge.src < edge.dst)
    (loopFree : ∀ node ∈ graph.op_nodes, node.isNextIteration = false)
    (marks : ∀ node ∈ graph.op_nodes, nodeIsMarkedForClustering node = true →
      node.type_string ≠ "_Arg" ∧ node.type_string ≠ "_Retval") :
    Rewritable graph where
  legal := legal
  generated := by
    intro node member k same
    have long : 13 ≤ (inputName k).length := by
      rw [inputName, String.length_append]
      exact Nat.le_add_right 13 _
    have tooShort := short node member
    rw [same] at tooShort
    omega
  acyclic := by
    apply acyclic_of_rank id
    rintro _ _ ⟨_, _, edge, member, data, rfl, _, rfl, _⟩
    exact rising edge member data
  loopFree := loopFree
  marks := marks

theorem supported_type {backend : Backend} {op : String}
    (supported : backend.isSupported op = true) : op ≠ "_Arg" ∧
    op ≠ "_Retval" := by
  have unknown : TFtoNgraphOpMap.lookup "_Arg" = none ∧
      TFtoNgraphOpMap.lookup "_Retval" = none := by decide
  constructor
  · rintro rfl
    simp [Backend.isSupported, unknown.1] at supported
  · rintro rfl
    simp [Backend.isSupported, unknown.2] at supported

section Clustered

variable {bridge : Bridge} {request : Request} {statics : Statics}
  {predicate_map : Deadness.PredicateMap} {state : AssignClusters.State}
  {tag : Nat → Option Nat} {busted : Int → Bool}

/-- The first three phases annotate the graph. -/
theorem Clustered.annotates
    (clustered : Clustered bridge request statics predicate_map state
      tag busted) :
    ∃ update, Annotates update ∧
      declustered bridge request statics = request.graph.mapNodes update := by
  obtain ⟨accepted, markedGraph, _⟩ := marked_mapNodes bridge request statics
  have marks : Annotates fun node => if node.id ∈ accepted then markNode node
      else node := by
    apply annotates_of_pointwise
    intro node
    split
    · exact ⟨markNode, annotates_markNode, rfl⟩
    · exact ⟨id, annotates_id, rfl⟩
  refine ⟨_, ((annotates_keepOrBust busted).comp (annotates_tagNode tag)).comp
    marks, ?_⟩
  rw [clustered.output, markedGraph]
  simp only [Graph.mapNodes, List.map_map]

/-- A node in a cluster was marked before the call, or is marked by it. -/
def Clusterable (bridge : Bridge) (request : Request) (statics : Statics)
    (node : Node) : Prop :=
  nodeIsMarkedForClustering node = true ∨ Acceptable bridge request statics node

theorem Clustered.clusterable
    (clustered : Clustered bridge request statics predicate_map state tag
      busted) {node : Node}
    (member : node ∈ request.graph.op_nodes) {c : Int}
    (inCluster : getNodeCluster
      ((declustered bridge request statics).node node.id) = .ok c) :
    Clusterable bridge request statics node := by
  have inGraph := (List.mem_filter.mp member).1
  have idNode : request.graph.HasNode node.id := ⟨node, inGraph, rfl⟩
  obtain ⟨accepted, markedGraph, acceptable⟩ :=
    marked_mapNodes bridge request statics
  have markedNode : (marked bridge request statics).graph.HasNode node.id :=
    (marked_hasNode bridge request statics).mpr idNode
  obtain ⟨⟨k, tagged, _⟩, _⟩ := (clustered.cluster_iff markedNode).mp inCluster
  have isMarked := (clustered.found.marked markedNode).mp (by simp [tagged])
  rw [markedGraph] at isMarked
  have atNode : (request.graph.mapNodes fun node =>
      if node.id ∈ accepted then markNode node else node).node node.id =
        if node.id ∈ accepted then markNode node else node := by
    have keepsId : ∀ other : Node,
        (if other.id ∈ accepted then markNode other else other).id =
          other.id := by
      intro other
      split
      · exact annotates_markNode.id other
      · rfl
    have mapped := Graph.node_map idNode keepsId
    rw [request.wf.node_eq inGraph] at mapped
    exact mapped
  rw [atNode] at isMarked
  by_cases isAccepted : node.id ∈ accepted
  · exact .inr (acceptable node inGraph isAccepted)
  · rw [if_neg isAccepted] at isMarked
    exact .inl isMarked

theorem Clustered.deassigned_eq
    (clustered : Clustered bridge request statics predicate_map state
      tag busted) :
    declustered bridge request statics =
      deassigned busted (assigned bridge request statics).graph := by
  have output : (assigned bridge request statics).graph =
      tagGraph tag (marked bridge request statics).graph :=
    clustered.found.output
  rw [clustered.output, output]
  simp only [deassigned, tagGraph, Graph.mapNodes, List.map_map]

/-- The clusters that are left can be encapsulated. -/
theorem Clustered.encapsulable
    (clustered : Clustered bridge request statics predicate_map state
      tag busted)
    (rewritable : Rewritable request.graph) :
    Encapsulable (assigned bridge request statics).manager
      (declustered bridge request statics) := by
  obtain ⟨update, annotates, same⟩ := clustered.annotates
  have wf := clustered.wf
  have edges : (declustered bridge request statics).edges =
      request.graph.edges := by
    rw [same]
    rfl
  have old : ∀ node ∈ (declustered bridge request statics).op_nodes,
      ∃ other ∈ request.graph.op_nodes, node = update other := by
    intro node member
    rw [same] at member
    obtain ⟨other, otherIn, rfl⟩ := annotates.op_nodes.mp member
    exact ⟨other, otherIn, rfl⟩
  constructor
  case wf => exact wf
  case legal =>
    intro node member
    rw [same] at member
    obtain ⟨other, otherIn, rfl⟩ := List.mem_map.mp member
    rw [annotates.name]
    exact rewritable.legal other otherIn
  case generated =>
    intro node member k
    obtain ⟨other, otherIn, rfl⟩ := old node member
    rw [annotates.name]
    exact rewritable.generated other otherIn k
  case pure =>
    intro node member isClustered_
    have self := wf.node_eq (List.mem_filter.mp member).1
    obtain ⟨other, otherIn, rfl⟩ := old node member
    have inCluster := getNodeCluster_of isClustered_
    rw [← self, annotates.id] at inCluster
    rw [annotates.type]
    cases clustered.clusterable otherIn inCluster with
    | inl before => exact rewritable.marks other otherIn before
    | inr accepted => exact supported_type accepted.supported
  case empty =>
    intro node member c gdef inCluster found
    have fresh := (clustered.fresh member inCluster).2
    rw [found] at fresh
    exact Option.some.inj fresh
  case acyclic =>
    have sameEdges : (declustered bridge request statics).DataEdge =
        request.graph.DataEdge := by
      unfold Graph.DataEdge Graph.Feeds
      rw [edges]
    rw [sameEdges]
    exact rewritable.acyclic
  case blocks =>
    have unclustered : ∀ node ∈ (marked bridge request statics).graph.nodes,
        isClustered node = false := by
      intro node member
      simp [isClustered, getNodeCluster, getNodeAttrInt,
        clustered.unassigned node member]
    have acyclic :=
      @acyclic_deassigned _ _ _ _ _ _ _ _ busted clustered.markedWF
        clustered.found unclustered
    rw [← clustered.deassigned_eq] at acyclic
    apply acyclic.mono
    rintro left right ⟨apart, u, v, step, atU, atV⟩
    refine ⟨apart, u, v, ⟨.inr step, ?_, ?_⟩, atU, atV⟩
    all_goals
      obtain ⟨_, _, feeds⟩ := step
      obtain ⟨⟨_, srcOp⟩, _, dstOp⟩ := feeds_ends wf feeds
    · obtain ⟨other, otherIn, isOld⟩ := old _ srcOp
      rw [isOld, isLoopBack, Node.isNextIteration, annotates.type,
        ← Node.isNextIteration, rewritable.loopFree other otherIn,
        Bool.false_and]
    · obtain ⟨other, otherIn, isOld⟩ := old _ dstOp
      rw [isOld, isLoopBack, Node.isNextIteration, annotates.type,
        ← Node.isNextIteration, rewritable.loopFree other otherIn,
        Bool.false_and]

end Clustered

/-- A clustering that fails may have tagged some clusters. -/
theorem tagClusters_graph {graph : Graph} (order : graph.Enumeration)
    (state : AssignClusters.State) (ids : List Nat) (tags : Tags)
    (tagged : ∃ tag, tags.graph = tagGraph tag graph) :
    ∃ tag, (tagClusters order state ids tags).1.graph = tagGraph tag graph := by
  induction ids generalizing tags with
  | nil => exact tagged
  | cons id ids ih =>
      have step : ∃ tag, (tagCluster order state id tags).1.graph =
          tagGraph tag graph := by
        unfold tagCluster
        dsimp only
        split
        · exact tagged
        · split
          · exact tagged
          · exact tagged
          · exact tagged
          · obtain ⟨tag, same⟩ := tagged
            rw [same]
            exact ⟨_, tagNodes_tagGraph _ _ tag graph⟩
      unfold tagClusters
      split
      case h_1 next atStep => exact ih next (by rwa [atStep] at step)
      case h_2 next error atStep => rwa [atStep] at step

theorem assignClusters_graph {graph : Graph} (hasher : Deadness.Hasher)
    (order : graph.Enumeration) (manager : ClusterManager) :
    ∃ tag, (assignClusters hasher order manager).graph =
      tagGraph tag graph := by
  have untagged : graph = tagGraph (fun _ => none) graph :=
    congrArg (TF.Graph.mk · graph.edges) (List.map_id graph.nodes).symm
  unfold assignClusters
  split
  · exact ⟨_, untagged⟩
  · exact tagClusters_graph order _ _ ⟨[], manager, graph⟩ ⟨_, untagged⟩

section Call

variable (bridge : Bridge) (environment : EncapsulateClusters.Environment)
  (request : Request) (statics : Statics)

/-- The graph after a call, whatever its status. -/
def graphAfter : Graph :=
  if !request.enabled || isAlreadyProcessed request.graph then request.graph
  else
    match (marked bridge request statics).result with
    | .error _ => (marked bridge request statics).graph
    | .ok _ =>
        match (assigned bridge request statics).status with
        | .error _ => (assigned bridge request statics).graph
        | .ok () =>
            (encapsulateClustersLeaving environment bridge.library
              (assigned bridge request statics).manager statics.s_serial_counter
              request.config_map (declustered bridge request statics)).graph

variable {interp : Interpretation V} {val : Nat × Int → V}

theorem annotates_marked : ∃ update, Annotates update ∧
    (marked bridge request statics).graph = request.graph.mapNodes update := by
  obtain ⟨accepted, markedGraph, _⟩ := marked_mapNodes bridge request statics
  refine ⟨_, ?_, markedGraph⟩
  apply annotates_of_pointwise
  intro node
  split
  · exact ⟨markNode, annotates_markNode, rfl⟩
  · exact ⟨id, annotates_id, rfl⟩

theorem annotates_assigned : ∃ update, Annotates update ∧
    (assigned bridge request statics).graph =
      request.graph.mapNodes update := by
  obtain ⟨update, annotates, same⟩ := annotates_marked bridge request statics
  obtain ⟨tag, tagged⟩ := assignClusters_graph bridge.hasher
    (bridge.library.orders (marked bridge request statics).graph)
    statics.manager
  refine ⟨_, (annotates_tagNode tag).comp annotates, ?_⟩
  rw [assigned, tagged, same]
  simp only [tagGraph, Graph.mapNodes, List.map_map]

theorem kept_annotated {manager : ClusterManager} {graph : Graph}
    {update : Node → Node} (annotates : Annotates update) (wf : graph.WF)
    (rewritable : Rewritable graph) (unprocessed : Unprocessed graph)
    (oblivious : Oblivious interp) (evaluates : graph.Evaluates interp val)
    (moves : Node → Prop) :
    Kept manager interp graph moves val (graph.mapNodes update) := by
  have inner : Kept manager interp (graph.mapNodes update) (fun _ => False) val
      (graph.mapNodes update) :=
    kept_refl (wf.mapNodes annotates.toRelabels) rewritable.acyclic
      (annotates.unprocessed unprocessed)
      (annotates.evaluates oblivious evaluates) _
  exact inner.of_mapNodes annotates.toRelabels fun _ _ impossible =>
    impossible.elim

/-- Encapsulation keeps the values of the graph that the call was given. -/
theorem Clustered.kept {bridge : Bridge} {request : Request} {statics : Statics}
    {predicate_map : Deadness.PredicateMap} {state : AssignClusters.State}
    {tag : Nat → Option Nat} {busted : Int → Bool}
    (clustered : Clustered bridge request statics predicate_map state
      tag busted)
    (environment : EncapsulateClusters.Environment)
    (rewritable : Rewritable request.graph)
    (unprocessed : Unprocessed request.graph) (oblivious : Oblivious interp)
    (evaluates : request.graph.Evaluates interp val) :
    Kept
      (managerAfter (bridge.library.orders (declustered bridge request statics))
        (assigned bridge request statics).manager) interp request.graph
      (Clusterable bridge request statics) val
      (encapsulateClustersLeaving environment bridge.library
        (assigned bridge request statics).manager statics.s_serial_counter
        request.config_map (declustered bridge request statics)).graph := by
  obtain ⟨update, annotates, same⟩ := clustered.annotates
  have plain : Unprocessed (declustered bridge request statics) := by
    rw [same]
    exact annotates.unprocessed unprocessed
  have values : (declustered bridge request statics).Evaluates interp val := by
    rw [same]
    exact annotates.evaluates oblivious evaluates
  have moves : ∀ node ∈ request.graph.op_nodes,
      isClustered (update node) = true →
      Clusterable bridge request statics node := by
    intro node member isClustered_
    have inGraph := (List.mem_filter.mp member).1
    apply clustered.clusterable member (getNodeCluster_of _)
    rw [same, annotates.node ⟨node, inGraph, rfl⟩, request.wf.node_eq inGraph,
      isClustered_]
  have kept := encapsulateClustersLeaving_kept environment bridge.library
    statics.s_serial_counter request.config_map
    (clustered.encapsulable rewritable) plain values
  generalize (encapsulateClustersLeaving environment bridge.library
    (assigned bridge request statics).manager statics.s_serial_counter
    request.config_map (declustered bridge request statics)).graph =
    left at kept ⊢
  generalize managerAfter _ _ = manager at kept ⊢
  rw [same] at kept
  exact kept.of_mapNodes annotates.toRelabels moves

theorem unprocessed_of_ran
    (ran : (rewrite bridge request statics).2 ≠ .skipped) :
    ¬ (!request.enabled || isAlreadyProcessed request.graph) = true ∧
      Unprocessed request.graph := by
  by_cases notRun :
      (!request.enabled || isAlreadyProcessed request.graph) = true
  · rw [rewrite] at ran
    simp only [notRun, if_true, ne_eq, not_true_eq_false] at ran
  · refine ⟨notRun, ?_⟩
    simp only [Bool.or_eq_true, not_or, Bool.not_eq_true] at notRun
    exact unprocessed_iff.mpr notRun.2

theorem ran_of_unprocessed
    (notRun : (!request.enabled || isAlreadyProcessed request.graph) = false) :
    (rewrite bridge request statics).2 ≠ .skipped := by
  rw [rewrite, if_neg (by simp [notRun])]
  dsimp only
  split
  · simp
  · split
    · simp
    · split
      · simp
      · simp

/-- A call that is not skipped leaves a graph with the values of the one it was
given, whatever its status, and puts only nodes into clusters that it can
mark. -/
theorem graphAfter_kept (rewritable : Rewritable request.graph)
    (oblivious : Oblivious interp)
    (evaluates : request.graph.Evaluates interp val)
    (ran : (rewrite bridge request statics).2 ≠ .skipped) :
    Kept (rewrite bridge request statics).1.manager interp request.graph
      (Clusterable bridge request statics) val
      (graphAfter bridge environment request statics) := by
  obtain ⟨notRun, unprocessed⟩ := unprocessed_of_ran bridge request statics ran
  cases markResult : (marked bridge request statics).result with
  | error error =>
      obtain ⟨update, annotates, same⟩ :=
        annotates_marked bridge request statics
      have left : graphAfter bridge environment request statics =
          request.graph.mapNodes update := by
        rw [graphAfter, if_neg notRun, markResult, ← same]
      rw [left]
      exact kept_annotated annotates request.wf rewritable unprocessed oblivious
        evaluates _
  | ok verdicts =>
      cases status : (assigned bridge request statics).status with
      | error error =>
          obtain ⟨update, annotates, same⟩ :=
            annotates_assigned bridge request statics
          have left : graphAfter bridge environment request statics =
              request.graph.mapNodes update := by
            rw [graphAfter, if_neg notRun, markResult, status, ← same]
          rw [left]
          exact kept_annotated annotates request.wf rewritable unprocessed
            oblivious evaluates _
      | ok done =>
          obtain ⟨_, _, _, _, clustered⟩ :=
            clustered_of_ok bridge request statics status
          have kept := clustered.kept environment rewritable unprocessed
            oblivious evaluates
          have manager : (rewrite bridge request statics).1.manager =
              managerAfter
              (bridge.library.orders (declustered bridge request statics))
              (assigned bridge request statics).manager := by
            rw [rewrite]
            simp only [if_neg notRun, markResult, status]
            cases encapsulated bridge request statics with
            | error error => rfl
            | ok outcome => rfl
          rw [manager, graphAfter, if_neg notRun, markResult, status]
          exact kept

end Call

section Runs

variable {interp : Interpretation V} {graph next : Graph} {val : Nat × Int → V}
  {before after : ClusterManager}

/-- Clusters that are found stay where they are. -/
theorem evaluatesBridged_extends (extends_ : before.Extends after)
    (evaluable : ∃ some_, EvaluatesBridged before interp graph some_) :
    EvaluatesBridged after interp graph val ↔
    EvaluatesBridged before interp graph val := by
  obtain ⟨some_, found⟩ := evaluable
  constructor
  · intro evaluates
    constructor
    case op => exact evaluates.op
    case cluster =>
      intro node member isEncapsulate
      obtain ⟨idx, gdef, _, _, hasCluster, stored, _⟩ :=
        found.cluster node member isEncapsulate
      obtain ⟨otherIdx, otherDef, args, local_, otherCluster,
        otherStored, rest⟩ :=
        evaluates.cluster node member isEncapsulate
      rw [hasCluster] at otherCluster
      obtain rfl := Except.ok.inj otherCluster
      rw [extends_ idx gdef stored] at otherStored
      obtain rfl := Option.some.inj otherStored
      exact ⟨idx, gdef, args, local_, hasCluster, stored, rest⟩
  · intro evaluates
    constructor
    case op => exact evaluates.op
    case cluster =>
      intro node member isEncapsulate
      obtain ⟨idx, gdef, args, local_, hasCluster, stored, rest⟩ :=
        evaluates.cluster node member isEncapsulate
      exact ⟨idx, gdef, args, local_, hasCluster,
        extends_ idx gdef stored, rest⟩

theorem Preserves.extends (preserves : Preserves before interp graph val next)
    (extends_ : before.Extends after) :
    Preserves after interp graph val next := by
  have same : ∀ other, EvaluatesBridged after interp next other ↔
      EvaluatesBridged before interp next other :=
    fun _ => evaluatesBridged_extends extends_ preserves.evaluable
  constructor
  case evaluable =>
    obtain ⟨other, evaluates⟩ := preserves.evaluable
    exact ⟨other, (same other).mpr evaluates⟩
  case same => exact preserves.same
  case origin => exact preserves.origin
  case output => exact fun other evaluates =>
    preserves.output other ((same other).mp evaluates)
  case input => exact fun other evaluates =>
    preserves.input other ((same other).mp evaluates)

theorem Kept.extends {moves : Node → Prop}
    (kept : Kept before interp graph moves val next)
    (extends_ : before.Extends after) :
    Kept after interp graph moves val next where
  toPreserves := kept.toPreserves.extends extends_
  stays := kept.stays
  copies := by
    intro node member isEncapsulate idx gdef hasCluster stored
    obtain ⟨some_, found⟩ := kept.evaluable
    obtain ⟨otherIdx, otherDef, _, _, otherCluster, otherStored, _⟩ :=
      found.cluster node member isEncapsulate
    rw [hasCluster] at otherCluster
    obtain rfl := Except.ok.inj otherCluster
    rw [extends_ idx otherDef otherStored] at stored
    obtain rfl := Option.some.inj stored
    exact kept.copies node member isEncapsulate idx otherDef hasCluster
      otherStored

variable (bridge : Bridge)

/-- A step that starts no new era evicts nothing. -/
theorem process_extends (state : Process) (event : Event) :
    state.era ≤ ((process bridge).step state event).1.era ∧
      (((process bridge).step state event).1.era = state.era →
        state.statics.manager.Extends
          ((process bridge).step state event).1.statics.manager) := by
  cases event with
  | construct index => exact ⟨le_rfl, fun _ => .refl _⟩
  | rewrite request =>
      have step : ((process bridge).step state (.rewrite request)).1 =
          rewriteStep bridge state request := rfl
      rw [step, rewriteStep]
      split
      case h_1 statics call =>
        refine ⟨Nat.le_succ _, fun sameEra => ?_⟩
        dsimp only at sameEra
        omega
      case h_2 statics error call =>
        exact ⟨le_rfl, fun _ => rewrite_extends call (by simp)⟩
      case h_3 statics outcome call =>
        exact ⟨le_rfl, fun _ => rewrite_extends call (by simp)⟩

theorem final_extends (state : Process) (events : List Event) :
    state.era ≤ ((process bridge).final state events).era ∧
      (((process bridge).final state events).era = state.era →
        state.statics.manager.Extends
          ((process bridge).final state events).statics.manager) := by
  induction events generalizing state with
  | nil => exact ⟨le_rfl, fun _ => .refl _⟩
  | cons event events ih =>
      obtain ⟨later, first⟩ := process_extends bridge state event
      obtain ⟨rest, last⟩ := ih ((process bridge).step state event).1
      refine ⟨later.trans rest, fun sameEra => ?_⟩
      rw [Machine.final] at sameEra ⊢
      exact (first (by omega)).trans (last (by omega))

/-- In every run, the graph that a call leaves keeps its values until clusters
are evicted: whatever the status of the call, and whatever is rewritten after
it. -/
theorem final_kept (environment : EncapsulateClusters.Environment)
    (state : Process) (request : Request) (later : List Event)
    (rewritable : Rewritable request.graph) (oblivious : Oblivious interp)
    (evaluates : request.graph.Evaluates interp val)
    (current : ((process bridge).final state (.rewrite request :: later)).era =
      state.era) :
    Kept ((process bridge).final state
      (.rewrite request :: later)).statics.manager interp
      request.graph (Clusterable bridge request state.statics) val
      (graphAfter bridge environment request state.statics) := by
  rw [Machine.final] at current ⊢
  have first := (process_extends bridge state (.rewrite request)).1
  obtain ⟨grows, extends_⟩ :=
    final_extends bridge ((process bridge).step state (.rewrite request)).1
      later
  have sameEra : ((process bridge).step state (.rewrite request)).1.era =
      state.era := by omega
  have step : ((process bridge).step state (.rewrite request)).1 =
      rewriteStep bridge state request := rfl
  have ran : (rewrite bridge request state.statics).2 ≠ .skipped := by
    intro isSkipped
    have call : rewrite bridge request state.statics =
        ((rewrite bridge request state.statics).1, .skipped) :=
      Prod.ext rfl isSkipped
    rw [step, rewriteStep, call] at sameEra
    dsimp only at sameEra
    omega
  have manager :
      ((process bridge).step state (.rewrite request)).1.statics.manager =
      (rewrite bridge request state.statics).1.manager := by
    rw [step, rewriteStep]
    cases rewrite bridge request state.statics with
    | mk statics result =>
        cases result with
        | skipped => rfl
        | failed error => rfl
        | rewritten outcome => rfl
  have kept := graphAfter_kept bridge environment request state.statics
    rewritable oblivious evaluates ran
  rw [← manager] at kept
  exact kept.extends (extends_ (by omega))

end Runs

theorem negGraph_rewritable : Rewritable (unaryGraph "Neg") :=
  rewritable_of_rising (by decide) (by decide) (by decide) (by decide)
    (by decide)

def negInterp : Interpretation Int := fun _ op _ values _ =>
  match op, values with
  | "Placeholder", [] => 7
  | "Neg", [x] => -x
  | _, _ => 0

def negVal : Nat × Int → Int
  | (2, _) => 7
  | (3, _) => -7
  | _ => 0

theorem negGraph_evaluates : (unaryGraph "Neg").Evaluates negInterp negVal := by
  intro node member
  change node ∈ [_, _, _] at member
  simp only [List.mem_cons, List.not_mem_nil, or_false] at member
  rcases member with rfl | rfl | rfl
  · exact ⟨[], .nil, fun _ => rfl⟩
  · exact ⟨[7], .cons ⟨(2, 0), ⟨⟨1, 2, 0, 3, 0⟩, by decide⟩, rfl⟩ .nil,
      fun _ => rfl⟩
  · exact ⟨[-7], .cons ⟨(3, 0), ⟨⟨2, 3, 0, 4, 0⟩, by decide⟩, rfl⟩ .nil,
      fun _ => rfl⟩

/-- The negation is encapsulated, and another graph is rewritten after it. -/
theorem final_kept_negGraph :
    isAlreadyProcessed (graphAfter cpuBridge ⟨false, fun _ => .ok ()⟩
      (unaryRequest "Neg" negGraph_wf true) .init) = true ∧
    Kept ((process cpuBridge).final .init
      [.rewrite (unaryRequest "Neg" negGraph_wf true),
        .rewrite (unaryRequest "Abs" absGraph_wf true),
          .construct 0]).statics.manager
      negInterp (unaryGraph "Neg")
      (Clusterable cpuBridge (unaryRequest "Neg" negGraph_wf true) .init) negVal
      (graphAfter cpuBridge ⟨false, fun _ => .ok ()⟩
        (unaryRequest "Neg" negGraph_wf true) .init) :=
  ⟨by decide, final_kept cpuBridge ⟨false, fun _ => .ok ()⟩ .init
    (unaryRequest "Neg" negGraph_wf true) _ negGraph_rewritable
    (fun _ _ _ _ _ _ _ => rfl) negGraph_evaluates (by decide)⟩

end NGraphBridge.NGraphRewritePass
