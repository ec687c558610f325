import NGraphBridge.AssignClusters.Contractions
import NGraphBridge.EncapsulateClusters.Devices
import NGraphBridge.NGraphRewritePass.Process

/-!
# Clusters and devices

Encapsulation takes only clusters on one device, but the clustering does not
look at devices.  The two agree as long as no edge is contracted that leads
from one device to another.
-/

namespace NGraphBridge.NGraphRewritePass

open TF Deadness MarkForClustering AssignClusters DeassignClusters
  EncapsulateClusters Relation

section Stay

theorem markNode_device (node : Node) :
    (markNode node).assigned_device_name = node.assigned_device_name := by
  cases markNode_cases node with
  | inl plain => rw [plain, Node.addAttr]
  | inr static =>
      obtain ⟨indices, same⟩ := static
      rw [same]
      rfl

theorem markNodes_devices (nodes : List Node) (graph : Graph) :
    (markNodes graph nodes).nodes.map
      (fun node => (node.id, node.assigned_device_name)) =
      graph.nodes.map (fun node => (node.id, node.assigned_device_name)) := by
  induction nodes generalizing graph with
  | nil => rfl
  | cons marked nodes ih =>
      have step : markNodes graph (marked :: nodes) =
          markNodes (graph.updateNode marked.id markNode) nodes := rfl
      rw [step, ih, Graph.updateNode, List.map_map]
      apply List.map_congr_left
      intro node _
      rw [Function.comp_apply]
      split
      · rw [markNode_device, keepsCluster_markNode.id]
      · rfl

theorem node_field {β : Type} {graph other : Graph} (field : Node → β)
    (wf : graph.WF) (otherWF : other.WF)
    (same : other.nodes.map (fun node => (node.id, field node)) =
      graph.nodes.map (fun node => (node.id, field node)))
    {id : Nat} (idNode : graph.HasNode id) :
    field (other.node id) = field (graph.node id) := by
  obtain ⟨member, sameId⟩ := wf.node_mem idNode
  have listed :=
    List.mem_map_of_mem (f := fun node => (node.id, field node)) member
  rw [← same] at listed
  obtain ⟨found, inOther, agrees⟩ := List.mem_map.mp listed
  obtain ⟨atId, value⟩ := Prod.mk.inj agrees
  rw [← value, ← sameId, ← atId, otherWF.node_eq inOther]

variable (bridge : Bridge) (request : Request) (statics : Statics)

theorem marked_device {id : Nat} (idNode : request.graph.HasNode id) :
    ((marked bridge request statics).graph.node id).assigned_device_name =
      (request.graph.node id).assigned_device_name := by
  refine node_field Node.assigned_device_name request.wf
    (marked_wf bridge request statics) ?_ idNode
  unfold marked markForClustering
  split
  · rfl
  · split
    · rfl
    · exact markNodes_devices _ _

theorem marked_hasNode {id : Nat} :
    (marked bridge request statics).graph.HasNode id ↔
    request.graph.HasNode id := by
  obtain ⟨update, keeps, same⟩ := marked_eq bridge request statics
  rw [same]
  exact keeps.toRelabels.hasNode

theorem tagNode_device (tag : Nat → Option Nat) (node : Node) :
    (tagNode tag node).assigned_device_name = node.assigned_device_name := by
  unfold tagNode
  split
  · rfl
  · rfl

theorem keepOrBust_device (busted : Int → Bool) (node : Node) :
    (keepOrBust busted node).assigned_device_name =
      node.assigned_device_name := by
  unfold keepOrBust
  split
  · split
    · rfl
    · rfl
  · rfl

end Stay

section Tags

variable {graph : Graph} {hasher : Hasher} {order : graph.Enumeration}
  {manager : ClusterManager} {predicate_map : PredicateMap}
  {state : AssignClusters.State} {tag : Nat → Option Nat}
  {outcome : AssignClusters.Outcome}

/-- Some clusters are each on one device if the edges contracted in them are. -/
theorem devices_iff (wf : graph.WF)
    (atClusters : clusters hasher order = .ok state)
    (found : Assigned hasher order manager predicate_map state tag outcome)
    (device : Nat → String) (kept : Nat → Prop) :
    (∀ a b k, graph.HasNode a → graph.HasNode b → (graph.node a).isOp = true →
      (graph.node b).isOp = true → tag a = some k → tag b = some k → kept k →
      device a = device b) ↔
    ∀ edge ∈ contractedEdges order hasher, ∀ k, tag edge.src = some k → kept k →
      device edge.src = device edge.dst := by
  obtain ⟨contracted, generated⟩ := clusters_joined wf atClusters
  have sameTag : ∀ edge ∈ contractedEdges order hasher, ∀ k,
      tag edge.src = some k ↔ tag edge.dst = some k := by
    intro edge member k
    obtain ⟨contractible, together⟩ := contracted edge member
    have srcNode := wf.src edge contractible.member
    have dstNode := wf.dst edge contractible.member
    constructor
    · exact fun tagged => (found.together srcNode dstNode tagged).mpr together
    · exact fun tagged =>
        (found.together dstNode srcNode tagged).mpr together.symm
  constructor
  · intro same edge member k tagged isKept
    have contractible := (contracted edge member).1
    exact same edge.src edge.dst k (wf.src edge contractible.member)
      (wf.dst edge contractible.member) contractible.srcOp
      contractible.dstOp tagged ((sameTag edge member k).mp tagged) isKept
  · intro along a b k aNode bNode _ _ aTagged bTagged isKept
    have joined :=
      generated aNode bNode ((found.together aNode bNode aTagged).mp bTagged)
    have chain : ∀ {x y},
        EqvGen (fun x y => ∃ edge ∈ contractedEdges order hasher, edge.src = x ∧
          edge.dst = y) x y →
        (tag x = some k ↔ tag y = some k) ∧
        (tag x = some k → device x = device y) := by
      intro x y related
      induction related with
      | rel x y step =>
          obtain ⟨edge, member, rfl, rfl⟩ := step
          exact ⟨sameTag edge member k,
            fun tagged => along edge member k tagged isKept⟩
      | refl x => exact ⟨Iff.rfl, fun _ => rfl⟩
      | symm x y _ ih =>
          exact ⟨ih.1.symm, fun tagged => (ih.2 (ih.1.mpr tagged)).symm⟩
      | trans x y z _ _ first second =>
          refine ⟨first.1.trans second.1, fun tagged => ?_⟩
          exact (first.2 tagged).trans (second.2 (first.1.mp tagged))
    exact (chain joined).2 aTagged

end Tags

theorem sameDevices_mapNodes {graph : Graph} {update : Node → Node}
    (wf : graph.WF) (relabels : Graph.Relabels update)
    (keeps : ∀ node, (update node).assigned_device_name =
      node.assigned_device_name) :
    SameDevices (graph.mapNodes update).op_nodes ↔
      ∀ a b c, graph.HasNode a → graph.HasNode b → (graph.node a).isOp = true →
        (graph.node b).isOp = true →
        getNodeCluster ((graph.mapNodes update).node a) = .ok c →
        getNodeCluster ((graph.mapNodes update).node b) = .ok c →
        (graph.node a).assigned_device_name =
          (graph.node b).assigned_device_name := by
  have isOpNode : ∀ {id}, graph.HasNode id → (graph.node id).isOp = true →
      (graph.mapNodes update).node id ∈ (graph.mapNodes update).op_nodes := by
    intro id idNode isOp
    rw [relabels.node idNode]
    exact relabels.op_nodes.mpr
      ⟨_, List.mem_filter.mpr ⟨(wf.node_mem idNode).1, isOp⟩, rfl⟩
  constructor
  · intro same a b c aNode bNode aOp bOp aIn bIn
    have device := same _ (isOpNode aNode aOp) _ (isOpNode bNode bOp) c aIn bIn
    rwa [relabels.node aNode, relabels.node bNode, keeps, keeps] at device
  · intro same left leftIn right rightIn c leftFound rightFound
    obtain ⟨a, aIn, rfl⟩ := relabels.op_nodes.mp leftIn
    obtain ⟨b, bIn, rfl⟩ := relabels.op_nodes.mp rightIn
    obtain ⟨aMember, aOp⟩ := List.mem_filter.mp aIn
    obtain ⟨bMember, bOp⟩ := List.mem_filter.mp bIn
    have atA := wf.node_eq aMember
    have atB := wf.node_eq bMember
    have device :=
      same a.id b.id c ⟨a, aMember, rfl⟩ ⟨b, bMember, rfl⟩ (by rwa [atA])
        (by rwa [atB]) (by rwa [relabels.node ⟨a, aMember, rfl⟩, atA])
        (by rwa [relabels.node ⟨b, bMember, rfl⟩, atB])
    rw [keeps, keeps]
    rwa [atA, atB] at device

/-- The clusters of a graph that was tagged are those of its tags. -/
theorem sameDevices_tagged {graph : Graph} {update : Node → Node}
    {tag : Nat → Option Nat} {kept : Nat → Prop} {device : Nat → String}
    (wf : graph.WF) (relabels : Graph.Relabels update)
    (keeps : ∀ node, (update node).assigned_device_name =
      node.assigned_device_name)
    (isDevice : ∀ id, graph.HasNode id →
      (graph.node id).assigned_device_name = device id)
    (clusters : ∀ id c, graph.HasNode id →
      (getNodeCluster ((graph.mapNodes update).node id) = .ok c ↔
        ∃ k, tag id = some k ∧ c = k ∧ kept k)) :
    SameDevices (graph.mapNodes update).op_nodes ↔
      ∀ a b k, graph.HasNode a → graph.HasNode b → (graph.node a).isOp = true →
        (graph.node b).isOp = true → tag a = some k → tag b = some k → kept k →
        device a = device b := by
  rw [sameDevices_mapNodes wf relabels keeps]
  constructor
  · intro same a b k aNode bNode aOp bOp aTagged bTagged isKept
    rw [← isDevice a aNode, ← isDevice b bNode]
    exact same a b k aNode bNode aOp bOp
      ((clusters a k aNode).mpr ⟨k, aTagged, rfl, isKept⟩)
      ((clusters b k bNode).mpr ⟨k, bTagged, rfl, isKept⟩)
  · intro same a b c aNode bNode aOp bOp aIn bIn
    obtain ⟨k, aTagged, rfl, isKept⟩ := (clusters a c aNode).mp aIn
    obtain ⟨l, bTagged, sameTag, _⟩ := (clusters b _ bNode).mp bIn
    obtain rfl : k = l := by omega
    rw [isDevice a aNode, isDevice b bNode]
    exact same a b k aNode bNode aOp bOp aTagged bTagged isKept

section Call

variable (bridge : Bridge) (request : Request) (statics : Statics)

/-- Encapsulation takes the clusters exactly when no edge that was contracted in
one of them leads to another device, and the clusters before the deassignment
are each on one device exactly when no contracted edge does. -/
theorem analysisPass_devices
    (success : (assigned bridge request statics).status = .ok ()) :
    ((∃ enc, analysisPass
        (bridge.library.orders (declustered bridge request statics))
        (assigned bridge request statics).manager = .ok enc) ↔
      ∀ edge ∈ contractedEdges
        (bridge.library.orders (marked bridge request statics).graph)
          bridge.hasher,
        isClustered ((declustered bridge request statics).node edge.src) =
          true →
        (request.graph.node edge.src).assigned_device_name =
          (request.graph.node edge.dst).assigned_device_name) ∧
    (SameDevices (assigned bridge request statics).graph.op_nodes ↔
      ∀ edge ∈ contractedEdges
        (bridge.library.orders (marked bridge request statics).graph)
          bridge.hasher,
        (request.graph.node edge.src).assigned_device_name =
          (request.graph.node edge.dst).assigned_device_name) := by
  have markedWF := marked_wf bridge request statics
  obtain ⟨predicate_map, state, tag, atClusters, found⟩ :=
    assignClusters_state markedWF success
  obtain ⟨busted, clustered⟩ := clustered_of_assigned found
  have ends := (clusters_joined markedWF atClusters).1
  have device : ∀ id, (marked bridge request statics).graph.HasNode id →
      ((marked bridge request statics).graph.node id).assigned_device_name =
        (request.graph.node id).assigned_device_name :=
    fun _ idNode => marked_device bridge request statics
      ((marked_hasNode bridge request statics).mp idNode)
  have generated := devices_iff markedWF atClusters found
    (fun id => (request.graph.node id).assigned_device_name)
  constructor
  · have backed : Backed (declustered bridge request statics)
        (assigned bridge request statics).manager := by
      intro node member c inCluster
      rw [(clustered.fresh member inCluster).2]
      rfl
    have kept : ∀ id c, (marked bridge request statics).graph.HasNode id →
        (getNodeCluster ((declustered bridge request statics).node id) = .ok c ↔
          ∃ k, tag id = some k ∧ c = k ∧ busted k = false) := by
      intro id c idNode
      rw [clustered.cluster_iff idNode]
      constructor
      · rintro ⟨⟨k, tagged, rfl⟩, isKept⟩
        exact ⟨k, tagged, rfl, isKept⟩
      · rintro ⟨k, tagged, rfl, isKept⟩
        exact ⟨⟨k, tagged, rfl⟩, isKept⟩
    rw [clustered.output] at kept
    rw [analysisPass_iff clustered.wf _ backed, clustered.output,
      sameDevices_tagged markedWF clustered.relabels
        (fun node => by rw [Function.comp_apply, keepOrBust_device,
            tagNode_device]) device kept,
      ← clustered.output]
    refine (generated (fun k => busted k = false)).trans ?_
    apply forall_congr'
    intro edge
    apply forall_congr'
    intro member
    have srcNode := markedWF.src edge (ends edge member).1.member
    constructor
    · intro along isKept
      have inCluster := getNodeCluster_of isKept
      obtain ⟨⟨k, tagged, same⟩, notBusted⟩ :=
        (clustered.cluster_iff srcNode).mp inCluster
      exact along k tagged (same ▸ notBusted)
    · intro along k tagged notBusted
      exact along (clusterIdx_of
        ((clustered.cluster_iff srcNode).mpr ⟨⟨k, tagged, rfl⟩, notBusted⟩)).1
  · have tags : ∀ id c, (marked bridge request statics).graph.HasNode id →
        (getNodeCluster
          (((marked bridge request statics).graph.mapNodes (tagNode tag)).node
            id) =
          .ok c ↔ ∃ k, tag id = some k ∧ c = k ∧ True) := by
      intro id c idNode
      obtain ⟨member, sameId⟩ := markedWF.node_mem idNode
      rw [(relabels_tagNode tag).node idNode,
        getNodeCluster_tagNode (clustered.unassigned _ member), sameId]
      simp only [and_true]
    have assignedGraph : (assigned bridge request statics).graph =
        (marked bridge request statics).graph.mapNodes (tagNode tag) :=
      found.output
    rw [assignedGraph, sameDevices_tagged markedWF (relabels_tagNode tag)
      (tagNode_device tag) device tags]
    refine (generated (fun _ => True)).trans ?_
    apply forall_congr'
    intro edge
    apply forall_congr'
    intro member
    have contractible := (ends edge member).1
    have isTagged := (found.marked (markedWF.src edge contractible.member)).mpr
      contractible.srcMarked
    obtain ⟨k, tagged⟩ := Option.isSome_iff_exists.mp isTagged
    exact ⟨fun along => along k tagged trivial, fun along _ _ _ => along⟩

end Call

/-- Two operations in a row, each assigned to a device. -/
def pairGraph (first second : String) : Graph where
  nodes := [
    ⟨0, "_SOURCE", "NoOp", [], [], [], "", []⟩,
    ⟨1, "_SINK", "NoOp", [], [], [], "", []⟩,
    ⟨2, "x", "Placeholder", [], [], [.DT_FLOAT], first, []⟩,
    ⟨3, "abs", "Abs", [("T", .type .DT_FLOAT)], [.DT_FLOAT], [.DT_FLOAT],
      first, ["x"]⟩,
    ⟨4, "neg", "Neg", [("T", .type .DT_FLOAT)], [.DT_FLOAT], [.DT_FLOAT],
      second, ["abs"]⟩,
    ⟨5, "out", "_Send", [], [.DT_FLOAT], [], second, ["neg"]⟩]
  edges :=
    [⟨0, 0, -1, 2, -1⟩, ⟨1, 2, 0, 3, 0⟩, ⟨2, 3, 0, 4, 0⟩, ⟨3, 4, 0, 5, 0⟩,
      ⟨4, 5, -1, 1, -1⟩]

theorem splitGraph_wf : (pairGraph "/device:CPU:0" "/device:CPU:1").WF := by
  constructor <;> decide

theorem togetherGraph_wf : (pairGraph "/device:CPU:0" "/device:CPU:0").WF := by
  constructor <;> decide

def pairRequest (first second : String) (wf : (pairGraph first second).WF) :
    Request where
  graph := pairGraph first second
  skip_these_nodes := ∅
  config_map := []
  enabled := true
  disabled_ops := ∅
  deassign := ⟨true, none⟩
  wf := wf
  unassigned := by
    intro node member
    simp only [pairGraph, List.mem_cons, List.not_mem_nil, or_false] at member
    rcases member with rfl | rfl | rfl | rfl | rfl | rfl <;> rfl

def splitRequest : Request :=
  pairRequest "/device:CPU:0" "/device:CPU:1" splitGraph_wf

def togetherRequest : Request :=
  pairRequest "/device:CPU:0" "/device:CPU:0" togetherGraph_wf

/-- A cluster on two devices is formed and then turned down. -/
theorem analysisPass_split :
    (marked cpuBridge splitRequest .init).result.toOption.isSome = true ∧
      (assigned cpuBridge splitRequest .init).status = .ok () ∧
      ¬ ∃ enc, analysisPass
        (cpuBridge.library.orders (declustered cpuBridge splitRequest .init))
        (assigned cpuBridge splitRequest .init).manager = .ok enc := by
  refine ⟨by decide, by decide, ?_⟩
  rintro ⟨enc, success⟩
  have fails : (analysisPass
      (cpuBridge.library.orders (declustered cpuBridge splitRequest .init))
      (assigned cpuBridge splitRequest .init).manager).toOption.isSome =
      false := by
    decide
  rw [success] at fails
  simp [Except.toOption] at fails

theorem analysisPass_devices_together :
    ∃ enc, analysisPass
      (cpuBridge.library.orders (declustered cpuBridge togetherRequest .init))
      (assigned cpuBridge togetherRequest .init).manager = .ok enc :=
  (analysisPass_devices cpuBridge togetherRequest .init (by decide)).1.mpr
    (by decide)

end NGraphBridge.NGraphRewritePass
