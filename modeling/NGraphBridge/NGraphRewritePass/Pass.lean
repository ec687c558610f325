import NGraphBridge.AssignClusters.Convexity
import NGraphBridge.DeassignClusters
import NGraphBridge.EncapsulateClusters.Rewrite

/-!
# The rewrite pass

The four phases in sequence, with the variables that they keep between calls.
-/

namespace NGraphBridge.NGraphRewritePass

open TF Deadness MarkForClustering AssignClusters DeassignClusters
  EncapsulateClusters

/-- `IsAlreadyProcessed`. -/
def isAlreadyProcessed (graph : Graph) : Bool :=
  graph.nodes.any (·.type_string == "_nGraphEncapsulate")

/-- What all calls share. -/
structure Bridge where
  backend : Backend
  hasher : Hasher
  library : Library

/-- The graph of a call and the settings it finds.  No node has a cluster id
yet: giving them out is the second phase. -/
structure Request where
  graph : Graph
  skip_these_nodes : OrderedSet String
  config_map : List (String × String)
  enabled : Bool
  disabled_ops : OrderedSet String
  deassign : DeassignClusters.Environment
  wf : graph.WF
  unassigned : ∀ node ∈ graph.nodes, node.attrs.find "_ngraph_cluster" = none

/-- The variables that the phases keep. -/
structure Statics where
  mark : MarkForClustering.Statics
  manager : ClusterManager
  s_serial_counter : Int

def Statics.init : Statics := ⟨.init, .init, 0⟩

inductive Result where
  | skipped
  | failed (error : Error)
  | rewritten (outcome : EncapsulateClusters.Outcome)

/-- The cluster graphs that an encapsulation leaves.  The analysis returns an
error only before it writes to them; later it can only end the process. -/
def managerAfter {graph : Graph} (order : graph.Enumeration)
    (manager : ClusterManager) : ClusterManager :=
  match analysisPass order manager with
  | .error _ => manager
  | .ok enc => enc.manager

section Rewrite

variable (bridge : Bridge) (request : Request) (statics : Statics)

def marked : MarkForClustering.Outcome :=
  markForClustering bridge.backend statics.mark request.disabled_ops
    request.graph request.skip_these_nodes

def assigned : AssignClusters.Outcome :=
  assignClusters bridge.hasher
    (bridge.library.orders (marked bridge request statics).graph)
    statics.manager

/-- The graph that encapsulation is given. -/
def declustered : Graph :=
  deassignClusters request.deassign (assigned bridge request statics).graph

def encapsulated : StatusOr EncapsulateClusters.Outcome :=
  encapsulateClusters bridge.library (assigned bridge request statics).manager
    statics.s_serial_counter request.config_map
    (declustered bridge request statics)

def rewrite : Statics × Result :=
  let idx := statics.s_serial_counter
  if !request.enabled || isAlreadyProcessed request.graph then
    (⟨statics.mark, statics.manager.evictAllClusters, idx + 1⟩, .skipped)
  else
    let marked := marked bridge request statics
    match marked.result with
    | .error error =>
        (⟨marked.statics, statics.manager, idx + 1⟩, .failed error)
    | .ok _ =>
        let assigned := assigned bridge request statics
        match assigned.status with
        | .error error =>
            (⟨marked.statics, assigned.manager, idx + 1⟩, .failed error)
        | .ok () =>
            let manager := managerAfter
              (bridge.library.orders (declustered bridge request statics))
              assigned.manager
            match encapsulated bridge request statics with
            | .error error =>
                (⟨marked.statics, manager, idx + 1⟩, .failed error)
            | .ok outcome =>
                (⟨marked.statics, manager, idx + 1⟩, .rewritten outcome)

end Rewrite

/-- An update that may only touch other attributes than the cluster id. -/
structure KeepsCluster (update : Node → Node) :
    Prop extends Graph.Relabels update where
  cluster : ∀ node, (update node).attrs.find "_ngraph_cluster" =
    node.attrs.find "_ngraph_cluster"

theorem keepsCluster_id : KeepsCluster id :=
  ⟨⟨fun _ => rfl, fun _ => rfl, fun _ => rfl, fun _ => rfl, fun _ => rfl⟩,
    fun _ => rfl⟩

theorem KeepsCluster.comp {first second : Node → Node}
    (outer : KeepsCluster second) (inner : KeepsCluster first) :
    KeepsCluster (second ∘ first) :=
  ⟨outer.toRelabels.comp inner.toRelabels,
    fun node => (outer.cluster _).trans (inner.cluster node)⟩

theorem keepsCluster_of_pointwise {update : Node → Node}
    (each : ∀ node, ∃ other, KeepsCluster other ∧ update node = other node) :
    KeepsCluster update := by
  refine ⟨⟨?_, ?_, ?_, ?_, ?_⟩, ?_⟩ <;> intro node
  all_goals obtain ⟨other, keeps, same⟩ := each node
  all_goals rw [same]
  · exact keeps.id node
  · exact keeps.name node
  · exact keeps.type node
  · exact keeps.inputs node
  · exact keeps.outputs node
  · exact keeps.cluster node

theorem keepsCluster_addAttr {name : String} (other : name ≠ "_ngraph_cluster")
    (value : Node → AttrValue) :
    KeepsCluster fun node => node.addAttr name (value node) :=
  ⟨⟨fun _ => rfl, fun _ => rfl, fun _ => rfl, fun _ => rfl, fun _ => rfl⟩,
    fun node => AttrMap.find_set_of_ne node.attrs (value node) other.symm⟩

theorem setter_static {entry : String × SetAttributesFunction}
    (member : entry ∈ getAttributeSetters) : ∃ indices,
    entry.2 = setStaticInputs indices := by
  have all : getAttributeSetters.Forall
      (fun entry => ∃ indices, entry.2 = setStaticInputs indices) := by
    simp only [getAttributeSetters, List.Forall]
    repeat' first
      | exact ⟨_, rfl⟩
      | apply And.intro
  exact List.forall_iff_forall_mem.mp all entry member

/-- A marked node has the mark, and the static inputs of its type. -/
theorem markNode_cases (node : Node) :
    markNode node = node.addAttr "_ngraph_marked_for_clustering" (.b true) ∨
      ∃ indices, markNode node = setStaticInputs indices
        (node.addAttr "_ngraph_marked_for_clustering" (.b true)) := by
  unfold markNode
  cases found : getAttributeSetters.lookup node.type_string with
  | none => exact .inl rfl
  | some setAttributes =>
      obtain ⟨before, after, same, _⟩ := List.lookup_eq_some_iff.mp found
      have member : (node.type_string, setAttributes) ∈
          getAttributeSetters := by
        rw [same]
        simp
      obtain ⟨indices, static⟩ := setter_static member
      exact .inr ⟨indices, by rw [← static]⟩

theorem keepsCluster_markNode : KeepsCluster markNode := by
  have mark : KeepsCluster
      (·.addAttr "_ngraph_marked_for_clustering" (.b true)) :=
    keepsCluster_addAttr (by decide) _
  apply keepsCluster_of_pointwise
  intro node
  cases markNode_cases node with
  | inl plain => exact ⟨_, mark, plain⟩
  | inr static =>
      obtain ⟨indices, same⟩ := static
      have setter : KeepsCluster (setStaticInputs indices) :=
        keepsCluster_addAttr (by decide) _
      exact ⟨_, setter.comp mark, same⟩

theorem markNodes_eq (graph : Graph) (nodes : List Node) :
    ∃ update, KeepsCluster update ∧
    markNodes graph nodes = graph.mapNodes update := by
  induction nodes generalizing graph with
  | nil => exact ⟨id, keepsCluster_id, by simp [markNodes, Graph.mapNodes]⟩
  | cons node nodes ih =>
      obtain ⟨update, keeps, same⟩ := ih (graph.updateNode node.id markNode)
      have first : KeepsCluster
          (fun other => if other.id == node.id then markNode other
            else other) := by
        apply keepsCluster_of_pointwise
        intro other
        split
        · exact ⟨_, keepsCluster_markNode, rfl⟩
        · exact ⟨_, keepsCluster_id, rfl⟩
      refine ⟨_, keeps.comp first, ?_⟩
      have step : markNodes graph (node :: nodes) =
          markNodes (graph.updateNode node.id markNode) nodes := rfl
      rw [step, same, Graph.mapNodes, Graph.updateNode, List.map_map]
      rfl

theorem marked_eq (bridge : Bridge) (request : Request) (statics : Statics) :
    ∃ update, KeepsCluster update ∧
      (marked bridge request statics).graph =
        request.graph.mapNodes update := by
  have unchanged : request.graph = request.graph.mapNodes id := by
    simp [Graph.mapNodes]
  unfold marked markForClustering
  split
  · exact ⟨id, keepsCluster_id, unchanged⟩
  · split
    · exact ⟨id, keepsCluster_id, unchanged⟩
    · exact markNodes_eq _ _

section Call

variable {bridge : Bridge} {request : Request} {statics : Statics}

/-- What the first three phases hand over, and the phases they are made of. -/
structure Clustered (bridge : Bridge) (request : Request) (statics : Statics)
    (predicate_map : PredicateMap) (state : AssignClusters.State)
    (tag : Nat → Option Nat) (busted : Int → Bool) : Prop where
  markedWF : (marked bridge request statics).graph.WF
  unassigned : ∀ node ∈ (marked bridge request statics).graph.nodes,
    node.attrs.find "_ngraph_cluster" = none
  found : Assigned bridge.hasher
    (bridge.library.orders (marked bridge request statics).graph)
    statics.manager
    predicate_map state tag (assigned bridge request statics)
  output : declustered bridge request statics =
    (marked bridge request statics).graph.mapNodes
      (keepOrBust busted ∘ tagNode tag)

theorem marked_wf (bridge : Bridge) (request : Request) (statics : Statics) :
    (marked bridge request statics).graph.WF := by
  obtain ⟨update, keeps, markedGraph⟩ := marked_eq bridge request statics
  rw [markedGraph]
  exact request.wf.mapNodes keeps.toRelabels

theorem clustered_of_assigned {predicate_map : PredicateMap}
    {state : AssignClusters.State} {tag : Nat → Option Nat}
    (found : Assigned bridge.hasher
      (bridge.library.orders (marked bridge request statics).graph)
      statics.manager
      predicate_map state tag (assigned bridge request statics)) :
    ∃ busted, Clustered bridge request statics predicate_map state tag
      busted := by
  obtain ⟨update, keeps, markedGraph⟩ := marked_eq bridge request statics
  have markedWF := marked_wf bridge request statics
  have assignedGraph : (assigned bridge request statics).graph =
      (marked bridge request statics).graph.mapNodes (tagNode tag) :=
    found.output
  have assignedWF : (assigned bridge request statics).graph.WF := by
    rw [assignedGraph]
    exact markedWF.mapNodes (relabels_tagNode tag)
  obtain ⟨busted, given⟩ := deassignClusters_eq request.deassign assignedWF
  refine ⟨busted, markedWF, ?_, found, ?_⟩
  · intro node member
    rw [markedGraph] at member
    obtain ⟨old, inGraph, rfl⟩ := List.mem_map.mp member
    rw [keeps.cluster, request.unassigned old inGraph]
  · rw [declustered, given, assignedGraph]
    simp only [deassigned, Graph.mapNodes, List.map_map]

theorem clustered_of_ok (bridge : Bridge) (request : Request)
    (statics : Statics)
    (success : (assigned bridge request statics).status = .ok ()) :
    ∃ predicate_map state tag busted,
      Clustered bridge request statics predicate_map state tag busted := by
  obtain ⟨predicate_map, state, tag, found⟩ :=
    assignClusters_assigned (marked_wf bridge request statics) success
  obtain ⟨busted, clustered⟩ := clustered_of_assigned found
  exact ⟨predicate_map, state, tag, busted, clustered⟩

variable {predicate_map : PredicateMap} {state : AssignClusters.State}
  {tag : Nat → Option Nat} {busted : Int → Bool}

theorem Clustered.relabels
    (_clustered : Clustered bridge request statics predicate_map state
      tag busted) :
    Graph.Relabels (keepOrBust busted ∘ tagNode tag) :=
  (relabels_keepOrBust busted).comp (relabels_tagNode tag)

theorem Clustered.wf
    (clustered : Clustered bridge request statics predicate_map state
      tag busted) :
    (declustered bridge request statics).WF := by
  rw [clustered.output]
  exact clustered.markedWF.mapNodes clustered.relabels

theorem getNodeCluster_tagNode {tag : Nat → Option Nat} {node : Node}
    (unassigned : node.attrs.find "_ngraph_cluster" = none) {c : Int} :
    getNodeCluster (tagNode tag node) = .ok c ↔ ∃ k, tag node.id = some k ∧
    c = k := by
  cases tagged : tag node.id with
  | none => simp [tagNode, tagged, getNodeCluster, getNodeAttrInt, unassigned]
  | some k =>
      rw [getNodeCluster_tagged tagged, Except.ok.injEq]
      constructor
      · rintro rfl
        exact ⟨k, rfl, rfl⟩
      · rintro ⟨other, same, rfl⟩
        rw [Option.some.inj same]

theorem Clustered.cluster_iff
    (clustered : Clustered bridge request statics predicate_map state tag
      busted) {id : Nat}
    (idNode : (marked bridge request statics).graph.HasNode id) {c : Int} :
    getNodeCluster ((declustered bridge request statics).node id) = .ok c ↔
      (∃ k, tag id = some k ∧ c = k) ∧ busted c = false := by
  obtain ⟨member, sameId⟩ := clustered.markedWF.node_mem idNode
  rw [clustered.output, clustered.relabels.node idNode, Function.comp_apply,
    getNodeCluster_keepOrBust,
    getNodeCluster_tagNode (clustered.unassigned _ member), sameId]

/-- A cluster id on a node is new, and its graph was empty. -/
theorem Clustered.fresh
    (clustered : Clustered bridge request statics predicate_map state tag
      busted) {node : Node}
    (member : node ∈ (declustered bridge request statics).op_nodes) {c : Int}
    (inCluster : getNodeCluster node = .ok c) :
    (statics.manager.s_cluster_graphs.length : Int) ≤ c ∧
      (assigned bridge request statics).manager.getClusterGraph c =
        some .empty := by
  have inNodes := (List.mem_filter.mp member).1
  have idNode : (marked bridge request statics).graph.HasNode node.id := by
    rw [← clustered.relabels.hasNode, ← clustered.output]
    exact ⟨node, inNodes, rfl⟩
  rw [← clustered.wf.node_eq inNodes] at inCluster
  obtain ⟨⟨k, tagged, rfl⟩, _⟩ := (clustered.cluster_iff idNode).mp inCluster
  obtain ⟨above, below⟩ := clustered.found.range tagged
  refine ⟨by omega, ?_⟩
  obtain ⟨count, appended⟩ := clustered.found.appended
  have nonneg : ¬ (k : Int) < 0 := by omega
  rw [ClusterManager.getClusterGraph, if_neg nonneg,
    Int.toNat_natCast, appended, List.getElem?_append_right above]
  rw [appended, List.length_append, List.length_replicate] at below
  rw [List.getElem?_replicate, if_pos (by omega)]

/-- Encapsulation adds to the graphs of its own clusters alone. -/
theorem Clustered.extends
    (clustered : Clustered bridge request statics predicate_map state
      tag busted) :
    statics.manager.Extends (managerAfter
      (bridge.library.orders (declustered bridge request statics))
      (assigned bridge request statics).manager) := by
  obtain ⟨count, appended⟩ := clustered.found.appended
  have before := ClusterManager.extends_of_append appended
  unfold managerAfter
  split
  case h_1 => exact before
  case h_2 enc analysis =>
    obtain ⟨outs, added, analysed⟩ :=
      analysisPass_analysed clustered.wf analysis
    intro idx gdef found
    have inside := ClusterManager.getClusterGraph_lt found
    have unused : ∀ node ∈ (declustered bridge request statics).op_nodes,
        getNodeCluster node ≠ .ok idx := by
      intro node member inCluster
      have above := (clustered.fresh member inCluster).1
      omega
    rw [analysed.appended, before idx gdef found,
      analysed.added_nil clustered.wf unused]
    simp

/-- A call that rewrites its graph went through all the phases. -/
theorem rewrite_ok {after : Statics} {outcome : EncapsulateClusters.Outcome}
    (success : rewrite bridge request statics = (after, .rewritten outcome)) :
    (assigned bridge request statics).status = .ok () ∧
      encapsulated bridge request statics = .ok outcome ∧
      after.manager = outcome.enc.manager := by
  unfold rewrite at success
  dsimp only at success
  split at success
  case isTrue => simp at success
  case isFalse =>
    split at success
    case h_1 => simp at success
    case h_2 =>
      split at success
      case h_1 => simp at success
      case h_2 status =>
        split at success
        case h_1 => simp at success
        case h_2 found =>
          obtain ⟨rfl, same⟩ := Prod.mk.inj success
          obtain rfl := Result.rewritten.inj same
          refine ⟨status, found, ?_⟩
          obtain ⟨enc, analysis, rest⟩ := bind_ok found
          obtain ⟨rewritten, _, rest⟩ := bind_ok rest
          obtain rfl := Except.ok.inj rest
          simp [managerAfter, analysis]

/-- A call that is not skipped keeps the graphs of earlier calls. -/
theorem rewrite_extends {after : Statics} {result : Result}
    (call : rewrite bridge request statics = (after, result))
    (ran : result ≠ .skipped) :
    statics.manager.Extends after.manager := by
  unfold rewrite at call
  dsimp only at call
  split at call
  case isTrue => exact absurd (Prod.mk.inj call).2.symm ran
  case isFalse =>
    split at call
    case h_1 =>
      rw [← (Prod.mk.inj call).1]
      exact .refl _
    case h_2 =>
      split at call
      case h_1 =>
        rw [← (Prod.mk.inj call).1]
        obtain ⟨more, appended⟩ := @assignClusters_manager _
          (bridge.library.orders (marked bridge request statics).graph)
          bridge.hasher statics.manager
        exact ClusterManager.extends_of_append appended
      case h_2 status =>
        obtain ⟨_, _, _, _, clustered⟩ :=
          clustered_of_ok bridge request statics status
        split at call
        · rw [← (Prod.mk.inj call).1]
          exact clustered.extends
        · rw [← (Prod.mk.inj call).1]
          exact clustered.extends

end Call

end NGraphBridge.NGraphRewritePass
