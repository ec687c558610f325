import NGraphBridge.AssignClusters.Convexity
import NGraphBridge.DeassignClusters
import NGraphBridge.EncapsulateClusters.Values

/-!
# The rewritten graph is the quotient

A node is represented by itself or by the new node of its cluster. The rewritten
graph has the representatives as its nodes, and an edge between two of them for
every edge between nodes that they represent.
-/

namespace NGraphBridge.EncapsulateClusters

open TF MarkForClustering AssignClusters DeassignClusters
  NGraphBridge.Digraph Relation

/-- The node that a node ends up in. -/
def representedBy (result : Rewritten) (node : Node) : Nat :=
  if isClustered node then clusterNode result (clusterIdx node) else node.id

def representative (graph : Graph) (result : Rewritten) (id : Nat) : Nat :=
  representedBy result (graph.node id)

theorem representative_of_unclustered {graph : Graph} {result : Rewritten}
    {id : Nat} (unclustered : isClustered (graph.node id) = false) :
    representative graph result id = id := by
  rw [representative, representedBy, unclustered, if_neg (by simp),
    Graph.node_id]

theorem representative_of_clustered {graph : Graph} {result : Rewritten}
    {id : Nat} (clustered : isClustered (graph.node id) = true) :
    representative graph result id =
      clusterNode result (clusterIdx (graph.node id)) := by
  rw [representative, representedBy, clustered, if_pos rfl]

section NewNodes

variable {library : Library} {enc : Encapsulator} {graph_id : Int}
  {device_config : List (String × String)} {graph : Graph}

theorem addInputs_controls {dst : Nat} {inputs : List (Nat × Int × DataType)}
    {position : Nat} (data : ∀ input ∈ inputs, input.2.1 ≠ kControlSlot) :
    graph.SameControls (addInputs dst inputs position graph) := by
  induction inputs generalizing position graph with
  | nil => exact fun _ _ => Iff.rfl
  | cons input inputs ih =>
      have first : graph.SameControls
          (graph.addEdge input.1 input.2.1 dst position) :=
        Graph.sameControls_addEdge (data input (by simp))
      exact first.trans (ih fun later member => data later (by simp [member]))

theorem addEncapsulate_controls {rewritten next : Rewritten} {cluster_idx : Int}
    {device : String}
    (data : ∀ c, ∀ input ∈ enc.cluster_input_map c, input.2.1 ≠ kControlSlot)
    (success : addEncapsulate library enc graph_id device_config cluster_idx
      device rewritten =
      .ok next) : rewritten.graph.SameControls next.graph := by
  obtain ⟨made, _, _, nextGraph, _⟩ := addEncapsulate_ok success
  have withNode : rewritten.graph.SameControls (rewritten.graph.addNode made) :=
    fun _ _ => Iff.rfl
  rw [nextGraph]
  exact withNode.trans (addInputs_controls (data cluster_idx))

theorem addEncapsulates_controls {entries : List (Int × String)}
    {rewritten next : Rewritten}
    (data : ∀ c, ∀ input ∈ enc.cluster_input_map c, input.2.1 ≠ kControlSlot)
    (success : addEncapsulates library enc graph_id device_config entries
      rewritten =
      .ok next) : rewritten.graph.SameControls next.graph := by
  induction entries generalizing rewritten with
  | nil =>
      obtain rfl := Except.ok.inj success
      exact fun _ _ => Iff.rfl
  | cons entry entries ih =>
      obtain ⟨middle, first, success⟩ := bind_ok success
      exact (addEncapsulate_controls data first).trans (ih success)

end NewNodes

section MovedControls

variable {enc : Encapsulator} {rewritten : Rewritten} {graph next : Graph}
  {done edges : List Edge}

/-- An edge with its ends in different clusters, or in one and outside. -/
def Parted (rewritten : Rewritten) (edge : Edge) : Prop :=
  clusterIdx (rewritten.graph.node edge.src) ≠
    clusterIdx (rewritten.graph.node edge.dst)

/-- The control edge that takes an edge's place. -/
def Replaces (rewritten : Rewritten) (edge old : Edge) : Prop :=
  edge.src = representedBy rewritten (rewritten.graph.node old.src) ∧
    edge.dst = representedBy rewritten (rewritten.graph.node old.dst)

/-- The control edges after pass 4 has come past `done`. -/
structure ControlsMoved (rewritten : Rewritten) (done : List Edge)
    (graph : Graph) : Prop where
  waiting : ∀ edge ∈ rewritten.graph.edges, edge.isControlEdge = true →
    (edge ∈ done → ¬ Parted rewritten edge) → edge ∈ graph.edges
  moved : ∀ old ∈ rewritten.graph.edges, old.isControlEdge = true → old ∈ done →
    Parted rewritten old → ∃ edge ∈ graph.edges, edge.isControlEdge = true ∧
      Replaces rewritten edge old
  origin : ∀ edge ∈ graph.edges, edge.isControlEdge = true →
    (edge ∈ rewritten.graph.edges ∧ (edge ∈ done → ¬ Parted rewritten edge)) ∨
      ∃ old ∈ rewritten.graph.edges, old.isControlEdge = true ∧ old ∈ done ∧
        Parted rewritten old ∧ Replaces rewritten edge old

theorem controlsMoved_init : ControlsMoved rewritten [] rewritten.graph where
  waiting := fun _ member _ _ => member
  moved := by simp
  origin := fun edge member _ => .inl ⟨member, by simp⟩

/-- Only the control edges whose ends are parted are moved. -/
theorem ControlsMoved.skip {edge : Edge}
    (moved : ControlsMoved rewritten done graph)
    (same : graph.SameControls next)
    (stays : edge.isControlEdge = true → ¬ Parted rewritten edge) :
    ControlsMoved rewritten (edge :: done) next where
  waiting := by
    intro other member control still
    apply (same other control).mpr
    exact moved.waiting other member control fun before =>
      still (by simp [before])
  moved := by
    intro old member control inDone parted
    cases List.mem_cons.mp inDone with
    | inl isEdge =>
        subst isEdge
        exact absurd parted (stays control)
    | inr before =>
        obtain ⟨new, inGraph, isControl, replaces⟩ :=
          moved.moved old member control before parted
        exact ⟨new, (same new isControl).mpr inGraph, isControl, replaces⟩
  origin := by
    intro other member control
    cases moved.origin other ((same other control).mp member) control with
    | inl old =>
        refine .inl ⟨old.1, fun inDone => ?_⟩
        cases List.mem_cons.mp inDone with
        | inl isEdge => exact isEdge ▸ stays (isEdge ▸ control)
        | inr before => exact old.2 before
    | inr new =>
        obtain ⟨old, inOld, isControl, before, rest⟩ := new
        exact .inr ⟨old, inOld, isControl, by simp [before], rest⟩

/-- A moved control edge has an end that no old control edge has. -/
def Apart (rewritten : Rewritten) : Prop :=
  ∀ old ∈ rewritten.graph.edges, old.isControlEdge = true →
    Parted rewritten old →
    ∀ edge ∈ rewritten.graph.edges, edge.isControlEdge = true →
    ¬ Replaces rewritten edge old

theorem ControlsMoved.replace {edge : Edge}
    (moved : ControlsMoved rewritten done graph) (apart : Apart rewritten)
    (member : edge ∈ rewritten.graph.edges)
    (control : edge.isControlEdge = true) (parted : Parted rewritten edge) :
    ControlsMoved rewritten (edge :: done)
      ((graph.removeEdge edge).addControlEdge
        (representedBy rewritten (rewritten.graph.node edge.src))
        (representedBy rewritten (rewritten.graph.node edge.dst))) where
  waiting := by
    intro other otherIn isControl still
    have different : other ≠ edge := by
      intro same
      subst same
      exact still (by simp) parted
    apply Graph.mem_addControlEdge_of_mem
    have before :=
      moved.waiting other otherIn isControl fun before =>
        still (by simp [before])
    simp [Graph.removeEdge, before, different]
  moved := by
    intro old oldIn isControl inDone oldParted
    cases List.mem_cons.mp inDone with
    | inl isEdge =>
        subst isEdge
        obtain ⟨new, newIn, newControl, ends⟩ :=
          @Graph.controlEdge_addControlEdge
            (graph.removeEdge old)
            (representedBy rewritten (rewritten.graph.node old.src))
            (representedBy rewritten (rewritten.graph.node old.dst))
        exact ⟨new, newIn, newControl, ends⟩
    | inr before =>
        obtain ⟨new, newIn, newControl, replaces⟩ :=
          moved.moved old oldIn isControl before oldParted
        have different : new ≠ edge := by
          intro same
          subst same
          exact apart old oldIn isControl oldParted new member
            newControl replaces
        refine ⟨new, Graph.mem_addControlEdge_of_mem ?_, newControl, replaces⟩
        simp [Graph.removeEdge, newIn, different]
  origin := by
    intro other otherIn isControl
    cases Graph.mem_addControlEdge otherIn with
    | inr new => exact .inr ⟨edge, member, control, by simp, parted, new⟩
    | inl kept =>
        obtain ⟨inGraph, different⟩ := List.mem_filter.mp kept
        rw [bne_iff_ne] at different
        cases moved.origin other inGraph isControl with
        | inl old =>
            refine .inl ⟨old.1, fun inDone => ?_⟩
            exact old.2 ((List.mem_cons.mp inDone).resolve_left different)
        | inr new =>
            obtain ⟨old, oldIn, oldControl, before, rest⟩ := new
            exact .inr ⟨old, oldIn, oldControl, by simp [before], rest⟩

theorem moveControlEdge_parted {edge : Edge}
    (parted : Parted rewritten edge) :
    moveControlEdge rewritten (rewritten.graph.node edge.src)
      (rewritten.graph.node edge.dst) edge graph =
      (graph.removeEdge edge).addControlEdge
        (representedBy rewritten (rewritten.graph.node edge.src))
        (representedBy rewritten (rewritten.graph.node edge.dst)) := by
  unfold moveControlEdge representedBy
  cases src : isClustered (rewritten.graph.node edge.src) with
  | true =>
      cases dst : isClustered (rewritten.graph.node edge.dst) with
      | true => simp
      | false => simp
  | false =>
      cases dst : isClustered (rewritten.graph.node edge.dst) with
      | true => simp
      | false =>
          have same := (clusterIdx_unclustered src).trans
            (clusterIdx_unclustered dst).symm
          exact absurd same parted

theorem moveEdge_data {edge : Edge} (moved : Moved enc rewritten done graph)
    (start : rewritten.graph.Tidy) (member : edge ∈ rewritten.graph.edges)
    (data : edge.isControlEdge = false)
    (success : moveEdge enc rewritten edge graph = .ok next) :
    graph.SameControls next := by
  have unchanged : graph.SameControls graph := fun _ _ => Iff.rfl
  unfold moveEdge at success
  dsimp only at success
  rw [data, Graph.node_id] at success
  split at success
  · exact Except.ok.inj success ▸ unchanged
  · rw [if_neg (by simp)] at success
    split at success
    · exact Except.ok.inj success ▸ unchanged
    · split at success
      · exact Except.ok.inj success ▸ unchanged
      · exact Graph.sameControls_updateEdge moved.tidy (by simp [kControlSlot])
          (start.slot edge member data) success

theorem ControlsMoved.moveEdge {edge : Edge}
    (controls : ControlsMoved rewritten done graph)
    (moved : Moved enc rewritten done graph) (apart : Apart rewritten)
    (start : rewritten.graph.Tidy) (member : edge ∈ rewritten.graph.edges)
    (success : moveEdge enc rewritten edge graph = .ok next) :
    ControlsMoved rewritten (edge :: done) next := by
  cases control : edge.isControlEdge with
  | false =>
      apply controls.skip (moveEdge_data moved start member control success)
      intro isControl
      rw [control] at isControl
      cases isControl
  | true =>
      unfold EncapsulateClusters.moveEdge at success
      dsimp only at success
      by_cases together : clusterIdx (rewritten.graph.node edge.src) =
          clusterIdx (rewritten.graph.node edge.dst)
      · rw [if_pos (by simpa using together)] at success
        obtain rfl := Except.ok.inj success
        exact controls.skip (fun _ _ => Iff.rfl) fun _ parted => parted together
      · rw [if_neg (by simpa using together), control, if_pos rfl] at success
        obtain rfl := Except.ok.inj success
        rw [moveControlEdge_parted together]
        exact controls.replace apart member control together

theorem ControlsMoved.moveEdges (controls : ControlsMoved rewritten done graph)
    (moved : Moved enc rewritten done graph) (apart : Apart rewritten)
    (start : rewritten.graph.Tidy)
    (inside : ∀ edge ∈ edges, edge ∈ rewritten.graph.edges)
    (success : moveEdges enc rewritten edges graph = .ok next) :
    ∃ all, (∀ edge ∈ edges, edge ∈ all) ∧ (∀ edge ∈ done, edge ∈ all) ∧
      Moved enc rewritten all next ∧ ControlsMoved rewritten all next := by
  induction edges generalizing done graph with
  | nil =>
      obtain rfl := Except.ok.inj success
      exact ⟨done, by simp, fun _ member => member, moved, controls⟩
  | cons edge edges ih =>
      obtain ⟨middle, first, success⟩ := bind_ok success
      have edgeIn := inside edge (by simp)
      obtain ⟨all, covers, old, result⟩ :=
        ih (controls.moveEdge moved apart start edgeIn first)
          (moved.moveEdge start edgeIn first)
          (fun other later => inside other (by simp [later]))
          success
      refine ⟨all, ?_, fun other member => old other (by simp [member]), result⟩
      intro other inList
      cases List.mem_cons.mp inList with
      | inl same => exact old other (by simp [same])
      | inr later => exact covers other later

end MovedControls

theorem removeNodes_edges {graph : Graph} {nodes : List Node} {edge : Edge} :
    edge ∈ (removeNodes nodes graph).edges ↔ edge ∈ graph.edges ∧
      ∀ removed ∈ nodes, isClustered removed = true →
        edge.src ≠ removed.id ∧ edge.dst ≠ removed.id := by
  induction nodes generalizing graph with
  | nil => simp [removeNodes]
  | cons head nodes ih =>
      unfold removeNodes
      split
      case isTrue clustered =>
        rw [ih]
        simp [Graph.removeNode, clustered, and_assoc]
      case isFalse unclustered =>
        rw [ih]
        simp [unclustered]

/-- Two nodes are not in one cluster. -/
def Outside (graph : Graph) (u v : Nat) : Prop :=
  isClustered (graph.node u) = true → isClustered (graph.node v) = true →
    clusterIdx (graph.node u) ≠ clusterIdx (graph.node v)

/-- Only op nodes are in clusters. -/
def ClustersOps (graph : Graph) : Prop :=
  ∀ node ∈ graph.nodes, isClustered node = true → node.isOp = true

instance (graph : Graph) : Decidable (ClustersOps graph) :=
  inferInstanceAs
    (Decidable (∀ node ∈ graph.nodes, isClustered node = true →
        node.isOp = true))

section Represented

variable {library : Library} {enc : Encapsulator} {graph_id : Int}
  {device_config : List (String × String)} {graph : Graph}
  {manager : ClusterManager} {order : graph.Enumeration}
  {outs : Int → List (Nat × Int)} {added : Int → List NodeDef}
  {result : Rewritten} {u v : Nat}

theorem ClustersOps.mem_op_nodes (free : ClustersOps graph) (wf : graph.WF)
    (vNode : graph.HasNode v) (clustered : isClustered (graph.node v) = true) :
    graph.node v ∈ graph.op_nodes := by
  have member := (wf.node_mem vNode).1
  exact List.mem_filter.mpr ⟨member, free _ member clustered⟩

theorem Rewired.represented
    (rewired : Rewired library enc graph_id device_config graph result)
    (wf : graph.WF) (free : ClustersOps graph) (vNode : graph.HasNode v)
    (clustered : isClustered (graph.node v) = true) :
    result.cluster_node_map (clusterIdx (graph.node v)) =
      some (representative graph result v) := by
  have used : (result.cluster_node_map (clusterIdx (graph.node v))).isSome =
      true :=
    (rewired.mapped _).mpr
      ⟨_, free.mem_op_nodes wf vNode clustered, getNodeCluster_of clustered⟩
  obtain ⟨id, mapped⟩ := Option.isSome_iff_exists.mp used
  rw [representative_of_clustered clustered, clusterNode, mapped,
    Option.getD_some]

theorem Rewired.representative_new
    (rewired : Rewired library enc graph_id device_config graph result)
    (wf : graph.WF) (free : ClustersOps graph) (vNode : graph.HasNode v)
    (clustered : isClustered (graph.node v) = true) :
    ¬ graph.HasNode (representative graph result v) :=
  (rewired.placed _ _ (rewired.represented wf free vNode clustered)).1

theorem Rewired.cluster_injective
    (rewired : Rewired library enc graph_id device_config graph result)
    {c d : Int} {id : Nat} (atC : result.cluster_node_map c = some id)
    (atD : result.cluster_node_map d = some id) :
    c = d := by
  obtain ⟨_, left, leftIn, leftId, isLeft⟩ := rewired.placed c id atC
  obtain ⟨_, right, rightIn, rightId, isRight⟩ := rewired.placed d id atD
  exact isLeft.cluster_eq isRight rewired.ids leftIn rightIn
    (leftId.trans rightId.symm)

/-- Nodes with one representative are in one cluster, or are one node. -/
theorem Rewired.representative_eq
    (rewired : Rewired library enc graph_id device_config graph result)
    (wf : graph.WF) (free : ClustersOps graph) (uNode : graph.HasNode u)
    (vNode : graph.HasNode v)
    (same : representative graph result u = representative graph result v) :
    (isClustered (graph.node u) = true ∧ isClustered (graph.node v) = true ∧
        clusterIdx (graph.node u) = clusterIdx (graph.node v)) ∨
      (isClustered (graph.node u) = false ∧ u = v) := by
  cases uClustered : isClustered (graph.node u) with
  | true =>
      cases vClustered : isClustered (graph.node v) with
      | true =>
          have atU := rewired.represented wf free uNode uClustered
          have atV := rewired.represented wf free vNode vClustered
          rw [← same] at atV
          exact .inl ⟨rfl, rfl, rewired.cluster_injective atU atV⟩
      | false =>
          have new := rewired.representative_new wf free uNode uClustered
          rw [same, representative_of_unclustered vClustered] at new
          exact absurd vNode new
  | false =>
      cases vClustered : isClustered (graph.node v) with
      | true =>
          have new := rewired.representative_new wf free vNode vClustered
          rw [← same, representative_of_unclustered uClustered] at new
          exact absurd uNode new
      | false =>
          rw [representative_of_unclustered uClustered,
            representative_of_unclustered vClustered] at same
          exact .inr ⟨rfl, same⟩

theorem outside_of_ne
    (different : representative graph result u ≠
      representative graph result v) :
    Outside graph u v := by
  intro uClustered vClustered same
  apply different
  rw [representative_of_clustered uClustered,
    representative_of_clustered vClustered, same]

/-- The nodes of the rewritten graph are the representatives. -/
theorem Rewired.hasNode_iff
    (rewired : Rewired library enc graph_id device_config graph result)
    (wf : graph.WF) (free : ClustersOps graph) (id : Nat) :
    result.graph.HasNode id ↔ ∃ v, graph.HasNode v ∧
    representative graph result v = id := by
  constructor
  · intro hasNode
    obtain ⟨node, member, sameId⟩ := hasNode
    subst sameId
    cases rewired.nodes node member with
    | inl old =>
        refine ⟨node.id, ⟨node, old.1, rfl⟩, representative_of_unclustered ?_⟩
        rw [wf.node_eq old.1]
        by_contra clustered
        have clustered : isClustered node = true := by simpa using clustered
        rw [old.2 (free node old.1 clustered)] at clustered
        cases clustered
    | inr new =>
        obtain ⟨c, mapped, _⟩ := new
        obtain ⟨member, inOps, inCluster⟩ :=
          (rewired.mapped c).mp (by simp [mapped])
        have inNodes := (List.mem_filter.mp inOps).1
        have atNode := wf.node_eq inNodes
        obtain ⟨clustered, idx⟩ := clusterIdx_of inCluster
        have represented :=
          @Rewired.represented _ _ _ _ _ _ member.id rewired wf free
            ⟨member, inNodes, rfl⟩ (by rw [atNode, clustered])
        rw [atNode, idx, mapped] at represented
        exact ⟨member.id, ⟨member, inNodes, rfl⟩,
          (Option.some.inj represented).symm⟩
  · intro represents
    obtain ⟨v, vNode, same⟩ := represents
    subst same
    obtain ⟨member, sameId⟩ := wf.node_mem vNode
    cases clustered : isClustered (graph.node v) with
    | true =>
        obtain ⟨_, node, inNodes, atNode, _⟩ :=
          rewired.placed _ _ (rewired.represented wf free vNode clustered)
        exact ⟨node, inNodes, atNode⟩
    | false =>
        rw [representative_of_unclustered clustered]
        exact ⟨graph.node v, rewired.kept _ member fun _ => clustered, sameId⟩

/-- Nodes that are not in one cluster have different cluster ids, unless both
are outside of all clusters. -/
theorem Analysed.clusterIdx_ne
    (analysed : Analysed order manager outs added enc) (wf : graph.WF)
    (free : ClustersOps graph) (uNode : graph.HasNode u)
    (vNode : graph.HasNode v) (outside : Outside graph u v)
    (some_ : isClustered (graph.node u) = true ∨
      isClustered (graph.node v) = true) :
    clusterIdx (graph.node u) ≠ clusterIdx (graph.node v) := by
  have nonneg : ∀ {w}, graph.HasNode w → isClustered (graph.node w) = true →
      0 ≤ clusterIdx (graph.node w) := fun wNode clustered =>
    analysed.clusterIdx_nonneg (free.mem_op_nodes wf wNode clustered) clustered
  cases uClustered : isClustered (graph.node u) with
  | true =>
      have atU := nonneg uNode uClustered
      cases vClustered : isClustered (graph.node v) with
      | true => exact outside uClustered vClustered
      | false =>
          have atV := clusterIdx_unclustered vClustered
          omega
  | false =>
      have vClustered := some_.resolve_left (by simp [uClustered])
      have atU := clusterIdx_unclustered uClustered
      have atV := nonneg vNode vClustered
      omega

theorem Placed.representative_new {keys : List Int} {rewritten : Rewritten}
    (placed : Placed library enc graph_id device_config graph keys rewritten)
    (wf : graph.WF) (free : ClustersOps graph)
    (stands : ∀ c, (∃ node ∈ graph.op_nodes, getNodeCluster node = .ok c) →
      c ∈ keys)
    (vNode : graph.HasNode v) (clustered : isClustered (graph.node v) = true) :
    ¬ graph.HasNode (representative graph rewritten v) := by
  have used := (placed.mapped _).mpr (stands _
    ⟨_, free.mem_op_nodes wf vNode clustered, getNodeCluster_of clustered⟩)
  obtain ⟨id, mapped⟩ := Option.isSome_iff_exists.mp used
  rw [representative_of_clustered clustered, clusterNode, mapped,
    Option.getD_some]
  exact (placed.placed _ _ mapped).1

theorem Placed.representedBy_eq {keys : List Int} {rewritten : Rewritten}
    (placed : Placed library enc graph_id device_config graph keys rewritten)
    (wf : graph.WF) (vNode : graph.HasNode v) :
    representedBy rewritten (rewritten.graph.node v) =
      representative graph rewritten v := by
  rw [placed.node_old wf vNode, representative]

/-- What the four passes of the rewrite have done. -/
structure Run (library : Library) (enc : Encapsulator) (graph_id : Int)
    (device_config : List (String × String)) (graph : Graph) (keys : List Int)
    (rewritten : Rewritten) (all : List Edge) (last : Graph)
    (result : Rewritten) : Prop where
  placed : Placed library enc graph_id device_config graph keys rewritten
  controls : graph.SameControls rewritten.graph
  covers : ∀ edge ∈ rewritten.graph.edges, edge ∈ all
  moved : Moved enc rewritten all last
  movedControls : ControlsMoved rewritten all last
  result : result = ⟨removeNodes last.op_nodes last, rewritten.cluster_node_map⟩

theorem rewritePass_run (wf : graph.WF) (free : ClustersOps graph)
    (analysed : Analysed order manager outs added enc)
    (success : rewritePass library enc graph_id device_config graph =
      .ok result) :
    ∃ keys rewritten all last,
      Run library enc graph_id device_config graph keys rewritten all last
        result := by
  obtain ⟨rewritten, made, success⟩ := bind_ok success
  obtain ⟨last, edgesMoved, success⟩ := bind_ok success
  obtain rfl := Except.ok.inj success
  obtain ⟨keys, members, placed⟩ :=
    (placed_init wf).addEncapsulates analysed.data
      analysed.devicesNodup (by simp) made
  have controls : graph.SameControls rewritten.graph :=
    addEncapsulates_controls analysed.data made
  have stands : ∀ c, (∃ node ∈ graph.op_nodes, getNodeCluster node = .ok c) →
      c ∈ keys := by
    intro c used
    exact (members c).mpr (.inl ((analysed.devices c).mpr used))
  have apart : Apart rewritten := by
    intro old oldIn oldControl parted edge edgeIn control replaces
    have oldMember := (controls old oldControl).mp oldIn
    have edgeMember := (controls edge control).mp edgeIn
    have srcNode := wf.src old oldMember
    have dstNode := wf.dst old oldMember
    rw [Replaces, placed.representedBy_eq wf srcNode,
      placed.representedBy_eq wf dstNode] at replaces
    rw [Parted, placed.node_old wf srcNode,
      placed.node_old wf dstNode] at parted
    cases srcClustered : isClustered (graph.node old.src) with
    | true =>
        apply placed.representative_new wf free stands srcNode srcClustered
        exact replaces.1 ▸ wf.src edge edgeMember
    | false =>
        cases dstClustered : isClustered (graph.node old.dst) with
        | true =>
            apply placed.representative_new wf free stands dstNode dstClustered
            exact replaces.2 ▸ wf.dst edge edgeMember
        | false =>
            exact parted ((clusterIdx_unclustered srcClustered).trans
              (clusterIdx_unclustered dstClustered).symm)
  have inside : ∀ edge ∈ (library.orders rewritten.graph).edges,
      edge ∈ rewritten.graph.edges :=
    fun edge => (Graph.Enumeration.mem_edges _ edge).mp
  obtain ⟨all, covers, _, moved, movedControls⟩ := controlsMoved_init.moveEdges
    (moved_init placed.tidy) apart placed.tidy inside edgesMoved
  exact ⟨keys, rewritten, all, last, placed, controls,
    fun edge member =>
      covers edge ((Graph.Enumeration.mem_edges _ edge).mpr member), moved,
    movedControls, rfl⟩

section Run

variable {keys : List Int} {rewritten : Rewritten} {all : List Edge}
  {last : Graph}

theorem Run.representative_eq
    (run : Run library enc graph_id device_config graph keys rewritten all
      last result) :
    representative graph rewritten v = representative graph result v := by
  rw [run.result]
  rfl

theorem Run.dst_mem
    (run : Run library enc graph_id device_config graph keys rewritten all
      last result)
    {a b : Nat} (dataEdge : result.graph.DataEdge a b) :
    result.graph.HasNode b := by
  obtain ⟨slot, input, feeds⟩ := dataEdge
  rw [run.result] at feeds ⊢
  obtain ⟨inLast, kept⟩ := removeNodes_feeds.mp feeds
  obtain ⟨edge, member, _, sameDst, _⟩ :=
    (run.moved.feeds a slot b input).mp inLast
  obtain ⟨node, inNodes, sameId⟩ := run.placed.ends edge member
  refine ⟨node, removeNodes_nodes.mpr ⟨run.moved.nodes ▸ inNodes, ?_⟩,
    sameId.trans sameDst⟩
  intro removed inOps clustered
  rw [sameId, sameDst]
  exact (kept removed inOps clustered).2

/-- Representatives are not removed. -/
theorem Run.stays
    (run : Run library enc graph_id device_config graph keys rewritten all
      last result)
    (rewired : Rewired library enc graph_id device_config graph result)
    (wf : graph.WF) (free : ClustersOps graph) (vNode : graph.HasNode v)
    {removed : Node} (inLast : removed ∈ last.op_nodes)
    (removedClustered : isClustered removed = true) :
    representative graph result v ≠ removed.id := by
  have inOld := (List.mem_filter.mp
    ((run.placed.removed run.moved removedClustered).mp inLast)).1
  intro same
  cases clustered : isClustered (graph.node v) with
  | true =>
      apply rewired.representative_new wf free vNode clustered
      exact ⟨removed, inOld, same.symm⟩
  | false =>
      rw [representative_of_unclustered clustered] at same
      rw [same, wf.node_eq inOld, removedClustered] at clustered
      cases clustered

/-- The control edges of the rewritten graph. -/
theorem Run.controlEdge_iff
    (run : Run library enc graph_id device_config graph keys rewritten all
      last result)
    (rewired : Rewired library enc graph_id device_config graph result)
    (wf : graph.WF) (free : ClustersOps graph)
    (analysed : Analysed order manager outs added enc) (a b : Nat) :
    result.graph.ControlEdge a b ↔ ∃ u v, graph.ControlEdge u v ∧
      Outside graph u v ∧
      representative graph result u = a ∧
      representative graph result v = b := by
  constructor
  · intro controlEdge
    obtain ⟨edge, member, control, sameSrc, sameDst⟩ := controlEdge
    rw [run.result] at member
    obtain ⟨inLast, kept⟩ := removeNodes_edges.mp member
    cases run.movedControls.origin edge inLast control with
    | inl old =>
        have inGraph := (run.controls edge control).mp old.1
        have srcNode := wf.src edge inGraph
        have dstNode := wf.dst edge inGraph
        have unclustered : ∀ {id}, graph.HasNode id →
            (edge.src = id ∨ edge.dst = id) →
            isClustered (graph.node id) = false := by
          intro id idNode isEnd
          by_contra clustered
          have clustered : isClustered (graph.node id) = true := by
            simpa using clustered
          have inOps := (run.placed.removed run.moved clustered).mpr
            (free.mem_op_nodes wf idNode clustered)
          have gone := kept _ inOps clustered
          rw [Graph.node_id] at gone
          cases isEnd with
          | inl atSrc => exact gone.1 atSrc
          | inr atDst => exact gone.2 atDst
        have srcOut := unclustered srcNode (.inl rfl)
        refine ⟨edge.src, edge.dst, ⟨edge, inGraph, control, rfl, rfl⟩,
          ?_, ?_, ?_⟩
        · exact fun srcClustered => absurd srcClustered (by simp [srcOut])
        · rw [representative_of_unclustered srcOut, sameSrc]
        · rw [representative_of_unclustered (unclustered dstNode (.inr rfl)),
            sameDst]
    | inr new =>
        obtain ⟨old, oldIn, oldControl, _, parted, replaces⟩ := new
        have inGraph := (run.controls old oldControl).mp oldIn
        have srcNode := wf.src old inGraph
        have dstNode := wf.dst old inGraph
        rw [Parted, run.placed.node_old wf srcNode,
          run.placed.node_old wf dstNode] at parted
        rw [Replaces, run.placed.representedBy_eq wf srcNode,
          run.placed.representedBy_eq wf dstNode, run.representative_eq,
          run.representative_eq, sameSrc, sameDst] at replaces
        exact ⟨old.src, old.dst, ⟨old, inGraph, oldControl, rfl, rfl⟩,
          fun _ _ => parted, replaces.1.symm, replaces.2.symm⟩
  · intro represents
    obtain ⟨u, v, ⟨edge, inGraph, control, rfl, rfl⟩, outside, rfl, rfl⟩ :=
      represents
    have srcNode := wf.src edge inGraph
    have dstNode := wf.dst edge inGraph
    have inRewritten := (run.controls edge control).mpr inGraph
    have there : ∃ new ∈ last.edges, new.isControlEdge = true ∧
        new.src = representative graph result edge.src ∧
        new.dst = representative graph result edge.dst := by
      by_cases parted : Parted rewritten edge
      · obtain ⟨new, newIn, newControl, replaces⟩ :=
          run.movedControls.moved edge inRewritten
            control (run.covers edge inRewritten) parted
        rw [Replaces, run.placed.representedBy_eq wf srcNode,
          run.placed.representedBy_eq wf dstNode, run.representative_eq,
          run.representative_eq] at replaces
        exact ⟨new, newIn, newControl, replaces⟩
      · have unclustered : isClustered (graph.node edge.src) = false ∧
            isClustered (graph.node edge.dst) = false := by
          by_contra someClustered
          rw [not_and_or, Bool.not_eq_false, Bool.not_eq_false] at someClustered
          apply parted
          rw [Parted, run.placed.node_old wf srcNode,
            run.placed.node_old wf dstNode]
          exact analysed.clusterIdx_ne wf free srcNode dstNode outside
            someClustered
        refine ⟨edge, run.movedControls.waiting edge inRewritten control
          fun _ => parted, control, ?_, ?_⟩
        · rw [representative_of_unclustered unclustered.1]
        · rw [representative_of_unclustered unclustered.2]
    obtain ⟨new, newIn, newControl, atSrc, atDst⟩ := there
    have stays : ∀ removed ∈ last.op_nodes, isClustered removed = true →
        new.src ≠ removed.id ∧ new.dst ≠ removed.id := by
      intro removed inLast clustered
      rw [atSrc, atDst]
      exact ⟨run.stays rewired wf free srcNode inLast clustered,
        run.stays rewired wf free dstNode inLast clustered⟩
    refine ⟨new, ?_, newControl, atSrc, atDst⟩
    rw [run.result]
    exact removeNodes_edges.mpr ⟨newIn, stays⟩

end Run

theorem movedTensor_fst (analysed : Analysed order manager outs added enc)
    {edge : Edge} (leaves : isClustered (graph.node edge.src) = true →
      Crosses graph edge) :
    (movedTensor enc result (edge.src, edge.src_output)).1 =
      representative graph result edge.src := by
  cases clustered : isClustered (graph.node edge.src) with
  | true =>
      obtain ⟨k, mapped⟩ :=
        analysed.outMap_crossing (leaves clustered) clustered
      rw [movedTensor, mapped, representative_of_clustered clustered]
  | false =>
      rw [movedTensor, analysed.outMap_unclustered clustered,
        representative_of_unclustered clustered]

theorem Rewired.dataEdge_iff
    (ends : ∀ {a b}, result.graph.DataEdge a b → result.graph.HasNode b)
    (rewired : Rewired library enc graph_id device_config graph result)
    (wf : graph.WF) (free : ClustersOps graph)
    (analysed : Analysed order manager outs added enc) (a b : Nat) :
    result.graph.DataEdge a b ↔ ∃ u v, graph.DataEdge u v ∧ Outside graph u v ∧
      representative graph result u = a ∧
      representative graph result v = b := by
  constructor
  · intro dataEdge
    obtain ⟨slot, input, feeds⟩ := dataEdge
    by_cases old : graph.HasNode b
    · obtain ⟨unclustered, src, src_output, feedsOld, atMoved⟩ :=
        (rewired.feedsOld b old a slot input).mp feeds
      obtain ⟨edge, member, data, rfl, rfl, rfl, rfl⟩ := feedsOld
      have crosses : isClustered (graph.node edge.src) = true →
          Crosses graph edge := by
        intro clustered
        have apart := analysed.clusterIdx_ne wf free (wf.src edge member) old
          (fun _ dstClustered => absurd dstClustered (by simp [unclustered]))
          (.inl clustered)
        exact ⟨member, data, Ne.symm apart⟩
      refine ⟨edge.src, edge.dst,
        ⟨_, _, edge, member, data, rfl, rfl, rfl, rfl⟩, ?_, ?_,
        representative_of_unclustered unclustered⟩
      · exact fun _ dstClustered => absurd dstClustered (by simp [unclustered])
      · rw [← movedTensor_fst analysed crosses, atMoved]
    · obtain ⟨node, member, sameId⟩ := ends ⟨slot, input, feeds⟩
      subst sameId
      cases rewired.nodes node member with
      | inl inOld => exact absurd ⟨node, inOld.1, rfl⟩ old
      | inr new =>
          obtain ⟨c, mapped, _⟩ := new
          obtain ⟨k, src, src_output, _, atK, atMoved⟩ :=
            (rewired.feedsNew c node.id mapped a slot input).mp feeds
          obtain ⟨edge, crosses, dstClustered, atCluster, sameTensor⟩ :=
            analysed.inSource c _ (List.mem_of_getElem? atK)
          cases sameTensor
          refine ⟨edge.src, edge.dst,
            ⟨_, _, edge, crosses.member, crosses.data, rfl, rfl, rfl, rfl⟩,
            fun _ _ same => crosses.apart same.symm, ?_, ?_⟩
          · rw [← movedTensor_fst analysed fun _ => crosses, atMoved]
          · have represented :=
              rewired.represented wf free (wf.dst edge crosses.member)
                dstClustered
            rw [atCluster, mapped] at represented
            exact (Option.some.inj represented).symm
  · intro represents
    obtain ⟨u, v, dataEdge, outside, rfl, rfl⟩ := represents
    obtain ⟨slot, input, edge, member, data, rfl, rfl, rfl, rfl⟩ := dataEdge
    have srcNode := wf.src edge member
    have dstNode := wf.dst edge member
    have crosses : isClustered (graph.node edge.src) = true ∨
        isClustered (graph.node edge.dst) = true → Crosses graph edge :=
      fun some_ =>
      ⟨member, data,
        Ne.symm (analysed.clusterIdx_ne wf free srcNode dstNode outside some_)⟩
    have atSrc := @movedTensor_fst enc graph manager order outs added result
      analysed edge fun clustered => crosses (.inl clustered)
    cases clustered : isClustered (graph.node edge.dst) with
    | false =>
        rw [representative_of_unclustered clustered]
        refine ⟨(movedTensor enc result (edge.src, edge.src_output)).2,
          edge.dst_input, ?_⟩
        apply (rewired.feedsOld edge.dst dstNode _ _ _).mpr
        exact ⟨clustered, edge.src, edge.src_output,
          ⟨edge, member, data, rfl, rfl, rfl, rfl⟩, Prod.ext atSrc rfl⟩
    | true =>
        obtain ⟨k, atK⟩ := List.getElem?_of_mem
          ((analysed.covered edge (crosses (.inr clustered))).1 clustered)
        refine ⟨(movedTensor enc result (edge.src, edge.src_output)).2, k, ?_⟩
        apply (rewired.feedsNew
            _ _ (rewired.represented wf free dstNode clustered) _ _ _).mpr
        exact ⟨k, edge.src, edge.src_output, rfl, atK, Prod.ext atSrc rfl⟩

end Represented

/-- A `NextIteration` that is not in a cluster. -/
def isLoopBack (node : Node) : Bool := node.isNextIteration && !isClustered node

/-- A control or data edge, with the edges of `NextIteration` nodes aside. -/
structure FlowEdge (graph : Graph) (u v : Nat) : Prop where
  linked : graph.ControlEdge u v ∨ graph.DataEdge u v
  src : isLoopBack (graph.node u) = false
  dst : isLoopBack (graph.node v) = false

theorem FlowEdge.ends {graph : Graph} (wf : graph.WF) {u v : Nat}
    (flow : FlowEdge graph u v) : graph.HasNode u ∧ graph.HasNode v := by
  cases flow.linked with
  | inl control =>
      obtain ⟨edge, member, _, rfl, rfl⟩ := control
      exact ⟨wf.src edge member, wf.dst edge member⟩
  | inr data =>
      obtain ⟨_, _, edge, member, _, rfl, _, rfl, _⟩ := data
      exact ⟨wf.src edge member, wf.dst edge member⟩

section Cycles

variable {library : Library} {enc : Encapsulator} {graph_id : Int}
  {device_config : List (String × String)} {graph : Graph}
  {manager : ClusterManager} {order : graph.Enumeration}
  {outs : Int → List (Nat × Int)} {added : Int → List NodeDef}
  {result : Rewritten} {u v : Nat}

theorem Rewired.isLoopBack_representative
    (rewired : Rewired library enc graph_id device_config graph result)
    (wf : graph.WF) (vNode : graph.HasNode v)
    (plain : isLoopBack (result.graph.node (representative graph result v)) =
      false) :
    isLoopBack (graph.node v) = false := by
  cases clustered : isClustered (graph.node v) with
  | true => simp [isLoopBack, clustered]
  | false =>
      obtain ⟨member, sameId⟩ := wf.node_mem vNode
      have kept := rewired.kept _ member fun _ => clustered
      have atNode := Graph.node_of_mem rewired.ids kept
      rw [sameId] at atNode
      rwa [representative_of_unclustered clustered, atNode] at plain

theorem blockOf_eq_iff
    (rewired : Rewired library enc graph_id device_config graph result)
    (wf : graph.WF) (free : ClustersOps graph) (uNode : graph.HasNode u)
    (vNode : graph.HasNode v) :
    representative graph result u = representative graph result v ↔
      blockOf graph u = blockOf graph v := by
  constructor
  · intro same
    cases rewired.representative_eq wf free uNode vNode same with
    | inl both => simp [blockOf, both.1, both.2.1, both.2.2]
    | inr equal => rw [equal.2]
  · intro same
    unfold blockOf at same
    cases uClustered : isClustered (graph.node u) with
    | true =>
        cases vClustered : isClustered (graph.node v) with
        | true =>
            simp only [uClustered, vClustered, if_true, Sum.inl.injEq] at same
            rw [representative_of_clustered uClustered,
              representative_of_clustered vClustered, same]
        | false => simp [uClustered, vClustered] at same
    | false =>
        cases vClustered : isClustered (graph.node v) with
        | true => simp [uClustered, vClustered] at same
        | false =>
            simp only [uClustered, vClustered, Bool.false_eq_true, if_false,
              Sum.inr.injEq] at same
            rw [same]

/-- The rewritten graph has no cycle that the quotient does not have. -/
theorem Run.acyclic {keys : List Int} {rewritten : Rewritten} {all : List Edge}
    {last : Graph}
    (run : Run library enc graph_id device_config graph keys rewritten all
      last result)
    (rewired : Rewired library enc graph_id device_config graph result)
    (wf : graph.WF) (free : ClustersOps graph)
    (analysed : Analysed order manager outs added enc)
    (noLoop : ∀ v, ¬ FlowEdge graph v v)
    (acyclic : Acyclic (quotient (FlowEdge graph) (blockOf graph))) :
    Acyclic (FlowEdge result.graph) := by
  have renamed :
      Acyclic (quotient (FlowEdge graph) (representative graph result)) := by
    apply acyclic_quotient_congr _ acyclic
    intro first second firstOn secondOn
    have onNode : ∀ {id},
        (∃ third, FlowEdge graph id third ∨ FlowEdge graph third id) →
        graph.HasNode id := by
      intro id onEdge
      obtain ⟨third, either⟩ := onEdge
      cases either with
      | inl out => exact (out.ends wf).1
      | inr back => exact (back.ends wf).2
    exact blockOf_eq_iff rewired wf free (onNode firstOn) (onNode secondOn)
  apply renamed.mono
  intro a b flow
  have linked : ∃ u v, (graph.ControlEdge u v ∨ graph.DataEdge u v) ∧
      Outside graph u v ∧
      representative graph result u = a ∧
      representative graph result v = b := by
    cases flow.linked with
    | inl control =>
        obtain ⟨u, v, edge, rest⟩ :=
          (run.controlEdge_iff rewired wf free analysed a b).mp control
        exact ⟨u, v, .inl edge, rest⟩
    | inr data =>
        obtain ⟨u, v, edge, rest⟩ :=
          (rewired.dataEdge_iff run.dst_mem wf free analysed a b).mp data
        exact ⟨u, v, .inr edge, rest⟩
  obtain ⟨u, v, linked, outside, rfl, rfl⟩ := linked
  have nodes : graph.HasNode u ∧ graph.HasNode v := by
    cases linked with
    | inl control =>
        obtain ⟨edge, member, _, rfl, rfl⟩ := control
        exact ⟨wf.src edge member, wf.dst edge member⟩
    | inr data =>
        obtain ⟨_, _, edge, member, _, rfl, _, rfl, _⟩ := data
        exact ⟨wf.src edge member, wf.dst edge member⟩
  have old : FlowEdge graph u v :=
    ⟨linked, rewired.isLoopBack_representative wf nodes.1 flow.src,
      rewired.isLoopBack_representative wf nodes.2 flow.dst⟩
  refine ⟨?_, u, v, old, rfl, rfl⟩
  intro same
  cases rewired.representative_eq wf free nodes.1 nodes.2 same with
  | inl both => exact outside both.1 both.2.1 both.2.2
  | inr equal =>
      obtain ⟨_, rfl⟩ := equal
      exact noLoop u old

end Cycles

section Deassigned

variable {graph : Graph} {hasher : Deadness.Hasher} {order : graph.Enumeration}
  {manager : ClusterManager} {predicate_map : Deadness.PredicateMap}
  {state : State} {tag : Nat → Option Nat} {outcome : AssignClusters.Outcome}
  {busted : Int → Bool}

/-- Tagged nodes are op nodes outside of control flow. -/
theorem plain_of_tagged (wf : graph.WF)
    (assigned : Assigned hasher order manager predicate_map state tag outcome)
    {a c : Nat} (aNode : graph.HasNode a) (tagged : tag a = some c) :
    (graph.node a).isOp = true ∧ (graph.node a).isNextIteration = false := by
  have marked := (assigned.marked aNode).mp (by simp [tagged])
  have passed := assigned.passed aNode marked
  obtain ⟨pred_string, isPredicate, recorded⟩ :=
    assigned.recorded _ (wf.node_mem aNode).1
  rw [checkNodeClusterAssignmentWRTDeadness, recorded] at passed
  by_contra special
  have isSpecial : ((graph.node a).isSource || (graph.node a).isSink ||
      (graph.node a).isControlFlow) = true := by
    by_contra ordinary
    apply special
    simp only [Bool.or_eq_true, not_or, Bool.not_eq_true,
      Node.isControlFlow] at ordinary
    exact ⟨by simp [Node.isOp, ordinary.1.1, ordinary.1.2], ordinary.2.2⟩
  rw [Deadness.getNodePredicate, if_pos isSpecial] at isPredicate
  cases isPredicate
  simp [Deadness.isControlFlowPredString] at passed

theorem node_deassigned
    (assigned : Assigned hasher order manager predicate_map state tag outcome)
    {a : Nat} (aNode : graph.HasNode a) :
    (deassigned busted outcome.graph).node a =
      keepOrBust busted (tagNode tag (graph.node a)) := by
  have hasNode : (tagGraph tag graph).HasNode a := by
    obtain ⟨node, member, sameId⟩ := aNode
    exact ⟨tagNode tag node, List.mem_map_of_mem member,
      by rw [tagNode_id, sameId]⟩
  rw [assigned.output, ← node_tagGraph tag aNode]
  exact Graph.node_map hasNode (keepOrBust_id busted)

/-- The cluster ids that are left. -/
theorem cluster_deassigned
    (assigned : Assigned hasher order manager predicate_map state tag outcome)
    (fresh : ∀ node ∈ graph.nodes, isClustered node = false)
    (wf : graph.WF) {a : Nat} (aNode : graph.HasNode a) {c : Int} :
    getNodeCluster ((deassigned busted outcome.graph).node a) = .ok c ↔
      ∃ k, tag a = some k ∧ c = k ∧ busted c = false := by
  obtain ⟨member, sameId⟩ := wf.node_mem aNode
  rw [node_deassigned assigned aNode, getNodeCluster_keepOrBust]
  cases tagged : tag a with
  | none =>
      have untouched : tagNode tag (graph.node a) = graph.node a := by
        rw [tagNode, sameId, tagged]
      rw [untouched]
      constructor
      · intro both
        have clustered := (clusterIdx_of both.1).1
        rw [fresh _ member] at clustered
        cases clustered
      · intro some_
        obtain ⟨k, isNone, _⟩ := some_
        cases isNone
  | some k =>
      rw [getNodeCluster_tagged (by rw [sameId, tagged]), Except.ok.injEq]
      constructor
      · intro both
        exact ⟨k, rfl, both.1.symm, both.2⟩
      · intro some_
        obtain ⟨other, same, rfl, kept⟩ := some_
        cases same
        exact ⟨rfl, kept⟩

theorem blockOf_deassigned
    (assigned : Assigned hasher order manager predicate_map state tag outcome)
    (fresh : ∀ node ∈ graph.nodes, isClustered node = false)
    (wf : graph.WF) {a : Nat} (aNode : graph.HasNode a) :
    (∃ k, tag a = some k ∧ busted k = false ∧
        blockOf (deassigned busted outcome.graph) a = .inl k) ∨
      ((∀ k, tag a = some k → busted k = true) ∧
        isClustered ((deassigned busted outcome.graph).node a) = false ∧
        blockOf (deassigned busted outcome.graph) a = .inr a) := by
  cases clustered : isClustered ((deassigned busted outcome.graph).node a) with
  | true =>
      obtain ⟨k, tagged, same, kept⟩ :=
        (cluster_deassigned assigned fresh wf aNode).mp
          (getNodeCluster_of clustered)
      refine .inl ⟨k, tagged, same ▸ kept, ?_⟩
      rw [blockOf, clustered, if_pos rfl, same]
  | false =>
      refine .inr ⟨?_, rfl, by rw [blockOf, clustered, if_neg (by simp)]⟩
      intro k tagged
      by_contra kept
      have inCluster := (cluster_deassigned assigned fresh wf aNode).mpr
        ⟨k, tagged, rfl, by simpa using kept⟩
      rw [(clusterIdx_of inCluster).1] at clustered
      cases clustered

/-- Clusters that are given up leave no cycle: there was none inside them. -/
theorem acyclic_blocks (wf : graph.WF)
    (assigned : Assigned hasher order manager predicate_map state tag outcome)
    (fresh : ∀ node ∈ graph.nodes, isClustered node = false) :
    Acyclic (quotient (OpEdge graph)
      (blockOf (deassigned busted outcome.graph))) := by
  obtain ⟨rank, increasing⟩ := assigned.ranked
  apply @acyclic_quotient_refine _ _ (OpEdge graph) _ state.index
    _ graph.HasNode
  · exact fun _ _ step => assigned.inv.inside step
  · intro first second firstNode secondNode same
    have atFirst :=
      @blockOf_deassigned _ _ _ _ _ _ _ _ busted assigned fresh wf _ firstNode
    have atSecond :=
      @blockOf_deassigned _ _ _ _ _ _ _ _ busted assigned fresh wf _ secondNode
    rw [assigned.inv.index_iff firstNode secondNode]
    cases atFirst with
    | inl kept =>
        obtain ⟨k, tagged, _, block⟩ := kept
        cases atSecond with
        | inl alsoKept =>
            obtain ⟨l, alsoTagged, _, alsoBlock⟩ := alsoKept
            rw [block, alsoBlock, Sum.inl.injEq, Int.natCast_inj] at same
            subst same
            exact (assigned.together firstNode secondNode tagged).mp alsoTagged
        | inr alone =>
            rw [block, alone.2.2] at same
            cases same
    | inr alone =>
        cases atSecond with
        | inl kept =>
            obtain ⟨k, _, _, block⟩ := kept
            rw [alone.2.2, block] at same
            cases same
        | inr alsoAlone =>
            rw [alone.2.2, alsoAlone.2.2, Sum.inr.injEq] at same
            rw [same]
  · intro first second firstNode secondNode same
    rw [assigned.inv.index_iff firstNode secondNode] at same
    have atFirst :=
      @blockOf_deassigned _ _ _ _ _ _ _ _ busted assigned fresh wf _ firstNode
    cases atFirst with
    | inl kept =>
        obtain ⟨k, tagged, unbusted, block⟩ := kept
        have alsoTagged :=
          (assigned.together firstNode secondNode tagged).mpr same
        have atSecond :=
          @blockOf_deassigned _ _ _ _ _ _ _ _ busted assigned fresh wf _
            secondNode
        cases atSecond with
        | inl alsoKept =>
            obtain ⟨l, isTag, _, alsoBlock⟩ := alsoKept
            rw [alsoTagged] at isTag
            cases isTag
            exact .inl (block.trans alsoBlock.symm)
        | inr alone =>
            rw [alone.1 k alsoTagged] at unbusted
            cases unbusted
    | inr alone =>
        apply Or.inr
        intro other otherNode sameBlock
        rw [alone.2.2] at sameBlock
        cases @blockOf_deassigned _ _ _ _ _ _ _ _ busted assigned fresh wf _
            otherNode with
        | inl kept =>
            obtain ⟨k, _, _, block⟩ := kept
            rw [block] at sameBlock
            cases sameBlock
        | inr otherAlone =>
            rw [otherAlone.2.2, Sum.inr.injEq] at sameBlock
            exact sameBlock
  · exact acyclic_of_rank rank fun _ _ step => increasing step
  · exact assigned.inv.acyclic_quotient

/-- Apart from the edges of the source and the sink, the flow is between op
nodes. -/
theorem opEdge_of_flow (wf : graph.WF)
    (assigned : Assigned hasher order manager predicate_map state tag outcome)
    (fresh : ∀ node ∈ graph.nodes, isClustered node = false) {u v : Nat}
    (flow : FlowEdge (deassigned busted outcome.graph) u v) (notSource : u ≠ 0)
    (notSink : v ≠ 1) : OpEdge graph u v := by
  have sameEdges : (deassigned busted outcome.graph).edges = graph.edges := by
    rw [assigned.output]
    rfl
  have onEdge : ∃ edge ∈ graph.edges, edge.src = u ∧ edge.dst = v := by
    rw [← sameEdges]
    cases flow.linked with
    | inl control =>
        obtain ⟨edge, member, _, ends⟩ := control
        exact ⟨edge, member, ends⟩
    | inr data =>
        obtain ⟨_, _, edge, member, _, src, _, dst, _⟩ := data
        exact ⟨edge, member, src, dst⟩
  obtain ⟨edge, member, rfl, rfl⟩ := onEdge
  have isOp : ∀ {id}, id ≠ 0 → id ≠ 1 → (graph.node id).isOp = true := by
    intro id notZero notOne
    simp [Node.isOp, Node.isSource, Node.isSink, Graph.node_id, notZero, notOne]
  have notLoop : ∀ {id}, graph.HasNode id →
      isLoopBack ((deassigned busted outcome.graph).node id) = false →
      (graph.node id).isNextIteration = false := by
    intro id idNode plain
    cases clustered :
      isClustered ((deassigned busted outcome.graph).node id) with
    | true =>
        obtain ⟨k, tagged, _⟩ :=
          (cluster_deassigned assigned fresh wf idNode).mp
            (getNodeCluster_of clustered)
        exact (plain_of_tagged wf assigned idNode tagged).2
    | false =>
        rw [isLoopBack, clustered, Bool.not_false, Bool.and_true,
          node_deassigned assigned idNode] at plain
        simpa [Node.isNextIteration] using plain
  refine ⟨edge, member, ?_, rfl, rfl⟩
  rw [skipsCycleCheck, isOp notSource (wf.intoSink edge member),
    isOp (wf.outOfSource edge member) notSink,
    notLoop (wf.src edge member) flow.src,
    notLoop (wf.dst edge member) flow.dst]
  rfl

/-- Nothing comes before the source, and nothing after the sink. -/
theorem flow_ends (wf : graph.WF)
    (assigned : Assigned hasher order manager predicate_map state tag outcome)
    {u v : Nat} (flow : FlowEdge (deassigned busted outcome.graph) u v) :
    (graph.HasNode u ∧ graph.HasNode v) ∧ u ≠ 1 ∧ v ≠ 0 := by
  have sameEdges : (deassigned busted outcome.graph).edges = graph.edges := by
    rw [assigned.output]
    rfl
  have ends : ∀ edge ∈ graph.edges,
      (graph.HasNode edge.src ∧ graph.HasNode edge.dst) ∧
      edge.src ≠ 1 ∧ edge.dst ≠ 0 := fun edge member =>
    ⟨⟨wf.src edge member, wf.dst edge member⟩, wf.intoSink edge member,
      wf.outOfSource edge member⟩
  cases flow.linked with
  | inl control =>
      obtain ⟨edge, member, _, rfl, rfl⟩ := control
      exact ends edge (sameEdges ▸ member)
  | inr data =>
      obtain ⟨_, _, edge, member, _, rfl, _, rfl, _⟩ := data
      exact ends edge (sameEdges ▸ member)

/-- The source and the sink are alone in their blocks. -/
theorem block_end (wf : graph.WF)
    (assigned : Assigned hasher order manager predicate_map state tag outcome)
    (fresh : ∀ node ∈ graph.nodes, isClustered node = false) {u v : Nat}
    (uNode : graph.HasNode u) (vNode : graph.HasNode v) (isEnd : u = 0 ∨ u = 1)
    (same : blockOf (deassigned busted outcome.graph) v =
      blockOf (deassigned busted outcome.graph) u) : v = u := by
  have notOp : (graph.node u).isOp = false := by
    cases isEnd with
    | inl zero => simp [Node.isOp, Node.isSource, Graph.node_id, zero]
    | inr one => simp [Node.isOp, Node.isSink, Graph.node_id, one]
  cases @blockOf_deassigned _ _ _ _ _ _ _ _ busted assigned fresh wf _ uNode
    with
  | inl kept =>
      obtain ⟨k, tagged, _⟩ := kept
      have isOp := (plain_of_tagged wf assigned uNode tagged).1
      rw [notOp] at isOp
      cases isOp
  | inr alone =>
      rw [alone.2.2] at same
      cases @blockOf_deassigned _ _ _ _ _ _ _ _ busted assigned fresh wf _ vNode
        with
      | inl kept =>
          obtain ⟨k, _, _, block⟩ := kept
          rw [block] at same
          cases same
      | inr otherAlone =>
          rw [otherAlone.2.2, Sum.inr.injEq] at same
          exact same

theorem no_loop_deassigned (wf : graph.WF)
    (assigned : Assigned hasher order manager predicate_map state tag outcome)
    (fresh : ∀ node ∈ graph.nodes, isClustered node = false) (v : Nat) :
    ¬ FlowEdge (deassigned busted outcome.graph) v v := by
  intro flow
  obtain ⟨_, notSink, notSource⟩ := flow_ends wf assigned flow
  obtain ⟨rank, increasing⟩ := assigned.ranked
  have up := increasing
    (opEdge_of_flow wf assigned fresh flow notSource notSink)
  exact absurd up (lt_irrefl _)

theorem acyclic_deassigned (wf : graph.WF)
    (assigned : Assigned hasher order manager predicate_map state tag outcome)
    (fresh : ∀ node ∈ graph.nodes, isClustered node = false) :
    Acyclic (quotient (FlowEdge (deassigned busted outcome.graph))
      (blockOf (deassigned busted outcome.graph))) := by
  apply acyclic_of_inner
    _ (@acyclic_blocks _ _ _ _ _ _ _ _ busted wf assigned fresh)
  intro left right flows entered left_
  obtain ⟨different, u, v, flow, rfl, rfl⟩ := flows
  obtain ⟨_, _, _, before, into, _, atU⟩ := entered
  obtain ⟨_, _, after, _, out, atV, _⟩ := left_
  obtain ⟨⟨uNode, vNode⟩, _⟩ := flow_ends wf assigned flow
  obtain ⟨⟨_, beforeNode⟩, _, notSource⟩ := flow_ends wf assigned into
  obtain ⟨⟨afterNode, _⟩, notSink, _⟩ := flow_ends wf assigned out
  have uInner : u ≠ 0 := by
    intro zero
    rw [block_end wf assigned fresh uNode beforeNode (.inl zero) atU]
      at notSource
    exact notSource zero
  have vInner : v ≠ 1 := by
    intro one
    rw [block_end wf assigned fresh vNode afterNode (.inr one) atV] at notSink
    exact notSink one
  exact ⟨different, u, v, opEdge_of_flow wf assigned fresh flow uInner vInner,
    rfl, rfl⟩

end Deassigned

/-- The nodes of the rewritten graph are the representatives, its edges are
those of the graph between different representatives, and it has no cycle that
the quotient by the clusters does not have; whichever of the clusters that the
clustering pass formed are given up, there is none. -/
theorem rewritePass_quotient {library : Library} {graph_id : Int}
    {device_config : List (String × String)} {graph : Graph}
    {manager : ClusterManager} {order : graph.Enumeration} {enc : Encapsulator}
    {result : Rewritten} (wf : graph.WF) (free : ClustersOps graph)
    (analysis : analysisPass order manager = .ok enc)
    (success : rewritePass library enc graph_id device_config graph =
      .ok result) :
    (∀ id, result.graph.HasNode id ↔
      ∃ v, graph.HasNode v ∧ representative graph result v = id) ∧
    (∀ node ∈ graph.nodes, isClustered node = false →
      node ∈ result.graph.nodes) ∧
    (∀ v, graph.HasNode v → isClustered (graph.node v) = true →
      ¬ graph.HasNode (representative graph result v) ∧
      ∃ node ∈ result.graph.nodes, node.id = representative graph result v ∧
        IsEncapsulate library enc graph_id device_config
          (clusterIdx (graph.node v)) node) ∧
    (∀ a b, a ≠ b →
      (result.graph.ControlEdge a b ↔ ∃ u v, graph.ControlEdge u v ∧
      representative graph result u = a ∧ representative graph result v = b)) ∧
    (∀ a b, a ≠ b → (result.graph.DataEdge a b ↔ ∃ u v, graph.DataEdge u v ∧
      representative graph result u = a ∧ representative graph result v = b)) ∧
    ((∀ v, ¬ FlowEdge graph v v) →
      Acyclic (quotient (FlowEdge graph) (blockOf graph)) →
      Acyclic (FlowEdge result.graph)) ∧
    ∀ {before : Graph} {hasher : Deadness.Hasher}
    {beforeOrder : before.Enumeration}
      {beforeManager : ClusterManager}, before.WF →
      (∀ node ∈ before.nodes, isClustered node = false) →
      (assignClusters hasher beforeOrder beforeManager).status = .ok () →
      ((∃ busted, graph =
          deassigned busted
            (assignClusters hasher beforeOrder beforeManager).graph) ∨
        ∃ env, graph =
          deassignClusters env
            (assignClusters hasher beforeOrder beforeManager).graph) →
      Acyclic (FlowEdge result.graph) := by
  obtain ⟨outs, added, analysed⟩ := analysisPass_analysed wf analysis
  have rewired := rewritePass_rewired wf analysed success
  obtain ⟨keys, rewritten, all, last, run⟩ :=
    rewritePass_run wf free analysed success
  have acyclic := run.acyclic rewired wf free analysed
  refine ⟨rewired.hasNode_iff wf free, ?_, ?_, ?_, ?_, acyclic, ?_⟩
  · intro node member unclustered
    exact rewired.kept node member fun _ => unclustered
  · intro v vNode clustered
    exact rewired.placed _ _ (rewired.represented wf free vNode clustered)
  · intro a b different
    rw [run.controlEdge_iff rewired wf free analysed]
    constructor
    · intro represents
      obtain ⟨u, v, edge, _, atA, atB⟩ := represents
      exact ⟨u, v, edge, atA, atB⟩
    · intro represents
      obtain ⟨u, v, edge, rfl, rfl⟩ := represents
      exact ⟨u, v, edge, outside_of_ne different, rfl, rfl⟩
  · intro a b different
    rw [rewired.dataEdge_iff run.dst_mem wf free analysed]
    constructor
    · intro represents
      obtain ⟨u, v, edge, _, atA, atB⟩ := represents
      exact ⟨u, v, edge, atA, atB⟩
    · intro represents
      obtain ⟨u, v, edge, rfl, rfl⟩ := represents
      exact ⟨u, v, edge, outside_of_ne different, rfl, rfl⟩
  · intro before hasher beforeOrder beforeManager beforeWf fresh status givenUp
    obtain ⟨predicate_map, state, tag, assigned⟩ :=
      assignClusters_assigned beforeWf status
    have busted : ∃ busted, graph =
        deassigned busted
          (assignClusters hasher beforeOrder beforeManager).graph := by
      cases givenUp with
      | inl some_ => exact some_
      | inr byPass =>
          obtain ⟨env, same⟩ := byPass
          have tagged :
              (assignClusters hasher beforeOrder beforeManager).graph.WF := by
            rw [assigned.output]
            exact beforeWf.mapNodes (relabels_tagNode tag)
          obtain ⟨busted, isBusted⟩ := deassignClusters_eq env tagged
          exact ⟨busted, same.trans isBusted⟩
    obtain ⟨busted, rfl⟩ := busted
    exact acyclic (no_loop_deassigned beforeWf assigned fresh)
      (acyclic_deassigned beforeWf assigned fresh)

/-- `neg x` has to wait for a product in a cluster. -/
def waitGraph : Graph where
  nodes := [
    ⟨0, "_SOURCE", "NoOp", [], [], [], "", []⟩,
    ⟨1, "_SINK", "NoOp", [], [], [], "", []⟩,
    ⟨2, "x", "Placeholder", [], [], [.DT_FLOAT], "", []⟩,
    ⟨3, "square", "Mul", [("_ngraph_cluster", .i 0)], [.DT_FLOAT, .DT_FLOAT],
      [.DT_FLOAT], "", ["x", "x"]⟩,
    ⟨4, "neg", "Neg", [], [.DT_FLOAT], [.DT_FLOAT], "", ["x"]⟩]
  edges :=
    [⟨0, 0, -1, 2, -1⟩, ⟨1, 2, 0, 3, 0⟩, ⟨2, 2, 0, 3, 1⟩, ⟨3, 2, 0, 4, 0⟩,
      ⟨4, 3, -1, 4, -1⟩, ⟨5, 4, -1, 1, -1⟩]

theorem rewritePass_quotient_waitGraph : ∃ enc result,
    analysisPass waitGraph.byInsertion ⟨[.empty]⟩ = .ok enc ∧
      rewritePass importLibrary enc 0 [] waitGraph = .ok result ∧
      result.graph.ControlEdge (representative waitGraph result 3) 4 := by
  have succeeds :
      (encapsulateClusters importLibrary ⟨[.empty]⟩ 0
        [] waitGraph).toOption.isSome =
      true := by decide
  cases ran : encapsulateClusters importLibrary ⟨[.empty]⟩ 0 [] waitGraph with
  | error error => simp [ran, Except.toOption] at succeeds
  | ok outcome =>
      obtain ⟨enc, analysis, ran⟩ := bind_ok ran
      obtain ⟨result, rewritten, ran⟩ := bind_ok ran
      have wf : waitGraph.WF := by constructor <;> decide
      obtain ⟨_, _, new, controls, _⟩ :=
        rewritePass_quotient wf (by decide) analysis rewritten
      have isNew := (new 3 (by decide) (by decide)).1
      have apart : representative waitGraph result 3 ≠ 4 := by
        intro same
        rw [same] at isNew
        exact isNew (by decide)
      refine ⟨enc, result, analysis, rewritten, (controls _ 4 apart).mpr ?_⟩
      exact ⟨3, 4, ⟨⟨4, 3, -1, 4, -1⟩, by decide, rfl, rfl, rfl⟩, rfl,
        representative_of_unclustered (by decide)⟩

end NGraphBridge.EncapsulateClusters
