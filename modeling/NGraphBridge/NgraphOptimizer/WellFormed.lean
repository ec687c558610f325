import NGraphBridge.NgraphOptimizer.Pass
import NGraphBridge.TF.WellFormed

/-!
# The graph that the clustering is given

Every identity node is one more node, the edges into it and a rename, so the
graph stays well formed as long as the new names are new.
-/

namespace NGraphBridge.NgraphOptimizer

open TF EncapsulateClusters

section Inputs

variable {graph : Graph}

theorem graph_eq {other : Graph} (nodes : graph.nodes = other.nodes)
    (edges : graph.edges = other.edges) : graph = other := by
  cases graph
  cases other
  simp_all

theorem addInputs_edges_congr {other : Graph} (dst : Nat)
    (inputs : List (Nat × Int × DataType)) (position : Nat)
    (same : graph.edges = other.edges) :
    (addInputs dst inputs position graph).edges =
      (addInputs dst inputs position other).edges := by
  induction inputs generalizing position graph other with
  | nil => exact same
  | cons input inputs ih =>
      apply ih
      simp only [Graph.addEdge, Graph.nextEdgeId, same]

/-- Edges from existing outputs to the inputs from `position` on. -/
theorem addInputs_wf {dst : Nat} {inputs : List (Nat × Int × DataType)}
    {position : Nat} (wf : graph.WF) (dstNode : graph.HasNode dst)
    (dstOp : (graph.node dst).isOp = true)
    (room : position + inputs.length ≤ (graph.node dst).num_inputs)
    (outputs : ∀ input ∈ inputs, graph.HasNode input.1 ∧
      (graph.node input.1).isOp = true ∧
      0 ≤ input.2.1 ∧ input.2.1 < (graph.node input.1).num_outputs)
    (free : ∀ u a (k : Nat), position ≤ k → ¬ graph.Feeds u a dst k) :
    (addInputs dst inputs position graph).WF := by
  induction inputs generalizing position graph with
  | nil => exact wf
  | cons input inputs ih =>
      rw [List.length_cons] at room
      obtain ⟨srcNode, srcOp, output⟩ := outputs input (by simp)
      have step : (graph.addEdge input.1 input.2.1 dst position).WF :=
        wf.addEdge srcNode dstNode srcOp dstOp output ⟨by omega, by omega⟩
          fun u a => free u a position le_rfl
      rw [addInputs]
      apply ih step dstNode dstOp
      · change position + 1 + inputs.length ≤ (graph.node dst).num_inputs
        omega
      · exact fun other member => outputs other (by simp [member])
      · intro u a k above feeds
        have data : input.2.1 ≠ kControlSlot := by
          dsimp only [kControlSlot]
          omega
        cases (Graph.feeds_addEdge data).mp feeds with
        | inl old => exact free u a k (by omega) old
        | inr new => omega

end Inputs

section Step

variable {newName : Nat → String → String} {rewriting : Rewriting} {node : Node}

theorem addIdentity_graph (member : node ∈ rewriting.graph.nodes) :
    (addIdentity newName node rewriting).graph =
      addInputs rewriting.graph.nextNodeId (outputsOf node) 0
        ((rewriting.graph.updateNode node.id
          (setName (newName rewriting.name_counter
              (node.name ++ "_ngraph")))).addNode
            (identityNode rewriting.graph.nextNodeId node)) := by
  have different : (identityNode rewriting.graph.nextNodeId node).id ≠
      node.id :=
    Nat.ne_of_gt (Graph.lt_nextNodeId member)
  apply graph_eq
  · change List.map _ (addInputs _ _ _ _).nodes = (addInputs _ _ _ _).nodes
    rw [addInputs_nodes, addInputs_nodes]
    change List.map
      _ (rewriting.graph.nodes ++
        [identityNode rewriting.graph.nextNodeId node]) =
      List.map _ rewriting.graph.nodes ++
      [identityNode rewriting.graph.nextNodeId node]
    rw [List.map_append, List.map_singleton, if_neg (by simpa using different)]
  · exact addInputs_edges_congr _ (outputsOf node) 0 rfl

/-- The identity node takes over the name, and the node gets a new one. -/
theorem addIdentity_wf (wf : rewriting.graph.WF)
    (member : node ∈ rewriting.graph.op_nodes)
    (fresh : ∀ other ∈ rewriting.graph.nodes,
      other.name ≠ newName rewriting.name_counter (node.name ++ "_ngraph")) :
    (addIdentity newName node rewriting).graph.WF := by
  obtain ⟨inNodes, isOp⟩ := List.mem_filter.mp member
  rw [addIdentity_graph inNodes]
  have below : ∀ other ∈ rewriting.graph.nodes,
      other.id < rewriting.graph.nextNodeId :=
    fun other => Graph.lt_nextNodeId
  generalize newName rewriting.name_counter (node.name ++ "_ngraph") =
      new_name at *
  generalize rewriting.graph.nextNodeId = id at *
  have renamed : (rewriting.graph.updateNode node.id (setName new_name)).WF :=
    wf.rename inNodes fresh
  have inRenamed :
      ∀ other ∈ (rewriting.graph.updateNode node.id (setName new_name)).nodes,
      ∃ old ∈ rewriting.graph.nodes, other.id = old.id ∧
        (other.name = old.name ∧ old ≠ node ∨ other.name = new_name) := by
    intro other otherIn
    obtain ⟨old, oldIn, rfl⟩ := List.mem_map.mp otherIn
    refine ⟨old, oldIn, ?_⟩
    by_cases same : old.id = node.id
    · rw [if_pos (by simpa using same)]
      exact ⟨rfl, .inr rfl⟩
    · rw [if_neg (by simpa using same)]
      exact ⟨rfl, .inl ⟨rfl, fun equal => same (congrArg Node.id equal)⟩⟩
  have newId : ¬ (rewriting.graph.updateNode node.id (setName new_name)).HasNode
      (identityNode id node).id := by
    rintro ⟨other, otherIn, sameId⟩
    obtain ⟨old, oldIn, atOld, _⟩ := inRenamed other otherIn
    have oldBelow := below old oldIn
    have atId : other.id = id := sameId
    omega
  have newNode :
      ∀ other ∈ (rewriting.graph.updateNode node.id (setName new_name)).nodes,
      other.name ≠ (identityNode id node).name := by
    intro other otherIn same
    obtain ⟨old, oldIn, _, named⟩ := inRenamed other otherIn
    cases named with
    | inl isOld =>
        exact isOld.2 (wf.name_injective oldIn inNodes
            (isOld.1.symm.trans same))
    | inr isNew => exact fresh node inNodes (same.symm.trans isNew)
  have added := renamed.addNode newId newNode
  generalize made :
      (rewriting.graph.updateNode node.id (setName new_name)).addNode
    (identityNode id node) = next at added
  have listed : identityNode id node ∈ next.nodes := by
    rw [← made]
    exact List.mem_append_right _ (List.mem_singleton_self _)
  have self : setName new_name node ∈ next.nodes := by
    rw [← made]
    apply List.mem_append_left
    exact List.mem_map.mpr ⟨node, inNodes, if_pos (by simp)⟩
  have identity : next.node id = identityNode id node := added.node_eq listed
  have renamedNode : next.node node.id = setName new_name node :=
    added.node_eq self
  have notEnds : (identityNode id node).isOp = true := by
    obtain ⟨source, sourceIn, sourceId⟩ := wf.source
    obtain ⟨sink, sinkIn, sinkId⟩ := wf.sink
    have notSource := below source sourceIn
    have notSink := below sink sinkIn
    simp only [Node.isOp, Node.isSource, Node.isSink, identityNode]
    simp only [Bool.and_eq_true, Bool.not_eq_true', beq_eq_false_iff_ne]
    omega
  have identityThere : next.HasNode id := ⟨_, listed, rfl⟩
  apply addInputs_wf added identityThere
  · rw [identity]
    exact notEnds
  · rw [identity, Nat.zero_add]
    simp [outputsOf, Node.num_inputs, identityNode]
  · intro input inInputs
    obtain ⟨entry, inOutputs, rfl⟩ := List.mem_map.mp inInputs
    dsimp only
    rw [renamedNode]
    refine ⟨⟨_, self, rfl⟩, isOp, by omega, ?_⟩
    have inside := (List.mem_zipIdx inOutputs).2.1
    simp only [Node.num_outputs, setName]
    omega
  · intro u a k _ feeds
    obtain ⟨edge, inNext, _, _, _, atDst, _⟩ := feeds
    have isOld : edge ∈ rewriting.graph.edges := by
      rw [← made] at inNext
      exact inNext
    obtain ⟨other, otherIn, sameId⟩ := wf.dst edge isOld
    have otherBelow := below other otherIn
    omega

theorem mem_addIdentity (member : node ∈ rewriting.graph.nodes) {other : Node} :
    other ∈ (addIdentity newName node rewriting).graph.nodes ↔
      (∃ old ∈ rewriting.graph.nodes, other = if old.id = node.id then
        setName (newName rewriting.name_counter (node.name ++ "_ngraph")) old
          else old) ∨
      other = identityNode rewriting.graph.nextNodeId node := by
  rw [addIdentity_graph member, addInputs_nodes, Graph.addNode, List.mem_append,
    List.mem_singleton, Graph.updateNode, List.mem_map]
  apply or_congr_left
  constructor
  · rintro ⟨old, oldIn, rfl⟩
    exact ⟨old, oldIn, by simp only [beq_iff_eq]⟩
  · rintro ⟨old, oldIn, rfl⟩
    exact ⟨old, oldIn, by simp only [beq_iff_eq]⟩

end Step

section Loop

variable {newName : Nat → String → String} {ref_output : Nat → Nat → Bool}
  {skip_these_nodes : OrderedSet String} {rewriting : Rewriting}
  {nodes : List Node}

/-- Different numbers make different names, and none is a name of the graph. -/
structure NewNames (graph : Graph) (newName : Nat → String → String) :
    Prop where
  fresh : Fresh graph newName
  distinct : ∀ counter other base otherBase,
    newName counter base = newName other otherBase → counter = other

/-- What the loop keeps: later names are still new. -/
structure Growing (newName : Nat → String → String) (rewriting : Rewriting)
    (nodes : List Node) : Prop where
  wf : rewriting.graph.WF
  remaining : ∀ node ∈ nodes, node ∈ rewriting.graph.op_nodes
  fresh : ∀ counter, rewriting.name_counter ≤ counter → ∀ base,
    ∀ node ∈ rewriting.graph.nodes, node.name ≠ newName counter base

theorem growing_init {graph : Graph} (wf : graph.WF)
    (fresh : Fresh graph newName) (name_counter : Nat) :
    Growing newName ⟨graph, name_counter⟩ graph.op_nodes where
  wf := wf
  remaining := fun _ member => member
  fresh := fun counter _ base => fresh counter base

theorem Growing.tail {node : Node}
    (growing : Growing newName rewriting (node :: nodes)) :
    Growing newName rewriting nodes where
  wf := growing.wf
  remaining := fun other member =>
    growing.remaining other (List.mem_cons_of_mem _ member)
  fresh := growing.fresh

theorem Growing.addIdentity {node : Node}
    (growing : Growing newName rewriting (node :: nodes))
    (notLater : node ∉ nodes) (distinct : ∀ counter other base otherBase,
      newName counter base = newName other otherBase → counter = other) :
    Growing newName (addIdentity newName node rewriting) nodes := by
  have member := growing.remaining node List.mem_cons_self
  have inNodes := (List.mem_filter.mp member).1
  constructor
  case wf => exact addIdentity_wf growing.wf member (growing.fresh _ le_rfl _)
  case remaining =>
    intro other later
    obtain ⟨otherIn, isOp⟩ :=
      List.mem_filter.mp
        (growing.remaining other (List.mem_cons_of_mem _ later))
    refine List.mem_filter.mpr
      ⟨(mem_addIdentity inNodes).mpr (.inl ⟨other, otherIn, ?_⟩), isOp⟩
    rw [if_neg]
    intro sameId
    exact notLater (growing.wf.id_injective otherIn inNodes sameId ▸ later)
  case fresh =>
    intro counter above base other otherIn
    have next :
        (NgraphOptimizer.addIdentity newName node rewriting).name_counter =
        rewriting.name_counter + 1 := rfl
    rw [next] at above
    cases (mem_addIdentity inNodes).mp otherIn with
    | inr isNew =>
        rw [isNew]
        exact growing.fresh counter (by omega) base node inNodes
    | inl isOld =>
        obtain ⟨old, oldIn, rfl⟩ := isOld
        split
        · intro same
          have sameCounter := distinct _ _ _ _ same
          omega
        · exact growing.fresh counter (by omega) base old oldIn

/-- What renames and identity nodes keep holds of all nodes after the loop. -/
theorem addIdentityNLoop_wf {holds : Node → Prop}
    (growing : Growing newName rewriting nodes) (distinctNodes : nodes.Nodup)
    (distinct : ∀ counter other base otherBase,
      newName counter base = newName other otherBase → counter = other)
    (rename : ∀ counter node, holds node →
      holds (setName (newName counter (node.name ++ "_ngraph")) node))
    (identity : ∀ id node, holds node → holds (identityNode id node))
    (initial : ∀ node ∈ rewriting.graph.nodes, holds node) :
    (addIdentityNLoop ref_output newName skip_these_nodes nodes
      rewriting).graph.WF ∧
      ∀ node ∈
        (addIdentityNLoop ref_output newName skip_these_nodes nodes
          rewriting).graph.nodes,
        holds node := by
  induction nodes generalizing rewriting with
  | nil => exact ⟨growing.wf, initial⟩
  | cons node nodes ih =>
      obtain ⟨notLater, distinctTail⟩ := List.nodup_cons.mp distinctNodes
      have skipped := ih growing.tail distinctTail initial
      unfold addIdentityNLoop
      split
      · split
        · split
          · exact skipped
          · have inNodes :=
              (List.mem_filter.mp (growing.remaining node List.mem_cons_self)).1
            apply ih (growing.addIdentity notLater distinct) distinctTail
            intro other otherIn
            cases (mem_addIdentity inNodes).mp otherIn with
            | inr isNew =>
                rw [isNew]
                exact identity _ node (initial node inNodes)
            | inl isOld =>
                obtain ⟨old, oldIn, rfl⟩ := isOld
                split
                case isTrue sameId =>
                  obtain rfl : old = node :=
                    growing.wf.id_injective oldIn inNodes sameId
                  exact rename _ old (initial old oldIn)
                case isFalse => exact initial old oldIn
        · exact skipped
      · exact skipped

theorem addIdentityN_wf {graph : Graph} {holds : Node → Prop} (wf : graph.WF)
    (newNames : NewNames graph newName) (name_counter : Nat)
    (rename : ∀ counter node, holds node →
      holds (setName (newName counter (node.name ++ "_ngraph")) node))
    (identity : ∀ id node, holds node → holds (identityNode id node))
    (initial : ∀ node ∈ graph.nodes, holds node) :
    (addIdentityN ref_output newName graph name_counter skip_these_nodes).WF ∧
      ∀ node ∈
        (addIdentityN ref_output newName graph name_counter
          skip_these_nodes).nodes,
        holds node :=
  addIdentityNLoop_wf (growing_init wf newNames.fresh name_counter)
    (wf.ids.of_map.filter _) newNames.distinct rename identity initial

end Loop

end NGraphBridge.NgraphOptimizer
