import NGraphBridge.TF.GraphEdit

/-!
# Edits that keep a graph well formed

A new node, a data edge into a free input and a new name for a node.
-/

namespace NGraphBridge.TF.Graph

variable {graph : Graph}

theorem lt_nextEdgeId {edge : Edge} (member : edge ∈ graph.edges) :
    edge.id < graph.nextEdgeId := by
  unfold nextEdgeId
  generalize graph.edges = edges at member
  induction edges with
  | nil => simp at member
  | cons head edges ih =>
      rw [List.foldr_cons]
      cases List.mem_cons.mp member with
      | inl same =>
          subst same
          omega
      | inr later =>
          have below := ih later
          omega

theorem node_addNode {node : Node} {id : Nat} (idNode : graph.HasNode id) :
    (graph.addNode node).node id = graph.node id := by
  obtain ⟨old, member, rfl⟩ := idNode
  have found :
      (graph.nodes.find? fun candidate => candidate.id == old.id).isSome =
        true := by
    rw [List.find?_isSome]
    exact ⟨old, member, by simp⟩
  rw [Graph.node, Graph.node, addNode, List.find?_append,
    Option.or_of_isSome found]

/-- A new node has a new id and a new name. -/
theorem WF.addNode (wf : graph.WF) {node : Node}
    (newId : ¬ graph.HasNode node.id)
    (newName : ∀ other ∈ graph.nodes, other.name ≠ node.name) :
    (graph.addNode node).WF := by
  have kept : ∀ {id}, graph.HasNode id → (graph.addNode node).HasNode id := by
    rintro id ⟨old, member, sameId⟩
    exact ⟨old, List.mem_append_left _ member, sameId⟩
  have src : ∀ edge ∈ graph.edges, (graph.addNode node).node edge.src =
      graph.node edge.src :=
    fun edge member => node_addNode (wf.src edge member)
  have dst : ∀ edge ∈ graph.edges, (graph.addNode node).node edge.dst =
      graph.node edge.dst :=
    fun edge member => node_addNode (wf.dst edge member)
  constructor
  case ids =>
    rw [Graph.addNode, List.map_append, List.nodup_append]
    refine ⟨wf.ids, by simp, ?_⟩
    rintro id inOld other isNew rfl
    obtain ⟨old, member, sameId⟩ := List.mem_map.mp inOld
    exact newId ⟨old, member, sameId.trans (by simpa using isNew)⟩
  case names =>
    rw [Graph.addNode, List.map_append, List.nodup_append]
    refine ⟨wf.names, by simp, ?_⟩
    rintro name inOld other isNew rfl
    obtain ⟨old, member, sameName⟩ := List.mem_map.mp inOld
    exact newName old member (sameName.trans (by simpa using isNew))
  case source => exact kept wf.source
  case sink => exact kept wf.sink
  case edgeIds => exact wf.edgeIds
  case src => exact fun edge member => kept (wf.src edge member)
  case dst => exact fun edge member => kept (wf.dst edge member)
  case outOfSource => exact wf.outOfSource
  case intoSink => exact wf.intoSink
  case control => exact wf.control
  case opEnds =>
    intro edge member data
    rw [src edge member, dst edge member]
    exact wf.opEnds edge member data
  case slots =>
    intro edge member data
    rw [src edge member, dst edge member]
    exact wf.slots edge member data
  case single => exact wf.single

/-- A new edge leads from an output to an input that nothing fed before. -/
theorem WF.addEdge (wf : graph.WF) {src dst : Nat} {src_output dst_input : Int}
    (srcNode : graph.HasNode src) (dstNode : graph.HasNode dst)
    (srcOp : (graph.node src).isOp = true)
    (dstOp : (graph.node dst).isOp = true)
    (output : 0 ≤ src_output ∧ src_output < (graph.node src).num_outputs)
    (input : 0 ≤ dst_input ∧ dst_input < (graph.node dst).num_inputs)
    (free : ∀ u a, ¬ graph.Feeds u a dst dst_input) :
    (graph.addEdge src src_output dst dst_input).WF := by
  have data : src_output ≠ kControlSlot := by
    dsimp only [kControlSlot]
    omega
  have tidy : (graph.addEdge src src_output dst dst_input).Tidy :=
    wf.tidy.addEdge data input.1 free
  have added : ∀ edge ∈ (graph.addEdge src src_output dst dst_input).edges,
      edge ∈ graph.edges ∨
      edge = ⟨graph.nextEdgeId, src, src_output, dst, dst_input⟩ := by
    intro edge member
    simpa [Graph.addEdge] using member
  have notEnd : ∀ {id}, (graph.node id).isOp = true → id ≠ 0 ∧ id ≠ 1 := by
    intro id isOp
    simpa [Node.isOp, Node.isSource, Node.isSink, Graph.node_id] using isOp
  constructor
  case ids => exact wf.ids
  case names => exact wf.names
  case source => exact wf.source
  case sink => exact wf.sink
  case edgeIds =>
    rw [Graph.addEdge, List.map_append, List.nodup_append]
    refine ⟨wf.edgeIds, by simp, ?_⟩
    rintro id inOld other isNew rfl
    obtain ⟨edge, member, sameId⟩ := List.mem_map.mp inOld
    have below := lt_nextEdgeId member
    have atEnd : id = graph.nextEdgeId := by simpa using isNew
    omega
  case src =>
    intro edge member
    cases added edge member with
    | inl old => exact wf.src edge old
    | inr new => rw [new]; exact srcNode
  case dst =>
    intro edge member
    cases added edge member with
    | inl old => exact wf.dst edge old
    | inr new => rw [new]; exact dstNode
  case outOfSource =>
    intro edge member
    cases added edge member with
    | inl old => exact wf.outOfSource edge old
    | inr new => rw [new]; exact (notEnd dstOp).1
  case intoSink =>
    intro edge member
    cases added edge member with
    | inl old => exact wf.intoSink edge old
    | inr new => rw [new]; exact (notEnd srcOp).2
  case control => exact tidy.control
  case opEnds =>
    intro edge member isData
    cases added edge member with
    | inl old => exact wf.opEnds edge old isData
    | inr new => rw [new]; exact ⟨srcOp, dstOp⟩
  case slots =>
    intro edge member isData
    cases added edge member with
    | inl old => exact wf.slots edge old isData
    | inr new => rw [new]; exact ⟨output, input⟩
  case single => exact tidy.single

/-- A node can take any name that no node has. -/
theorem WF.rename (wf : graph.WF) {node : Node} (member : node ∈ graph.nodes)
    {new_name : String}
    (newName : ∀ other ∈ graph.nodes, other.name ≠ new_name) :
    (graph.updateNode node.id fun other =>
      { other with name := new_name }).WF := by
  let update : Node → Node := fun other =>
    if other.id == node.id then { other with name := new_name } else other
  have keeps : ∀ other, (update other).id = other.id ∧
      (update other).isOp = other.isOp ∧
      (update other).num_inputs = other.num_inputs ∧
      (update other).num_outputs = other.num_outputs := by
    intro other
    dsimp only [update]
    split
    · exact ⟨rfl, rfl, rfl, rfl⟩
    · exact ⟨rfl, rfl, rfl, rfl⟩
  have renamed :
      (graph.updateNode node.id fun other => { other with name := new_name }) =
      { graph with nodes := graph.nodes.map update } := rfl
  rw [renamed]
  have kept : ∀ {id}, graph.HasNode id →
      ({ graph with nodes := graph.nodes.map update } : Graph).HasNode id := by
    rintro id ⟨old, oldIn, sameId⟩
    exact ⟨update old, List.mem_map_of_mem oldIn, (keeps old).1.trans sameId⟩
  have at_ : ∀ {id}, graph.HasNode id →
      ({ graph with nodes := graph.nodes.map update } : Graph).node id =
        update (graph.node id) :=
    fun idNode => node_map idNode fun other => (keeps other).1
  constructor
  case ids =>
    have same : (graph.nodes.map update).map Node.id =
        graph.nodes.map Node.id := by
      rw [List.map_map]
      exact List.map_congr_left fun other _ => (keeps other).1
    rw [same]
    exact wf.ids
  case names =>
    have names : ∀ other ∈ graph.nodes,
        (update other).name = if other = node then new_name
          else other.name := by
      intro other otherIn
      by_cases same : other = node
      · simp [update, same]
      · have different : other.id ≠ node.id := fun sameId =>
          same (wf.id_injective otherIn member sameId)
        simp [update, same, different]
    rw [List.map_map]
    apply List.Nodup.map_on _ wf.ids.of_map
    intro left leftIn right rightIn same
    rw [Function.comp_apply, Function.comp_apply, names left leftIn,
      names right rightIn] at same
    by_cases leftSame : left = node
    · by_cases rightSame : right = node
      · rw [leftSame, rightSame]
      · rw [if_pos leftSame, if_neg rightSame] at same
        exact absurd same.symm (newName right rightIn)
    · by_cases rightSame : right = node
      · rw [if_neg leftSame, if_pos rightSame] at same
        exact absurd same (newName left leftIn)
      · rw [if_neg leftSame, if_neg rightSame] at same
        exact wf.name_injective leftIn rightIn same
  case source => exact kept wf.source
  case sink => exact kept wf.sink
  case edgeIds => exact wf.edgeIds
  case src => exact fun edge inGraph => kept (wf.src edge inGraph)
  case dst => exact fun edge inGraph => kept (wf.dst edge inGraph)
  case outOfSource => exact wf.outOfSource
  case intoSink => exact wf.intoSink
  case control => exact wf.control
  case opEnds =>
    intro edge inGraph data
    rw [at_ (wf.src edge inGraph), at_ (wf.dst edge inGraph), (keeps _).2.1,
      (keeps _).2.1]
    exact wf.opEnds edge inGraph data
  case slots =>
    intro edge inGraph data
    rw [at_ (wf.src edge inGraph), at_ (wf.dst edge inGraph), (keeps _).2.2.1,
      (keeps _).2.2.2]
    exact wf.slots edge inGraph data
  case single => exact wf.single

end NGraphBridge.TF.Graph
