import NGraphBridge.AssignClusters.Tagging

/-!
# Clusters are convex

The cluster ids that the pass leaves on the nodes have the same classes as the
pointers it worked with, so what the invariant says about the pointers holds of
the ids.
-/

namespace NGraphBridge.AssignClusters

open TF Deadness MarkForClustering Relation NGraphBridge.Digraph

/-- The cluster ids on a node. -/
def clusterIds (node : Node) : List AttrValue :=
  (node.attrs.filter (fun entry => entry.1 == "_ngraph_cluster")).map Prod.snd

/-- The cluster of a node: its id if it is marked, else the node alone. -/
def clusterOf (graph : Graph) (id : Nat) : Int ⊕ Nat :=
  if nodeIsMarkedForClustering (graph.node id) then
    match getNodeCluster (graph.node id) with
    | .ok cluster_idx => .inl cluster_idx
    | .error _ => .inr id
  else .inr id

variable {graph : Graph}

theorem node_tagGraph (tag : Nat → Option Nat) {id : Nat}
    (idNode : graph.HasNode id) :
    (tagGraph tag graph).node id = tagNode tag (graph.node id) :=
  Graph.node_map idNode (tagNode_id tag)

theorem opEdge_tagGraph (tag : Nat → Option Nat) (wf : graph.WF) :
    OpEdge (tagGraph tag graph) = OpEdge graph := by
  ext u v
  apply exists_congr
  intro edge
  apply and_congr_right
  intro member
  have src := node_tagGraph tag (wf.src edge member)
  have dst := node_tagGraph tag (wf.dst edge member)
  simp only [skipsCycleCheck, src, dst, Node.isOp, Node.isSource, Node.isSink,
    Node.isNextIteration, tagNode_id, tagNode_type]

theorem clusterIds_tagged {tag : Nat → Option Nat} {node : Node} {c : Nat}
    (tagged : tag node.id = some c) :
    clusterIds (tagNode tag node) = [.i c] := by
  have others : (node.attrs.clear "_ngraph_cluster").filter
      (fun entry => entry.1 == "_ngraph_cluster") = [] := by
    simp [AttrMap.clear, List.filter_filter]
  simp only [clusterIds, tagNode, tagged, Node.addAttr, AttrMap.set]
  rw [List.filter_cons_of_pos (by simp), others]
  rfl

theorem getNodeCluster_tagged {tag : Nat → Option Nat} {node : Node} {c : Nat}
    (tagged : tag node.id = some c) :
    getNodeCluster (tagNode tag node) = .ok c := by
  simp [getNodeCluster, getNodeAttrInt, tagNode, tagged, Node.addAttr]

section Assigned

variable {hasher : Hasher} {order : graph.Enumeration}
  {manager : ClusterManager} {predicate_map : PredicateMap} {state : State}
  {tag : Nat → Option Nat} {outcome : Outcome}

theorem Assigned.tag_of_marked (wf : graph.WF)
    (assigned : Assigned hasher order manager predicate_map state tag outcome)
    {node : Node} (member : node ∈ graph.nodes)
    (marked : nodeIsMarkedForClustering node = true) :
    ∃ c, tag node.id = some c := by
  rw [← wf.node_eq member] at marked
  exact Option.isSome_iff_exists.mp
    ((assigned.marked ⟨node, member, rfl⟩).mpr marked)

theorem Assigned.tag_of_unmarked (wf : graph.WF)
    (assigned : Assigned hasher order manager predicate_map state tag outcome)
    {node : Node} (member : node ∈ graph.nodes)
    (unmarked : nodeIsMarkedForClustering node = false) :
    tag node.id = none := by
  rw [← wf.node_eq member, ← Bool.not_eq_true] at unmarked
  exact Option.not_isSome_iff_eq_none.mp
    (fun some_ => unmarked ((assigned.marked ⟨node, member, rfl⟩).mp some_))

theorem Assigned.clusterOf_eq (wf : graph.WF)
    (assigned : Assigned hasher order manager predicate_map state tag outcome)
    {id : Nat} (idNode : graph.HasNode id) :
    clusterOf outcome.graph id =
      match tag id with
      | some c => .inl c
      | none => .inr id := by
  obtain ⟨member, sameId⟩ := wf.node_mem idNode
  rw [clusterOf, assigned.output, node_tagGraph tag idNode, tagNode_marked]
  cases marked : nodeIsMarkedForClustering (graph.node id) with
  | true =>
      obtain ⟨c, tagged⟩ := assigned.tag_of_marked wf member marked
      rw [if_pos rfl, getNodeCluster_tagged tagged]
      rw [sameId] at tagged
      rw [tagged]
  | false =>
      have untagged := assigned.tag_of_unmarked wf member marked
      rw [sameId] at untagged
      rw [untagged]
      rfl

/-- Two nodes have one cluster id when they point to one cluster. -/
theorem Assigned.clusterOf_iff (wf : graph.WF)
    (assigned : Assigned hasher order manager predicate_map state tag outcome)
    {a b : Nat} (aNode : graph.HasNode a) (bNode : graph.HasNode b) :
    clusterOf outcome.graph a = clusterOf outcome.graph b ↔
      state.cluster_map a = state.cluster_map b := by
  rw [assigned.clusterOf_eq wf aNode, assigned.clusterOf_eq wf bNode]
  -- nodes that share a cluster are marked, so an untagged node is alone
  have alone : ∀ {x y}, graph.HasNode x → graph.HasNode y → tag x = none →
      state.cluster_map x = state.cluster_map y → x = y := by
    intro x y xNode yNode untagged together
    by_contra different
    have tagged := (assigned.marked xNode).mpr
      (assigned.inv.marked xNode yNode together different)
    simp [untagged] at tagged
  cases tagA : tag a with
  | some c =>
      cases tagB : tag b with
      | some d =>
          rw [← assigned.together aNode bNode tagA, tagB]
          simp only [Sum.inl.injEq, Int.natCast_inj, Option.some.injEq, eq_comm]
      | none =>
          have apart : state.cluster_map a ≠ state.cluster_map b := by
            intro together
            have same := alone bNode aNode tagB together.symm
            rw [same, tagA] at tagB
            simp at tagB
          simp [apart]
  | none =>
      cases tagB : tag b with
      | some d =>
          have apart : state.cluster_map a ≠ state.cluster_map b := by
            intro together
            have same := alone aNode bNode tagA together
            rw [same, tagB] at tagA
            simp at tagA
          simp [apart]
      | none =>
          simp only [Sum.inr.injEq]
          exact ⟨fun same => same ▸ rfl, alone aNode bNode tagA⟩

end Assigned

variable {hasher : Hasher} {order : graph.Enumeration}
  {manager : ClusterManager}

/-- Marked nodes carry exactly one cluster id, unmarked nodes are left as they
were, and the clusters have no cycle among them. -/
theorem assignClusters_convex (wf : graph.WF)
    (success : (assignClusters hasher order manager).status = .ok ()) :
    let final := (assignClusters hasher order manager).graph
    (∀ node ∈ final.nodes, nodeIsMarkedForClustering node = true →
      ∃ cluster_idx : Nat, clusterIds node = [.i cluster_idx]) ∧
    (∀ node ∈ final.nodes, nodeIsMarkedForClustering node = false →
      node ∈ graph.nodes) ∧
    ((∀ node ∈ graph.nodes, clusterIds node = []) →
      ∀ node ∈ final.nodes, nodeIsMarkedForClustering node = false →
        clusterIds node = []) ∧
    Acyclic (quotient (OpEdge final) (clusterOf final)) ∧
    ∀ n1 middle n2, clusterOf final n1 = clusterOf final n2 →
      ReflTransGen (OpEdge final) n1 middle →
      ReflTransGen (OpEdge final) middle n2 →
      clusterOf final middle = clusterOf final n1 := by
  intro final
  obtain ⟨predicate_map, state, tag, assigned⟩ :=
    assignClusters_assigned wf success
  have output : final = tagGraph tag graph := assigned.output
  have untouched : ∀ node ∈ final.nodes,
      nodeIsMarkedForClustering node = false →
      node ∈ graph.nodes := by
    intro node member unmarked
    rw [output] at member
    obtain ⟨old, oldMember, rfl⟩ := List.mem_map.mp member
    rw [tagNode_marked] at unmarked
    rw [tagNode, assigned.tag_of_unmarked wf oldMember unmarked]
    exact oldMember
  have acyclic : Acyclic (quotient (OpEdge final) (clusterOf final)) := by
    have ends : ∀ {id},
        (∃ other, OpEdge final id other ∨ OpEdge final other id) →
        graph.HasNode id := by
      rintro id ⟨other, onEdge⟩
      rw [output, opEdge_tagGraph tag wf] at onEdge
      cases onEdge with
      | inl out => exact (assigned.inv.inside out).1
      | inr back => exact (assigned.inv.inside back).2
    have byIndex : Acyclic (quotient (OpEdge final) state.index) := by
      rw [output, opEdge_tagGraph tag wf]
      exact assigned.inv.acyclic_quotient
    refine acyclic_quotient_congr ?_ byIndex
    intro first second firstOn secondOn
    rw [assigned.inv.index_iff (ends firstOn) (ends secondOn)]
    exact assigned.clusterOf_iff wf (ends firstOn) (ends secondOn)
  refine ⟨?_, untouched, ?_, acyclic, ?_⟩
  · intro node member marked
    rw [output] at member
    obtain ⟨old, oldMember, rfl⟩ := List.mem_map.mp member
    rw [tagNode_marked] at marked
    obtain ⟨c, tagged⟩ := assigned.tag_of_marked wf oldMember marked
    exact ⟨c, clusterIds_tagged tagged⟩
  · intro fresh node member unmarked
    exact fresh node (untouched node member unmarked)
  · intro n1 middle n2 same before after
    exact class_convex acyclic before after same

/-- Two marked nodes behind one output of a switch. -/
def switchGraph : Graph where
  nodes := [
    ⟨0, "_SOURCE", "NoOp", [], [], [], "", []⟩,
    ⟨1, "_SINK", "NoOp", [], [], [], "", []⟩,
    ⟨2, "cond", "Placeholder", [], [], [.DT_BOOL], "", []⟩,
    ⟨3, "x", "Placeholder", [], [], [.DT_FLOAT], "", []⟩,
    ⟨4, "switch", "Switch", [], [.DT_FLOAT, .DT_BOOL],
      [.DT_FLOAT, .DT_FLOAT], "", ["x", "cond"]⟩,
    ⟨5, "abs", "Abs", [("_ngraph_marked_for_clustering", .b true)], [.DT_FLOAT],
      [.DT_FLOAT], "", ["switch:1"]⟩,
    ⟨6, "neg", "Neg", [("_ngraph_marked_for_clustering", .b true)], [.DT_FLOAT],
      [.DT_FLOAT], "", ["abs"]⟩]
  edges :=
    [⟨0, 0, -1, 2, -1⟩, ⟨1, 0, -1, 3, -1⟩, ⟨2, 3, 0, 4, 0⟩, ⟨3, 2, 0, 4, 1⟩,
      ⟨4, 4, 1, 5, 0⟩, ⟨5, 5, 0, 6, 0⟩, ⟨6, 6, -1, 1, -1⟩, ⟨7, 4, -1, 1, -1⟩]

/-- Every hash is the same, so operands keep the order in which they were
added. -/
def constantHasher : Hasher :=
  ⟨fun _ => 0, fun _ => 0, fun _ => 0, fun _ _ => 0⟩

theorem switchGraph_wf : switchGraph.WF := by
  constructor <;> decide

theorem assignClusters_convex_switchGraph :
    clusterOf (assignClusters constantHasher switchGraph.byInsertion
      .init).graph 5 =
        .inl 0 ∧
      Acyclic (quotient
        (OpEdge (assignClusters constantHasher switchGraph.byInsertion
            .init).graph)
        (clusterOf (assignClusters constantHasher switchGraph.byInsertion
            .init).graph)) :=
  ⟨by decide,
    (assignClusters_convex switchGraph_wf (by decide)).2.2.2.1⟩

end NGraphBridge.AssignClusters
