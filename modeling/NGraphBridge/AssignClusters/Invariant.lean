import NGraphBridge.AssignClusters.Pass
import NGraphBridge.GraphCycles.Correct

/-!
# What holds while clusters are merged

Two structures describe the clusters: the map from nodes to clusters, and the
graph of cluster indices.  The invariant keeps them in step, and every phase of
the pass preserves it.
-/

namespace NGraphBridge.AssignClusters

open TF Deadness GraphCycles MarkForClustering Relation NGraphBridge.Digraph

/-- An edge between op nodes, neither of them a `NextIteration`. -/
def OpEdge (graph : Graph) (u v : Nat) : Prop :=
  ∃ edge ∈ graph.edges, skipsCycleCheck graph edge = false ∧
    edge.src = u ∧ edge.dst = v

/-- An edge into a static input that is not fed by a constant. -/
structure StaticEdge (graph : Graph) (edge : Edge) : Prop where
  member : edge ∈ graph.edges
  data : edge.isControlEdge = false
  op : (graph.node edge.dst).isOp = true
  static : edge.dst_input ∈ getStaticInputs (graph.node edge.dst)
  notConst : (graph.node edge.src).type_string ≠ "Const"

/-- The index of the cluster of a node. -/
def State.index (state : State) (id : Nat) : Nat := (state.cluster id).index

/-- `linked` are the edges that the graph of indices knows about, `shadowed`
the edges whose ends a shadow node keeps apart. -/
structure Inv (graph : Graph) (linked : Nat → Nat → Prop)
    (shadowed : Edge → Prop) (state : State) : Prop where
  gc : state.gc.Inv
  live : ∀ {id}, graph.HasNode id → state.gc.Live (state.index id)
  same : ∀ {a b}, graph.HasNode a → graph.HasNode b →
    state.index a = state.index b → state.cluster_map a = state.cluster_map b
  members : ∀ {a}, graph.HasNode a → ∀ m, m ∈ (state.cluster a).nodes ↔
    graph.HasNode m ∧ state.cluster_map m = state.cluster_map a
  inside : ∀ {u v}, linked u v → graph.HasNode u ∧ graph.HasNode v
  edges : ∀ {u v}, linked u v → state.index u ≠ state.index v →
    state.gc.Edge (state.index u) (state.index v)
  marked : ∀ {a b}, graph.HasNode a → graph.HasNode b →
    state.cluster_map a = state.cluster_map b → a ≠ b →
    nodeIsMarkedForClustering (graph.node a) = true
  predicate : ∀ {a}, graph.HasNode a → ∃ b, graph.HasNode b ∧
    state.cluster_map b = state.cluster_map a ∧
    state.nodes_predicate_map b = some (state.cluster a).predicate_string
  shadowInside : ∀ {edge}, shadowed edge →
    graph.HasNode edge.src ∧ graph.HasNode edge.dst
  shadow : ∀ {edge}, shadowed edge →
    ∃ s, (∀ {id}, graph.HasNode id → state.index id ≠ s) ∧
    state.gc.Edge (state.index edge.src) s ∧
    state.gc.Edge s (state.index edge.dst)

variable {graph : Graph} {linked : Nat → Nat → Prop} {shadowed : Edge → Prop}
  {state : State}

theorem Inv.index_iff (inv : Inv graph linked shadowed state) {a b : Nat}
    (aNode : graph.HasNode a) (bNode : graph.HasNode b) :
    state.index a = state.index b ↔
    state.cluster_map a = state.cluster_map b := by
  constructor
  · exact inv.same aNode bNode
  · intro together
    rw [State.index, State.index, State.cluster, State.cluster, together]

theorem Inv.separated (inv : Inv graph linked shadowed state) {edge : Edge}
    (isShadowed : shadowed edge) :
    state.cluster_map edge.src ≠ state.cluster_map edge.dst := by
  intro together
  obtain ⟨srcNode, dstNode⟩ := inv.shadowInside isShadowed
  obtain ⟨s, _, out, back⟩ := inv.shadow isShadowed
  rw [← (inv.index_iff srcNode dstNode).mpr together] at back
  exact inv.gc.acyclic _ (TransGen.head out (.single back))

theorem Inv.acyclic_quotient (inv : Inv graph linked shadowed state) :
    Acyclic (quotient linked state.index) := by
  apply inv.gc.acyclic.mono
  rintro left right ⟨different, u, v, step, rfl, rfl⟩
  exact inv.edges step different

/-- What moving nodes to a cluster changes. -/
structure Moved (src_cluster : Nat) (nodes : List Nat) (state moved : State) :
    Prop where
  gc : moved.gc = state.gc
  nodes_predicate_map : moved.nodes_predicate_map = state.nodes_predicate_map
  cluster_map : ∀ m, moved.cluster_map m =
    if m ∈ nodes then src_cluster else state.cluster_map m
  other : ∀ r, r ≠ src_cluster → moved.heap r = state.heap r
  index : (moved.heap src_cluster).index = (state.heap src_cluster).index
  predicate : (moved.heap src_cluster).predicate_string =
    (state.heap src_cluster).predicate_string
  nodes : ∀ m, m ∈ (moved.heap src_cluster).nodes ↔
    m ∈ (state.heap src_cluster).nodes ∨ m ∈ nodes

theorem moveNodes_moved (src_cluster : Nat) (nodes : List Nat) (state : State) :
    Moved src_cluster nodes state (moveNodes src_cluster nodes state) := by
  induction nodes generalizing state with
  | nil => exact ⟨rfl, rfl, by simp [moveNodes], fun _ _ => rfl, rfl, rfl,
      by simp [moveNodes]⟩
  | cons node nodes ih =>
      rw [moveNodes]
      have rest := ih (((state.setCluster src_cluster
        { state.heap src_cluster with
          nodes := (state.heap src_cluster).nodes.insert node })).setPointer
            node src_cluster)
      refine ⟨rest.gc, rest.nodes_predicate_map, ?_, ?_, ?_, ?_, ?_⟩
      · intro m
        rw [rest.cluster_map, State.setPointer_map, State.setCluster_map]
        by_cases same : m = node
        · simp [same]
        · simp [same]
      · intro r different
        rw [rest.other r different, State.setPointer_heap,
          State.setCluster_heap_of_ne _ _ _ different]
      · rw [rest.index, State.setPointer_heap, State.setCluster_heap_self]
      · rw [rest.predicate, State.setPointer_heap, State.setCluster_heap_self]
      · intro m
        rw [rest.nodes, State.setPointer_heap, State.setCluster_heap_self]
        simp only [List.mem_insert_iff, List.mem_cons]
        constructor
        · rintro ((new | old) | later)
          · exact .inr (.inl new)
          · exact .inl old
          · exact .inr (.inr later)
        · rintro (old | new | later)
          · exact .inl (.inr old)
          · exact .inl (.inl new)
          · exact .inr later

/-- What merging the clusters of an edge changes. -/
structure Merged (edge : Edge) (state merged : State) : Prop where
  gc : merged.gc = state.gc
  nodes_predicate_map : merged.nodes_predicate_map = state.nodes_predicate_map
  cluster_map : ∀ m, merged.cluster_map m =
    if m ∈ (state.cluster edge.dst).nodes then state.cluster_map edge.src
    else state.cluster_map m
  other : ∀ r, r ≠ state.cluster_map edge.src → merged.heap r = state.heap r
  index : (merged.heap (state.cluster_map edge.src)).index =
    state.index edge.src
  predicate : (merged.heap (state.cluster_map edge.src)).predicate_string =
    getMergedClusterPred (state.cluster edge.src).predicate_string
      (state.cluster edge.dst).predicate_string
  nodes : ∀ m, m ∈ (merged.heap (state.cluster_map edge.src)).nodes ↔
    m ∈ (state.cluster edge.src).nodes ∨ m ∈ (state.cluster edge.dst).nodes

theorem mergeClusters_merged (edge : Edge) (state : State) :
    Merged edge state (mergeClusters edge state) := by
  rw [mergeClusters]
  have moved := moveNodes_moved (state.cluster_map edge.src)
    (state.cluster edge.dst).nodes
    (state.setCluster (state.cluster_map edge.src)
      { state.cluster edge.src with
        predicate_string := getMergedClusterPred
          (state.cluster edge.src).predicate_string
          (state.cluster edge.dst).predicate_string
        outgoing_edges := ((state.cluster edge.src).outgoing_edges ∪
          (state.cluster edge.dst).outgoing_edges).filter (· != edge) })
  refine ⟨moved.gc, moved.nodes_predicate_map, moved.cluster_map, ?_,
    ?_, ?_, ?_⟩
  · intro r different
    rw [moved.other r different, State.setCluster_heap_of_ne _ _ _ different]
  · rw [moved.index, State.setCluster_heap_self]
    rfl
  · rw [moved.predicate, State.setCluster_heap_self]
  · intro m
    rw [moved.nodes, State.setCluster_heap_self]

/-- Merging renames the index of the destination to that of the source. -/
theorem Merged.index_eq {edge : Edge} {merged : State}
    (result : Merged edge state merged) (inv : Inv graph linked shadowed state)
    (srcNode : graph.HasNode edge.src) (dstNode : graph.HasNode edge.dst)
    {id : Nat} (idNode : graph.HasNode id) :
    merged.index id = merge (state.index edge.src) (state.index edge.dst)
      (state.index id) := by
  have inDst : id ∈ (state.cluster edge.dst).nodes ↔
      state.index id = state.index edge.dst := by
    rw [inv.members dstNode, inv.index_iff idNode dstNode]
    exact ⟨fun both => both.2, fun together => ⟨idNode, together⟩⟩
  rw [State.index, State.cluster, result.cluster_map]
  by_cases member : id ∈ (state.cluster edge.dst).nodes
  · rw [if_pos member, result.index, inDst.mp member, merge_dropped]
  · rw [if_neg member, merge_of_ne (fun same => member (inDst.mpr same))]
    by_cases inSrc : state.cluster_map id = state.cluster_map edge.src
    · rw [inSrc, result.index, (inv.index_iff idNode srcNode).mpr inSrc]
    · rw [result.other _ inSrc]
      rfl

theorem Merged.map_eq {edge : Edge} {merged : State}
    (result : Merged edge state merged) (inv : Inv graph linked shadowed state)
    (dstNode : graph.HasNode edge.dst) {id : Nat} (idNode : graph.HasNode id) :
    merged.cluster_map id =
      merge (state.cluster_map edge.src) (state.cluster_map edge.dst)
        (state.cluster_map id) := by
  rw [result.cluster_map]
  by_cases together : state.cluster_map id = state.cluster_map edge.dst
  · rw [if_pos ((inv.members dstNode id).mpr ⟨idNode, together⟩), together,
      merge_dropped]
  · rw [if_neg (fun member => together ((inv.members dstNode id).mp member).2),
      merge_of_ne together]

section Contracted

variable {edge : Edge} {gc : Rep} {merged : State}

/-- The situation right after an edge was contracted. -/
structure Contraction (graph : Graph) (linked : Nat → Nat → Prop)
    (shadowed : Edge → Prop) (edge : Edge) (state : State) (gc : Rep)
    (merged : State) : Prop where
  inv : Inv graph linked shadowed state
  merged : Merged edge state merged
  srcNode : graph.HasNode edge.src
  dstNode : graph.HasNode edge.dst
  srcMarked : nodeIsMarkedForClustering (graph.node edge.src) = true
  dstMarked : nodeIsMarkedForClustering (graph.node edge.dst) = true
  there : state.gc.Edge (state.index edge.src) (state.index edge.dst)
  contracted : Rep.Contracted state.gc (state.index edge.src)
    (state.index edge.dst) (gc, true)

variable (contraction : Contraction graph linked shadowed edge state gc merged)

include contraction

theorem Contraction.apart : state.index edge.src ≠ state.index edge.dst := by
  intro loop
  have there := contraction.there
  rw [loop] at there
  exact contraction.inv.gc.acyclic.irrefl _ there

theorem Contraction.index {id : Nat} (idNode : graph.HasNode id) :
    merged.index id = merge (state.index edge.src) (state.index edge.dst)
      (state.index id) :=
  contraction.merged.index_eq contraction.inv contraction.srcNode
    contraction.dstNode idNode

theorem Contraction.map {id : Nat} (idNode : graph.HasNode id) :
    merged.cluster_map id = merge (state.cluster_map edge.src)
      (state.cluster_map edge.dst) (state.cluster_map id) :=
  contraction.merged.map_eq contraction.inv contraction.dstNode idNode

theorem Contraction.pointersApart :
    state.cluster_map edge.src ≠ state.cluster_map edge.dst := by
  intro together
  exact contraction.apart
    ((contraction.inv.index_iff contraction.srcNode contraction.dstNode).mpr
      together)

theorem Contraction.gcEdge (u v : Nat) : gc.Edge u v ↔
    Digraph.contract state.gc.Edge (state.index edge.src)
      (state.index edge.dst) u v := by
  have edges := contraction.contracted.edge u v
  simpa using edges

theorem Contraction.gcEdge_merge {u v : Nat} (old : state.gc.Edge u v)
    (other : merge (state.index edge.src) (state.index edge.dst) u ≠
      merge (state.index edge.src) (state.index edge.dst) v) :
    gc.Edge (merge (state.index edge.src) (state.index edge.dst) u)
      (merge (state.index edge.src) (state.index edge.dst) v) := by
  rw [contraction.gcEdge]
  refine ⟨u, v, ⟨old, ?_⟩, rfl, rfl⟩
  rintro ⟨rfl, rfl⟩
  rw [merge_kept, merge_dropped] at other
  exact other rfl

/-- A node that was moved, or one that was in its new cluster all along. -/
theorem Contraction.map_cases {a b : Nat} (aNode : graph.HasNode a)
    (bNode : graph.HasNode b)
    (together : merged.cluster_map a = merged.cluster_map b) :
    state.cluster_map a = state.cluster_map b ∨
      (state.cluster_map a = state.cluster_map edge.src ∧
        state.cluster_map b = state.cluster_map edge.dst) ∨
      (state.cluster_map a = state.cluster_map edge.dst ∧
        state.cluster_map b = state.cluster_map edge.src) := by
  rw [contraction.map aNode, contraction.map bNode] at together
  by_cases aMoved : state.cluster_map a = state.cluster_map edge.dst
  · by_cases bMoved : state.cluster_map b = state.cluster_map edge.dst
    · exact .inl (aMoved.trans bMoved.symm)
    · rw [aMoved, merge_dropped, merge_of_ne bMoved] at together
      exact .inr (.inr ⟨aMoved, together.symm⟩)
  · by_cases bMoved : state.cluster_map b = state.cluster_map edge.dst
    · rw [bMoved, merge_dropped, merge_of_ne aMoved] at together
      exact .inr (.inl ⟨together, bMoved⟩)
    · rw [merge_of_ne aMoved, merge_of_ne bMoved] at together
      exact .inl together

theorem Contraction.marked {a b : Nat} (aNode : graph.HasNode a)
    (bNode : graph.HasNode b)
    (together : merged.cluster_map a = merged.cluster_map b)
    (different : a ≠ b) : nodeIsMarkedForClustering (graph.node a) = true := by
  have inv := contraction.inv
  rcases contraction.map_cases aNode bNode together
    with old | ⟨inSrc, _⟩ | ⟨inDst, _⟩
  · exact inv.marked aNode bNode old different
  · by_cases same : a = edge.src
    · rw [same]
      exact contraction.srcMarked
    · exact inv.marked aNode contraction.srcNode inSrc same
  · by_cases same : a = edge.dst
    · rw [same]
      exact contraction.dstMarked
    · exact inv.marked aNode contraction.dstNode inDst same

theorem Contraction.members {a : Nat} (aNode : graph.HasNode a) (m : Nat) :
    m ∈ (merged.cluster a).nodes ↔
      graph.HasNode m ∧ merged.cluster_map m = merged.cluster_map a := by
  have inv := contraction.inv
  by_cases inMerged : merged.cluster_map a = state.cluster_map edge.src
  · rw [State.cluster, inMerged, contraction.merged.nodes,
      inv.members contraction.srcNode, inv.members contraction.dstNode]
    constructor
    · rintro (⟨mNode, inSrc⟩ | ⟨mNode, inDst⟩)
      · refine ⟨mNode, ?_⟩
        rw [contraction.map mNode, inSrc, merge_kept]
      · refine ⟨mNode, ?_⟩
        rw [contraction.map mNode, inDst, merge_dropped]
    · rintro ⟨mNode, together⟩
      rw [contraction.map mNode] at together
      rcases merge_eq_kept together with inSrc | inDst
      · exact .inl ⟨mNode, inSrc⟩
      · exact .inr ⟨mNode, inDst⟩
  · have notMoved : state.cluster_map a ≠ state.cluster_map edge.dst := by
      intro moved
      rw [contraction.map aNode, moved, merge_dropped] at inMerged
      exact inMerged rfl
    have stays : merged.cluster_map a = state.cluster_map a := by
      rw [contraction.map aNode, merge_of_ne notMoved]
    rw [State.cluster, contraction.merged.other _ inMerged, stays]
    have old := inv.members aNode m
    rw [State.cluster] at old
    rw [old]
    apply and_congr_right
    intro mNode
    rw [contraction.map mNode]
    constructor
    · intro together
      rw [merge_of_ne (together ▸ notMoved), together]
    · intro together
      by_cases moved : state.cluster_map m = state.cluster_map edge.dst
      · rw [moved, merge_dropped, ← stays] at together
        exact absurd together.symm inMerged
      · rwa [merge_of_ne moved] at together

theorem Contraction.predicate {a : Nat} (aNode : graph.HasNode a) :
    ∃ b, graph.HasNode b ∧ merged.cluster_map b = merged.cluster_map a ∧
      merged.nodes_predicate_map b =
        some (merged.cluster a).predicate_string := by
  have inv := contraction.inv
  rw [contraction.merged.nodes_predicate_map, State.cluster]
  by_cases inMerged : merged.cluster_map a = state.cluster_map edge.src
  · rw [inMerged, contraction.merged.predicate, getMergedClusterPred]
    split
    · obtain ⟨b, bNode, inDst, found⟩ := inv.predicate contraction.dstNode
      refine ⟨b, bNode, ?_, found⟩
      rw [contraction.map bNode, inDst, merge_dropped]
    · obtain ⟨b, bNode, inSrc, found⟩ := inv.predicate contraction.srcNode
      refine ⟨b, bNode, ?_, found⟩
      rw [contraction.map bNode, inSrc, merge_kept]
  · have notMoved : state.cluster_map a ≠ state.cluster_map edge.dst := by
      intro moved
      rw [contraction.map aNode, moved, merge_dropped] at inMerged
      exact inMerged rfl
    have stays : merged.cluster_map a = state.cluster_map a := by
      rw [contraction.map aNode, merge_of_ne notMoved]
    obtain ⟨b, bNode, together, found⟩ := inv.predicate aNode
    rw [contraction.merged.other _ inMerged, stays]
    refine ⟨b, bNode, ?_, found⟩
    rw [contraction.map bNode, merge_of_ne (together ▸ notMoved), together]

/-- Contracting an edge between marked nodes of two clusters keeps the two
structures in step. -/
theorem Contraction.preserves :
    Inv graph linked shadowed { merged with gc := gc } := by
  have inv := contraction.inv
  have apart := contraction.apart
  constructor
  · exact contraction.contracted.inv
  · intro id idNode
    have live := (contraction.contracted.live (merged.index id)).mpr
    simp only [true_implies] at live
    apply live
    rw [contraction.index idNode]
    by_cases dropped : state.index id = state.index edge.dst
    · rw [dropped, merge_dropped]
      exact ⟨inv.live contraction.srcNode, apart⟩
    · rw [merge_of_ne dropped]
      exact ⟨inv.live idNode, dropped⟩
  · intro a b aNode bNode sameIndex
    have sameIndex : merged.index a = merged.index b := sameIndex
    change merged.cluster_map a = merged.cluster_map b
    rw [contraction.index aNode, contraction.index bNode] at sameIndex
    rw [contraction.map aNode, contraction.map bNode]
    have translate : ∀ {id}, graph.HasNode id →
        (state.index id = state.index edge.dst ↔
          state.cluster_map id = state.cluster_map edge.dst) :=
      fun idNode => inv.index_iff idNode contraction.dstNode
    by_cases aMoved : state.index a = state.index edge.dst
    · rw [(translate aNode).mp aMoved, merge_dropped]
      rw [aMoved, merge_dropped] at sameIndex
      by_cases bMoved : state.index b = state.index edge.dst
      · rw [(translate bNode).mp bMoved, merge_dropped]
      · rw [merge_of_ne bMoved] at sameIndex
        rw [merge_of_ne (fun moved => bMoved ((translate bNode).mpr moved))]
        exact inv.same contraction.srcNode bNode sameIndex
    · rw [merge_of_ne (fun moved => aMoved ((translate aNode).mpr moved))]
      rw [merge_of_ne aMoved] at sameIndex
      by_cases bMoved : state.index b = state.index edge.dst
      · rw [(translate bNode).mp bMoved, merge_dropped]
        rw [bMoved, merge_dropped] at sameIndex
        exact inv.same aNode contraction.srcNode sameIndex
      · rw [merge_of_ne (fun moved => bMoved ((translate bNode).mpr moved))]
        rw [merge_of_ne bMoved] at sameIndex
        exact inv.same aNode bNode sameIndex
  · exact contraction.members
  · exact inv.inside
  · intro u v step different
    have different : merged.index u ≠ merged.index v := different
    change gc.Edge (merged.index u) (merged.index v)
    obtain ⟨uNode, vNode⟩ := inv.inside step
    rw [contraction.index uNode, contraction.index vNode] at different ⊢
    apply contraction.gcEdge_merge (inv.edges step _) different
    intro same
    rw [same] at different
    exact different rfl
  · exact contraction.marked
  · exact contraction.predicate
  · exact inv.shadowInside
  · intro shadowEdge isShadowed
    obtain ⟨s, fresh, out, back⟩ := inv.shadow isShadowed
    obtain ⟨srcNode, dstNode⟩ := inv.shadowInside isShadowed
    have kept : merge (state.index edge.src) (state.index edge.dst) s = s :=
      merge_of_ne (Ne.symm (fresh contraction.dstNode))
    have others : ∀ {id}, graph.HasNode id → merged.index id ≠ s := by
      intro id idNode
      rw [contraction.index idNode]
      by_cases dropped : state.index id = state.index edge.dst
      · rw [dropped, merge_dropped]
        exact fresh contraction.srcNode
      · rw [merge_of_ne dropped]
        exact fresh idNode
    refine ⟨s, others, ?_, ?_⟩
    · have moved := contraction.gcEdge_merge out
      rw [kept, ← contraction.index srcNode] at moved
      exact moved (others srcNode)
    · have moved := contraction.gcEdge_merge back
      rw [kept, ← contraction.index dstNode] at moved
      exact moved (Ne.symm (others dstNode))

end Contracted

end NGraphBridge.AssignClusters
