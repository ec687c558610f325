import NGraphBridge.AssignClusters.Invariant
import Mathlib.Data.Finset.Card

/-!
# The phases of clustering

Each phase keeps the invariant: adding the nodes starts it, the edges and the
shadows extend what it says, and the contraction loop only preserves it.
-/

namespace NGraphBridge.AssignClusters

open TF Deadness GraphCycles MarkForClustering Relation NGraphBridge.Digraph

/-- A graph of indices that has everything that another has. -/
structure Grown (before after : Rep) : Prop where
  inv : after.Inv
  live : ∀ {u}, before.Live u → after.Live u
  edge : ∀ {u v}, before.Edge u v → after.Edge u v

theorem Grown.refl {gc : Rep} (inv : gc.Inv) : Grown gc gc :=
  ⟨inv, fun live => live, fun edge => edge⟩

theorem Grown.trans {first second third : Rep} (left : Grown first second)
    (right : Grown second third) : Grown first third :=
  ⟨right.inv, fun live => right.live (left.live live),
    fun edge => right.edge (left.edge edge)⟩

theorem Grown.newNode {gc : Rep} (inv : gc.Inv) : Grown gc gc.newNode.1 :=
  ⟨Rep.newNode_inv inv, fun live => (Rep.newNode_live inv _).mpr (.inl live),
    fun edge => (Rep.newNode_edge inv _ _).mpr edge⟩

theorem Grown.inserted {gc : Rep} {x y : Nat} {outcome : Rep × Bool}
    (inserted : Rep.Inserted gc x y outcome) : Grown gc outcome.1 :=
  ⟨inserted.inv, fun live => (inserted.live _).mpr live,
    fun edge => (inserted.edge _ _).mpr (.inl edge)⟩

section Grow

variable {graph : Graph} {linked : Nat → Nat → Prop} {shadowed : Edge → Prop}
  {state : State} {gc : Rep}

theorem Inv.grow (inv : Inv graph linked shadowed state)
    (grown : Grown state.gc gc) :
    Inv graph linked shadowed { state with gc := gc } where
  gc := grown.inv
  live := fun idNode => grown.live (inv.live idNode)
  same := inv.same
  members := inv.members
  inside := inv.inside
  edges := fun step different => grown.edge (inv.edges step different)
  marked := inv.marked
  predicate := inv.predicate
  shadowInside := inv.shadowInside
  shadow := by
    intro edge isShadowed
    obtain ⟨s, fresh, out, back⟩ := inv.shadow isShadowed
    exact ⟨s, fresh, grown.edge out, grown.edge back⟩

theorem Inv.link {more : Nat → Nat → Prop}
    (inv : Inv graph linked shadowed state)
    (inside : ∀ {u v}, more u v → graph.HasNode u ∧ graph.HasNode v)
    (edges : ∀ {u v}, more u v →
      state.gc.Edge (state.index u) (state.index v)) :
    Inv graph more shadowed state where
  gc := inv.gc
  live := inv.live
  same := inv.same
  members := inv.members
  inside := inside
  edges := fun step _ => edges step
  marked := inv.marked
  predicate := inv.predicate
  shadowInside := inv.shadowInside
  shadow := inv.shadow

/-- One more edge is shadowed once there is a shadow node for it. -/
theorem Inv.castShadow {new : Edge} {s : Nat}
    (inv : Inv graph linked shadowed state) (srcNode : graph.HasNode new.src)
    (dstNode : graph.HasNode new.dst)
    (fresh : ∀ {id}, graph.HasNode id → state.index id ≠ s)
    (out : state.gc.Edge (state.index new.src) s)
    (back : state.gc.Edge s (state.index new.dst)) :
    Inv graph linked (fun edge => shadowed edge ∨ edge = new) state where
  gc := inv.gc
  live := inv.live
  same := inv.same
  members := inv.members
  inside := inv.inside
  edges := inv.edges
  marked := inv.marked
  predicate := inv.predicate
  shadowInside := by
    intro edge isShadowed
    cases isShadowed with
    | inl old => exact inv.shadowInside old
    | inr same => exact same ▸ ⟨srcNode, dstNode⟩
  shadow := by
    intro edge isShadowed
    cases isShadowed with
    | inl old => exact inv.shadow old
    | inr same =>
        subst same
        exact ⟨s, fresh, out, back⟩

end Grow

section Nodes

variable {graph : Graph} {order : graph.Enumeration}
  {predicate_map : PredicateMap}

/-- Every node handled so far is a cluster of its own. -/
structure Started (order : graph.Enumeration) (predicate_map : PredicateMap)
    (done : List Node) (state : State) : Prop where
  gc : state.gc.Inv
  cluster_map : ∀ id, state.cluster_map id = id
  live : ∀ node ∈ done, state.gc.Live (state.heap node.id).index
  distinct : ∀ left ∈ done, ∀ right ∈ done,
    (state.heap left.id).index = (state.heap right.id).index →
    left.id = right.id
  nodes : ∀ node ∈ done, (state.heap node.id).nodes = [node.id]
  predicate : ∀ node ∈ done,
    getNodePredicate order predicate_map node =
      .ok (state.heap node.id).predicate_string
  recorded : ∀ node ∈ done,
    state.nodes_predicate_map node.id =
      some (state.heap node.id).predicate_string

theorem started_init : Started order predicate_map [] State.init :=
  ⟨Rep.inv_empty, fun _ => rfl, by simp, by simp, by simp, by simp, by simp⟩

theorem Started.addNode {done : List Node} {state next : State} {node : Node}
    (started : Started order predicate_map done state)
    (new : ∀ old ∈ done, old.id ≠ node.id)
    (success : addNode order predicate_map state node = .ok next) :
    Started order predicate_map (node :: done) next := by
  have gcInv := Rep.newNode_inv started.gc
  have live := Rep.newNode_live started.gc
  have fresh := Rep.newNode_fresh state.gc
  unfold AssignClusters.addNode at success
  generalize state.gc.newNode = created at success gcInv live fresh
  obtain ⟨gc, new_index⟩ := created
  obtain ⟨pred_string, found, success⟩ := bind_ok success
  have step := Except.ok.inj success
  have gcEq : next.gc = gc := by rw [← step]
  have atNode : next.heap node.id =
      ⟨new_index, [node.id], pred_string, order.out_edges node.id⟩ := by
    rw [← step]
    exact Function.update_self _ _ _
  have kept : ∀ old ∈ done, next.heap old.id = state.heap old.id := by
    intro old member
    rw [← step]
    exact Function.update_of_ne (new old member) _ _
  have apart : ∀ old ∈ done, (state.heap old.id).index ≠ new_index := by
    intro old member same
    exact fresh (same ▸ started.live old member)
  refine ⟨gcEq ▸ gcInv, ?_, ?_, ?_, ?_, ?_, ?_⟩
  · intro id
    rw [← step]
    by_cases same : id = node.id
    · simp [same]
    · simp [same, started.cluster_map]
  · intro old member
    rw [gcEq]
    apply (live _).mpr
    cases List.mem_cons.mp member with
    | inl same => simp [same, atNode]
    | inr member =>
        rw [kept old member]
        exact .inl (started.live old member)
  · intro left leftIn right rightIn same
    cases List.mem_cons.mp leftIn with
    | inl leftNew =>
        cases List.mem_cons.mp rightIn with
        | inl rightNew => rw [leftNew, rightNew]
        | inr rightOld =>
            rw [leftNew, kept right rightOld, atNode] at same
            exact absurd same.symm (apart right rightOld)
    | inr leftOld =>
        cases List.mem_cons.mp rightIn with
        | inl rightNew =>
            rw [rightNew, kept left leftOld, atNode] at same
            exact absurd same (apart left leftOld)
        | inr rightOld =>
            rw [kept left leftOld, kept right rightOld] at same
            exact started.distinct left leftOld right rightOld same
  · intro old member
    cases List.mem_cons.mp member with
    | inl same => simp [same, atNode]
    | inr member =>
        rw [kept old member]
        exact started.nodes old member
  · intro old member
    cases List.mem_cons.mp member with
    | inl same => simp [same, atNode, found]
    | inr member =>
        rw [kept old member]
        exact started.predicate old member
  · intro old member
    cases List.mem_cons.mp member with
    | inl same =>
        rw [same, atNode, ← step]
        exact Function.update_self _ _ _
    | inr member =>
        rw [kept old member, ← step, ← started.recorded old member]
        exact Function.update_of_ne (new old member) _ _

/-- What every new node keeps holds of the nodes together. -/
theorem addNodes_preserves {holds : List Node → State → Prop}
    {done nodes : List Node} {state next : State}
    (step : ∀ {done state next node}, holds done state →
      (∀ old ∈ done, old.id ≠ node.id) →
      addNode order predicate_map state node = .ok next →
      holds (node :: done) next)
    (start : holds done state) (distinct : ((done ++ nodes).map Node.id).Nodup)
    (success : addNodes order predicate_map nodes state = .ok next) :
    ∃ all, (∀ node, node ∈ all ↔ node ∈ done ∨ node ∈ nodes) ∧
    holds all next := by
  induction nodes generalizing done state with
  | nil =>
      obtain rfl := Except.ok.inj success
      exact ⟨done, by simp, start⟩
  | cons node nodes ih =>
      obtain ⟨middle, first, rest⟩ := bind_ok success
      have new : ∀ old ∈ done, old.id ≠ node.id := by
        intro old member same
        rw [List.map_append, List.nodup_append] at distinct
        exact distinct.2.2 _ (List.mem_map_of_mem member) _ (by simp) same
      have reordered : ((node :: done ++ nodes).map Node.id).Nodup := by
        refine (List.Perm.nodup_iff (List.Perm.map _ ?_)).mpr distinct
        exact List.perm_middle.symm
      obtain ⟨all, members, result⟩ := ih (step start new first) reordered rest
      refine ⟨all, ?_, result⟩
      intro other
      rw [members, List.mem_cons, List.mem_cons]
      tauto

/-- The predicate of every node is on record. -/
def Recorded (order : graph.Enumeration) (predicate_map : PredicateMap)
    (nodes_predicate_map : Nat → Option String) : Prop :=
  ∀ node ∈ graph.nodes, ∃ pred_string,
    getNodePredicate order predicate_map node = .ok pred_string ∧
      nodes_predicate_map node.id = some pred_string

theorem addNodes_inv {state : State} (wf : graph.WF)
    (success : addNodes order predicate_map graph.nodes State.init =
      .ok state) :
    Inv graph (fun _ _ => False) (fun _ => False) state ∧
      Recorded order predicate_map state.nodes_predicate_map := by
  obtain ⟨all, members, started⟩ :=
    addNodes_preserves Started.addNode started_init
      (by simpa using wf.ids) success
  have inAll : ∀ node ∈ graph.nodes, node ∈ all :=
    fun node member => (members node).mpr (.inr member)
  have heap : ∀ id, state.cluster id = state.heap id := by
    intro id
    rw [State.cluster, started.cluster_map]
  refine ⟨?_, fun node member => ⟨_, started.predicate node (inAll node member),
    started.recorded node (inAll node member)⟩⟩
  constructor
  case gc => exact started.gc
  case live =>
    rintro id ⟨node, member, rfl⟩
    rw [State.index, heap]
    exact started.live node (inAll node member)
  case same =>
    rintro a b ⟨left, leftIn, rfl⟩ ⟨right, rightIn, rfl⟩ sameIndex
    rw [State.index, State.index, heap, heap] at sameIndex
    rw [started.distinct left (inAll left leftIn) right (inAll right rightIn)
      sameIndex]
  case members =>
    rintro a ⟨node, member, rfl⟩ m
    rw [heap, started.nodes node (inAll node member), List.mem_singleton,
      started.cluster_map, started.cluster_map]
    constructor
    · intro same
      exact ⟨⟨node, member, same.symm⟩, same⟩
    · exact fun both => both.2
  case inside => exact fun step => step.elim
  case edges => exact fun step => step.elim
  case marked =>
    intro a b _ _ together different
    rw [started.cluster_map, started.cluster_map] at together
    exact absurd together different
  case predicate =>
    rintro a ⟨node, member, rfl⟩
    refine ⟨node.id, ⟨node, member, rfl⟩, rfl, ?_⟩
    rw [heap]
    exact started.recorded node (inAll node member)
  case shadowInside => exact fun isShadowed => isShadowed.elim
  case shadow => exact fun isShadowed => isShadowed.elim

end Nodes

section Edges

variable {graph : Graph} {shadowed : Edge → Prop}

/-- The edges of a list that the cycle check takes in. -/
def Checked (graph : Graph) (edges : List Edge) (u v : Nat) : Prop :=
  ∃ edge ∈ edges, skipsCycleCheck graph edge = false ∧ edge.src = u ∧
    edge.dst = v

theorem insertEdges_cons_ok {edge : Edge} {edges : List Edge}
    {state next : State}
    (success : insertEdges graph (edge :: edges) state = .ok next) :
    (skipsCycleCheck graph edge = true ∧
      insertEdges graph edges state = .ok next) ∨
    (skipsCycleCheck graph edge = false ∧ ∃ gc,
      state.gc.insertEdge (state.index edge.src) (state.index edge.dst) =
        (gc, true) ∧
      insertEdges graph edges { state with gc := gc } = .ok next) := by
  rw [insertEdges] at success
  by_cases skips : skipsCycleCheck graph edge = true
  · rw [if_pos skips] at success
    exact .inl ⟨skips, success⟩
  · rw [if_neg skips] at success
    refine .inr ⟨by simpa using skips, ?_⟩
    split at success
    next => exact absurd success (by simp)
    next gc inserted => exact ⟨gc, inserted, success⟩

theorem insertEdges_ok {edges : List Edge} {state next : State}
    (inv : state.gc.Inv)
    (live : ∀ edge ∈ edges, state.gc.Live (state.index edge.src) ∧
      state.gc.Live (state.index edge.dst))
    (success : insertEdges graph edges state = .ok next) :
    ∃ gc, next = { state with gc := gc } ∧ Grown state.gc gc ∧
      ∀ {u v}, Checked graph edges u v →
      gc.Edge (state.index u) (state.index v) := by
  induction edges generalizing state with
  | nil =>
      obtain rfl := Except.ok.inj success
      exact ⟨state.gc, rfl, Grown.refl inv,
        fun checked => by simp [Checked] at checked⟩
  | cons edge edges ih =>
      cases insertEdges_cons_ok success with
      | inl left =>
          obtain ⟨skips, success⟩ := left
          obtain ⟨gc, result, grown, all⟩ :=
            ih inv (fun edge member => live edge (by simp [member])) success
          refine ⟨gc, result, grown, ?_⟩
          rintro u v ⟨other, member, checked, ends⟩
          cases List.mem_cons.mp member with
          | inl same => simp [same, skips] at checked
          | inr later => exact all ⟨other, later, checked, ends⟩
      | inr taken =>
          obtain ⟨_, middle, accepted, success⟩ := taken
          obtain ⟨srcLive, dstLive⟩ := live edge (by simp)
          have inserted := Rep.insertEdge_spec inv srcLive dstLive
          rw [accepted] at inserted
          have first := Grown.inserted inserted
          have there : middle.Edge (state.index edge.src)
              (state.index edge.dst) :=
            (inserted.edge _ _).mpr (.inr ⟨rfl, rfl, rfl⟩)
          obtain ⟨gc, result, rest, all⟩ :=
            @ih { state with gc := middle } first.inv
              (fun edge member =>
                (live edge (by simp [member])).imp first.live first.live)
              success
          refine ⟨gc, result, first.trans rest, ?_⟩
          rintro u v ⟨other, member, checked, rfl, rfl⟩
          cases List.mem_cons.mp member with
          | inl same => exact same ▸ rest.edge there
          | inr later => exact all ⟨other, later, checked, rfl, rfl⟩

theorem checked_order (order : graph.Enumeration) :
    Checked graph order.edges = OpEdge graph := by
  ext u v
  simp only [Checked, OpEdge, order.mem_edges]

theorem Inv.edges_live {linked : Nat → Nat → Prop} {state : State}
    (inv : Inv graph linked shadowed state) (wf : graph.WF)
    (order : graph.Enumeration) :
    ∀ edge ∈ order.edges, state.gc.Live (state.index edge.src) ∧
      state.gc.Live (state.index edge.dst) := by
  intro edge member
  have inGraph := (order.mem_edges edge).mp member
  exact ⟨inv.live (wf.src edge inGraph), inv.live (wf.dst edge inGraph)⟩

/-- After the cycle check the invariant covers the op edges, and there is a rank
that they go up. -/
theorem insertEdges_inv {linked : Nat → Nat → Prop} {state next : State}
    (wf : graph.WF) (order : graph.Enumeration)
    (inv : Inv graph linked shadowed state)
    (success : insertEdges graph order.edges state = .ok next) :
    Inv graph (OpEdge graph) shadowed next ∧
      (∃ rank : Nat → Nat, ∀ {u v}, OpEdge graph u v → rank u < rank v) ∧
      next.nodes_predicate_map = state.nodes_predicate_map := by
  obtain ⟨gc, rfl, grown, all⟩ :=
    insertEdges_ok inv.gc (inv.edges_live wf order) success
  rw [checked_order] at all
  refine ⟨(inv.grow grown).link ?_ all, ?_, rfl⟩
  · rintro u v ⟨edge, member, _, rfl, rfl⟩
    exact ⟨wf.src edge member, wf.dst edge member⟩
  · exact ⟨fun id => gc.rank (state.index id),
      fun step => grown.inv.increasing (all step)⟩

end Edges

section Shadows

variable {graph : Graph} {linked : Nat → Nat → Prop} {shadowed : Edge → Prop}
  {state next : State}

theorem Inv.shade {fewer : Edge → Prop} (inv : Inv graph linked shadowed state)
    (subset : ∀ edge, fewer edge → shadowed edge) :
    Inv graph linked fewer state where
  gc := inv.gc
  live := inv.live
  same := inv.same
  members := inv.members
  inside := inv.inside
  edges := inv.edges
  marked := inv.marked
  predicate := inv.predicate
  shadowInside := fun isShadowed => inv.shadowInside (subset _ isShadowed)
  shadow := fun isShadowed => inv.shadow (subset _ isShadowed)

/-- A shadow node comes with an edge from the source and one to the
destination. -/
theorem addShadow_ok {static_edge : Edge}
    (success : addShadow state static_edge = .ok next) :
    let created := state.gc.newNode
    let out := created.1.insertEdge (state.index static_edge.src) created.2
    let back := out.1.insertEdge created.2 (state.index static_edge.dst)
    out.2 = true ∧ back.2 = true ∧ next = { state with gc := back.1 } := by
  intro created out back
  have unfolded : addShadow state static_edge =
      if out.2 && back.2 then .ok { state with gc := back.1 }
      else
      .error (errors.internal "Unable to create shadow edges in GraphCycles") :=
    rfl
  rw [unfolded] at success
  split at success
  case isFalse => simp at success
  case isTrue accepted =>
    obtain ⟨srcOk, dstOk⟩ := Bool.and_eq_true_iff.mp accepted
    exact ⟨srcOk, dstOk, (Except.ok.inj success).symm⟩

/-- The graph of indices once a static edge has its shadow node. -/
structure Shaded (state : State) (static_edge : Edge) (gc : Rep) : Prop where
  grown : Grown state.gc gc
  live : ∀ u, gc.Live u ↔ state.gc.Live u ∨ u = state.gc.newNode.2
  edge : ∀ u v, gc.Edge u v ↔ state.gc.Edge u v ∨
    (u = state.index static_edge.src ∧ v = state.gc.newNode.2) ∨
    (u = state.gc.newNode.2 ∧ v = state.index static_edge.dst)

theorem addShadow_shaded {static_edge : Edge}
    (inv : Inv graph linked shadowed state)
    (srcNode : graph.HasNode static_edge.src)
    (dstNode : graph.HasNode static_edge.dst)
    (success : addShadow state static_edge = .ok next) :
    ∃ gc, next = { state with gc := gc } ∧ Shaded state static_edge gc := by
  obtain ⟨srcOk, dstOk, rfl⟩ := addShadow_ok success
  have created := Grown.newNode inv.gc
  have newLive := (Rep.newNode_live inv.gc state.gc.newNode.2).mpr (.inr rfl)
  have out := Rep.insertEdge_spec created.inv
    (created.live (inv.live srcNode)) newLive
  have outGrown := Grown.inserted out
  have back := Rep.insertEdge_spec outGrown.inv (outGrown.live newLive)
    (outGrown.live (created.live (inv.live dstNode)))
  refine ⟨_, rfl, ?_⟩
  constructor
  case grown => exact created.trans (outGrown.trans (Grown.inserted back))
  case live =>
    intro u
    rw [back.live, out.live, Rep.newNode_live inv.gc]
  case edge =>
    intro u v
    rw [back.edge, out.edge, Rep.newNode_edge inv.gc, or_assoc]
    simp only [srcOk, dstOk, true_and]

theorem Inv.newNode_fresh (inv : Inv graph linked shadowed state) {id : Nat}
    (idNode : graph.HasNode id) : state.index id ≠ state.gc.newNode.2 := by
  intro same
  have live := inv.live idNode
  exact Rep.newNode_fresh state.gc (same ▸ live)

theorem addShadow_inv {static_edge : Edge}
    (inv : Inv graph linked shadowed state)
    (srcNode : graph.HasNode static_edge.src)
    (dstNode : graph.HasNode static_edge.dst)
    (success : addShadow state static_edge = .ok next) :
    Inv graph linked (fun edge => shadowed edge ∨ edge = static_edge) next ∧
      next.nodes_predicate_map = state.nodes_predicate_map := by
  obtain ⟨gc, rfl, shaded⟩ := addShadow_shaded inv srcNode dstNode success
  refine ⟨(inv.grow shaded.grown).castShadow srcNode dstNode inv.newNode_fresh
    ?_ ?_, rfl⟩
  · exact (shaded.edge _ _).mpr (.inr (.inl ⟨rfl, rfl⟩))
  · exact (shaded.edge _ _).mpr (.inr (.inr ⟨rfl, rfl⟩))

theorem shadowEdge_inv {static_edge : Edge}
    (inv : Inv graph linked shadowed state)
    (srcNode : graph.HasNode static_edge.src)
    (dstNode : graph.HasNode static_edge.dst)
    (success : shadowEdge graph state static_edge = .ok next) :
    Inv graph linked (fun edge => shadowed edge ∨ (edge = static_edge ∧
      (graph.node static_edge.src).type_string ≠ "Const")) next ∧
      next.nodes_predicate_map = state.nodes_predicate_map := by
  unfold shadowEdge at success
  split at success
  case isTrue notConst =>
    obtain ⟨added, kept⟩ := addShadow_inv inv srcNode dstNode success
    exact ⟨added.shade (fun edge isShadowed => isShadowed.imp_right And.left),
      kept⟩
  case isFalse const =>
    obtain rfl := Except.ok.inj success
    refine ⟨inv.shade ?_, rfl⟩
    intro edge isShadowed
    cases isShadowed with
    | inl old => exact old
    | inr new => exact absurd (bne_iff_ne.mpr new.2) const

theorem staticEdge_ok {edges_to_node : List Edge} {static_inp_idx : Int}
    {static_edge : Edge}
    (found : staticEdge edges_to_node static_inp_idx = .ok static_edge) :
    ∃ position : Nat, static_inp_idx = position ∧
      edges_to_node[position]? = some static_edge := by
  unfold staticEdge at found
  split at found
  case h_2 => simp at found
  case h_1 edge atIdx =>
    obtain rfl := Except.ok.inj found
    split at atIdx
    case isTrue => simp at atIdx
    case isFalse nonneg => exact ⟨static_inp_idx.toNat, by omega, atIdx⟩

theorem shadowEdges_inv {edges_to_node : List Edge} {static_inputs : List Int}
    (inv : Inv graph linked shadowed state)
    (inside : ∀ edge ∈ edges_to_node, graph.HasNode edge.src ∧
      graph.HasNode edge.dst)
    (success : shadowEdges graph edges_to_node static_inputs state = .ok next) :
    Inv graph linked (fun edge => shadowed edge ∨ (∃ idx ∈ static_inputs,
      staticEdge edges_to_node idx = .ok edge ∧
        (graph.node edge.src).type_string ≠ "Const")) next ∧
      next.nodes_predicate_map = state.nodes_predicate_map := by
  induction static_inputs generalizing shadowed state with
  | nil =>
      obtain rfl := Except.ok.inj success
      exact ⟨inv.shade (by simp), rfl⟩
  | cons idx static_inputs ih =>
      obtain ⟨static_edge, found, success⟩ := bind_ok success
      obtain ⟨middle, first, success⟩ := bind_ok success
      obtain ⟨_, _, atPosition⟩ := staticEdge_ok found
      obtain ⟨srcNode, dstNode⟩ :=
        inside static_edge (List.mem_of_getElem? atPosition)
      obtain ⟨middleInv, kept⟩ := shadowEdge_inv inv srcNode dstNode first
      obtain ⟨nextInv, rest⟩ := ih middleInv success
      refine ⟨nextInv.shade ?_, rest.trans kept⟩
      intro edge isShadowed
      cases isShadowed with
      | inl old => exact .inl (.inl old)
      | inr new =>
          obtain ⟨position, inList, atPosition, notConst⟩ := new
          cases List.mem_cons.mp inList with
          | inl same =>
              rw [same, found] at atPosition
              obtain rfl := Except.ok.inj atPosition
              exact .inl (.inr ⟨rfl, notConst⟩)
          | inr later => exact .inr ⟨position, later, atPosition, notConst⟩

theorem shadowNode_inv {node : Node} (wf : graph.WF) (order : graph.Enumeration)
    (member : node ∈ graph.nodes) (inv : Inv graph linked shadowed state)
    (success : shadowNode order state node = .ok next) :
    Inv graph linked (fun edge => shadowed edge ∨
      (StaticEdge graph edge ∧ edge.dst = node.id)) next ∧
      next.nodes_predicate_map = state.nodes_predicate_map := by
  unfold shadowNode at success
  split at success
  case isFalse noStatic =>
    obtain rfl := Except.ok.inj success
    refine ⟨inv.shade ?_, rfl⟩
    intro edge isShadowed
    cases isShadowed with
    | inl old => exact old
    | inr new =>
        obtain ⟨static, atNode⟩ := new
        have listed := static.static
        rw [atNode, wf.node_eq member] at listed
        exact absurd (List.length_pos_of_mem listed) noStatic
  case isTrue =>
    obtain ⟨edges_to_node, found, success⟩ := bind_ok success
    obtain ⟨covered, only⟩ := Node.input_edges_ok found
    have inside : ∀ edge ∈ edges_to_node,
        graph.HasNode edge.src ∧ graph.HasNode edge.dst := by
      intro edge inInputs
      obtain ⟨position, atPosition⟩ := List.mem_iff_getElem?.mp inInputs
      have inEdges :=
        ((order.mem_in_edges _ _).mp (only position edge atPosition).1).1
      exact ⟨wf.src edge inEdges, wf.dst edge inEdges⟩
    obtain ⟨nextInv, kept⟩ := shadowEdges_inv inv inside success
    refine ⟨nextInv.shade ?_, kept⟩
    intro edge isShadowed
    cases isShadowed with
    | inl old => exact .inl old
    | inr new =>
        obtain ⟨static, atNode⟩ := new
        have listed := static.static
        rw [atNode, wf.node_eq member] at listed
        obtain ⟨position, same, atPosition⟩ := covered edge
          ((order.mem_in_edges _ _).mpr ⟨static.member, atNode⟩) static.data
        refine .inr ⟨edge.dst_input, listed, ?_, static.notConst⟩
        rw [same, staticEdge, if_neg (by omega), Int.toNat_natCast, atPosition]

theorem addShadows_inv {nodes : List Node} (wf : graph.WF)
    (order : graph.Enumeration) (inside : ∀ node ∈ nodes, node ∈ graph.nodes)
    (inv : Inv graph linked shadowed state)
    (success : addShadows order nodes state = .ok next) :
    Inv graph linked (fun edge => shadowed edge ∨
      (StaticEdge graph edge ∧ ∃ node ∈ nodes, edge.dst = node.id)) next ∧
      next.nodes_predicate_map = state.nodes_predicate_map := by
  induction nodes generalizing shadowed state with
  | nil =>
      obtain rfl := Except.ok.inj success
      exact ⟨inv.shade (by simp), rfl⟩
  | cons node nodes ih =>
      obtain ⟨middle, first, success⟩ := bind_ok success
      obtain ⟨middleInv, kept⟩ :=
        shadowNode_inv wf order (inside node (by simp)) inv first
      obtain ⟨nextInv, rest⟩ :=
        ih (fun node member => inside node (by simp [member])) middleInv success
      refine ⟨nextInv.shade ?_, rest.trans kept⟩
      rintro edge (old | ⟨static, target, inList, atTarget⟩)
      · exact .inl (.inl old)
      · cases List.mem_cons.mp inList with
        | inl same => exact .inl (.inr ⟨static, same ▸ atTarget⟩)
        | inr later => exact .inr ⟨static, target, later, atTarget⟩

theorem addShadows_static (wf : graph.WF) (order : graph.Enumeration)
    (inv : Inv graph linked (fun _ => False) state)
    (success : addShadows order graph.op_nodes state = .ok next) :
    Inv graph linked (StaticEdge graph) next ∧
      next.nodes_predicate_map = state.nodes_predicate_map := by
  obtain ⟨nextInv, kept⟩ := addShadows_inv wf order
    (fun node member => (List.mem_filter.mp member).1) inv success
  refine ⟨nextInv.shade ?_, kept⟩
  intro edge static
  obtain ⟨atNode, sameId⟩ := wf.node_mem (wf.dst edge static.member)
  exact .inr ⟨static, graph.node edge.dst,
    List.mem_filter.mpr ⟨atNode, static.op⟩, sameId.symm⟩

/-- A data edge leads to every input of the node, and its static inputs are
among them. -/
structure Fed (graph : Graph) (node : Node) : Prop where
  input : ∀ input < node.num_inputs, ∃ edge ∈ graph.edges,
    edge.isControlEdge = false ∧
    edge.dst = node.id ∧ edge.dst_input = input
  static : ∀ idx ∈ getStaticInputs node, ∃ edge ∈ graph.edges,
    edge.isControlEdge = false ∧
    edge.dst = node.id ∧ edge.dst_input = idx

theorem shadowEdges_static {edges_to_node : List Edge}
    {static_inputs : List Int}
    (success : shadowEdges graph edges_to_node static_inputs state = .ok next) :
    ∀ idx ∈ static_inputs, ∃ (position : Nat) (edge : Edge), idx = position ∧
      edges_to_node[position]? = some edge := by
  induction static_inputs generalizing state with
  | nil => simp
  | cons head static_inputs ih =>
      obtain ⟨static_edge, found, success⟩ := bind_ok success
      obtain ⟨middle, _, success⟩ := bind_ok success
      intro idx member
      cases List.mem_cons.mp member with
      | inr later => exact ih success idx later
      | inl same =>
          subst same
          obtain ⟨position, isPosition, atPosition⟩ := staticEdge_ok found
          exact ⟨position, static_edge, isPosition, atPosition⟩

theorem shadowNode_fed {node : Node} (order : graph.Enumeration)
    (success : shadowNode order state node = .ok next)
    (hasStatic : getStaticInputs node ≠ []) :
    Fed graph node := by
  unfold shadowNode at success
  rw [if_pos (List.length_pos_iff.mpr hasStatic)] at success
  obtain ⟨edges_to_node, found, success⟩ := bind_ok success
  obtain ⟨_, only⟩ := Node.input_edges_ok found
  have leads : ∀ (position : Nat) edge, edges_to_node[position]? = some edge →
      ∃ edge ∈ graph.edges, edge.isControlEdge = false ∧ edge.dst = node.id ∧
        edge.dst_input = position := by
    intro position edge atPosition
    obtain ⟨inEdges, data, same⟩ := only position edge atPosition
    obtain ⟨member, atNode⟩ := (order.mem_in_edges _ _).mp inEdges
    exact ⟨edge, member, data, atNode, same⟩
  constructor
  · intro input inside
    rw [← Node.input_edges_full found] at inside
    exact leads input _ (List.getElem?_eq_getElem inside)
  · intro idx member
    obtain ⟨position, edge, rfl, atPosition⟩ :=
      shadowEdges_static success idx member
    exact leads position edge atPosition

theorem addShadows_fed {nodes : List Node} (order : graph.Enumeration)
    (success : addShadows order nodes state = .ok next) :
    ∀ node ∈ nodes, getStaticInputs node ≠ [] → Fed graph node := by
  induction nodes generalizing state with
  | nil => simp
  | cons head nodes ih =>
      obtain ⟨middle, first, success⟩ := bind_ok success
      intro node member hasStatic
      cases List.mem_cons.mp member with
      | inl same =>
          subst same
          exact shadowNode_fed order first hasStatic
      | inr later => exact ih success node later hasStatic

end Shadows

section Contract

variable {graph : Graph} {linked : Nat → Nat → Prop} {shadowed : Edge → Prop}
  {state next : State} {edge : Edge}

/-- What contracting an edge comes to. -/
inductive Contracting (edge : Edge) (state : State) : State × Bool → Prop
  | absent (absent :
    ¬ state.gc.Edge (state.index edge.src) (state.index edge.dst)) :
      Contracting edge state (state, false)
  | refused {gc : Rep}
    (contracted : Rep.Contracted state.gc (state.index edge.src)
      (state.index edge.dst) (gc, false)) :
      Contracting edge state ({ state with gc := gc }, false)
  | accepted {gc : Rep}
    (there : state.gc.Edge (state.index edge.src) (state.index edge.dst))
      (contracted : Rep.Contracted state.gc (state.index edge.src)
        (state.index edge.dst)
        (gc, true)) : Contracting edge state
        ({ mergeClusters edge state with gc := gc }, true)

theorem contractEdge_outcome (edge : Edge)
    (inv : Inv graph linked shadowed state) :
    Contracting edge state (contractEdge edge state) := by
  unfold contractEdge
  dsimp only
  split
  case isFalse absent =>
    exact .absent fun there => absent (Rep.hasEdge_iff.mpr there)
  case isTrue there =>
    have there : state.gc.Edge (state.index edge.src) (state.index edge.dst) :=
      Rep.hasEdge_iff.mp there
    have contracted := Rep.contractEdge_spec inv.gc there
    split
    case h_1 gc outcome => exact .accepted there (outcome ▸ contracted)
    case h_2 gc outcome => exact .refused (outcome ▸ contracted)

/-- What the body of the loop comes to: an edge is left alone for one of three
reasons, or contracted. -/
inductive Attempt (graph : Graph) (edge : Edge) (state : State) :
    State × Bool → Prop
  | notAnOp (either : (graph.node edge.src).isOp = false ∨
    (graph.node edge.dst).isOp = false) :
      Attempt graph edge state (state, false)
  | unsupported (either :
      nodeIsMarkedForClustering (graph.node edge.src) = false ∨
      nodeIsMarkedForClustering (graph.node edge.dst) = false) :
      Attempt graph edge state (state, false)
  | deadness (check : canContractEdgeDeadnessCheck graph state edge =
      .ok false) :
      Attempt graph edge state (state, false)
  | contract (ops : (graph.node edge.src).isOp = true ∧
      (graph.node edge.dst).isOp = true)
      (marked : nodeIsMarkedForClustering (graph.node edge.src) = true ∧
        nodeIsMarkedForClustering (graph.node edge.dst) = true)
      (check : canContractEdgeDeadnessCheck graph state edge = .ok true) :
      Attempt graph edge state (contractEdge edge state)

theorem tryContract_attempt {tried : State × Bool}
    (success : tryContract graph edge state = .ok tried) :
    Attempt graph edge state tried := by
  unfold tryContract at success
  dsimp only at success
  split at success
  case isTrue ops =>
    cases Except.ok.inj success
    exact .notAnOp (by simpa using ops)
  case isFalse ops =>
    split at success
    case isTrue marked =>
      cases Except.ok.inj success
      exact .unsupported (by simpa using marked)
    case isFalse marked =>
      simp only [Bool.or_eq_true, Bool.not_eq_true', not_or,
        Bool.not_eq_false] at ops marked
      obtain ⟨is_deadness_ok, check, success⟩ := bind_ok success
      cases is_deadness_ok with
      | false =>
          cases Except.ok.inj success
          exact .deadness check
      | true =>
          cases Except.ok.inj success
          exact .contract ops marked check

/-- What one try leaves: the clusters as they were, or two of them merged. -/
inductive Tried (graph : Graph) (linked : Nat → Nat → Prop)
    (shadowed : Edge → Prop) (edge : Edge) (state : State) : State → Bool → Prop
  | kept {gc : Rep} (grown : Grown state.gc gc) :
      Tried graph linked shadowed edge state { state with gc := gc } false
  | merged {gc : Rep} {merged : State}
      (contraction : Contraction graph linked shadowed edge state gc merged) :
      Tried graph linked shadowed edge state { merged with gc := gc } true

theorem contraction_of_accepted {gc : Rep} (wf : graph.WF)
    (member : edge ∈ graph.edges) (inv : Inv graph linked shadowed state)
    (marked : nodeIsMarkedForClustering (graph.node edge.src) = true ∧
      nodeIsMarkedForClustering (graph.node edge.dst) = true)
    (there : state.gc.Edge (state.index edge.src) (state.index edge.dst))
    (contracted : Rep.Contracted state.gc (state.index edge.src)
      (state.index edge.dst) (gc, true)) :
    Contraction graph linked shadowed edge state gc
      (mergeClusters edge state) :=
  ⟨inv, mergeClusters_merged edge state, wf.src edge member,
    wf.dst edge member, marked.1, marked.2, there, contracted⟩

theorem tryContract_tried {changed : Bool} (wf : graph.WF)
    (member : edge ∈ graph.edges) (inv : Inv graph linked shadowed state)
    (success : tryContract graph edge state = .ok (next, changed)) :
    Tried graph linked shadowed edge state next changed := by
  have unchanged : Tried graph linked shadowed edge state state false :=
    .kept (Grown.refl inv.gc)
  generalize isTried : (next, changed) = tried at success
  cases tryContract_attempt success with
  | notAnOp =>
      cases isTried
      exact unchanged
  | unsupported =>
      cases isTried
      exact unchanged
  | deadness =>
      cases isTried
      exact unchanged
  | contract _ marked _ =>
      have outcome := contractEdge_outcome edge inv
      rw [← isTried] at outcome
      cases outcome with
      | absent => exact unchanged
      | accepted there contracted =>
          exact .merged (contraction_of_accepted wf member inv marked there
              contracted)
      | refused contracted =>
          refine .kept ⟨contracted.inv, ?_, ?_⟩
          · intro u live
            exact (contracted.live u).mpr ⟨live, by simp⟩
          · intro u v step
            exact (contracted.edge u v).mpr (by simpa using step)

theorem Tried.inv {changed : Bool}
    (tried : Tried graph linked shadowed edge state next changed)
    (inv : Inv graph linked shadowed state) :
    Inv graph linked shadowed next := by
  cases tried with
  | kept grown => exact inv.grow grown
  | merged contraction => exact contraction.preserves

theorem Tried.predicates {changed : Bool}
    (tried : Tried graph linked shadowed edge state next changed) :
    next.nodes_predicate_map = state.nodes_predicate_map := by
  cases tried with
  | kept => rfl
  | merged contraction => exact contraction.merged.nodes_predicate_map

/-- The indices that the clusters of the nodes have. -/
def indices (graph : Graph) (state : State) : Finset Nat :=
  ((graph.nodes.map Node.id).map state.index).toFinset

theorem mem_indices {index : Nat} :
    index ∈ indices graph state ↔ ∃ id, graph.HasNode id ∧
    state.index id = index := by
  simp [indices, Graph.HasNode]

/-- Every merge leaves one cluster less. -/
theorem Tried.indices_card {changed : Bool}
    (tried : Tried graph linked shadowed edge state next changed) :
    (indices graph next).card + changed.toNat ≤ (indices graph state).card := by
  cases tried with
  | kept => exact le_refl _
  | @merged gc merged contraction =>
      apply Finset.card_lt_card
      have subset : indices graph { merged with gc := gc } ⊆
          (indices graph state).erase (state.index edge.dst) := by
        intro index member
        obtain ⟨id, idNode, rfl⟩ := mem_indices.mp member
        change merged.index id ∈ _
        rw [contraction.index idNode, Finset.mem_erase, mem_indices]
        by_cases dropped : state.index id = state.index edge.dst
        · rw [dropped, merge_dropped]
          exact ⟨contraction.apart, edge.src, contraction.srcNode, rfl⟩
        · rw [merge_of_ne dropped]
          exact ⟨dropped, id, idNode, rfl⟩
      exact lt_of_le_of_lt subset (Finset.erase_ssubset
        (mem_indices.mpr ⟨edge.dst, contraction.dstNode, rfl⟩))

/-- A round keeps the invariant, and leaves fewer clusters if it changed
something. -/
theorem contractRound_inv {edges : List Edge} {changed : Bool} (wf : graph.WF)
    (inside : ∀ edge ∈ edges, edge ∈ graph.edges)
    (inv : Inv graph linked shadowed state)
    (success : contractRound graph edges state = .ok (next, changed)) :
    Inv graph linked shadowed next ∧
      next.nodes_predicate_map = state.nodes_predicate_map ∧
      (indices graph next).card + changed.toNat ≤
        (indices graph state).card := by
  induction edges generalizing state changed with
  | nil =>
      cases Except.ok.inj success
      exact ⟨inv, rfl, le_refl _⟩
  | cons edge edges ih =>
      obtain ⟨⟨middle, first⟩, atEdge, success⟩ := bind_ok success
      obtain ⟨⟨last, others⟩, atRest, success⟩ := bind_ok success
      cases Except.ok.inj success
      have tried := tryContract_tried wf (inside edge (by simp)) inv atEdge
      obtain ⟨nextInv, kept, fewer⟩ :=
        ih (fun edge member => inside edge (by simp [member]))
          (tried.inv inv) atRest
      refine ⟨nextInv, kept.trans tried.predicates, ?_⟩
      have before := tried.indices_card
      have both : (first || others).toNat ≤ first.toNat + others.toNat := by
        cases first <;> cases others <;> decide
      dsimp only at fewer ⊢
      omega

theorem contract_inv {fuel : Nat} (wf : graph.WF) (order : graph.Enumeration)
    (inv : Inv graph linked shadowed state)
    (success : contract order fuel state = .ok next) :
    Inv graph linked shadowed next ∧
      next.nodes_predicate_map = state.nodes_predicate_map := by
  induction fuel generalizing state with
  | zero => simp [contract] at success
  | succ fuel ih =>
      obtain ⟨⟨middle, changed⟩, atRound, success⟩ := bind_ok success
      obtain ⟨middleInv, kept, _⟩ := contractRound_inv wf
        (fun edge => (order.mem_edges edge).mp) inv atRound
      cases changed with
      | false =>
          obtain rfl := Except.ok.inj success
          exact ⟨middleInv, kept⟩
      | true =>
          obtain ⟨nextInv, rest⟩ := ih middleInv success
          exact ⟨nextInv, rest.trans kept⟩

/-- With more fuel than clusters the contraction loop always ends. -/
theorem contract_fuel {fuel : Nat} (wf : graph.WF) (order : graph.Enumeration)
    (inv : Inv graph linked shadowed state)
    (enough : (indices graph state).card < fuel) (extra : Nat) :
    contract order (fuel + extra) state = contract order fuel state := by
  induction fuel generalizing state with
  | zero => exact absurd enough (Nat.not_lt_zero _)
  | succ fuel ih =>
      rw [Nat.succ_add, contract, contract]
      cases atRound : contractRound graph order.edges state with
      | error error => rfl
      | ok round =>
          obtain ⟨middle, changed⟩ := round
          obtain ⟨middleInv, _, fewer⟩ := contractRound_inv wf
            (fun edge => (order.mem_edges edge).mp) inv atRound
          cases changed with
          | false => rfl
          | true =>
              rw [Bool.toNat_true] at fewer
              have left : (indices graph middle).card < fuel := by omega
              exact ih middleInv left

theorem indices_card_le (graph : Graph) (state : State) :
    (indices graph state).card ≤ graph.nodes.length := by
  have bound := List.toFinset_card_le
    ((graph.nodes.map Node.id).map state.index)
  simpa [indices] using bound

end Contract

/-- Everything that holds of the clusters that are found. -/
structure Found {graph : Graph} (hasher : Hasher) (order : graph.Enumeration)
    (predicate_map : PredicateMap) (state : State) : Prop where
  populated : populate hasher order = .ok predicate_map
  inv : Inv graph (OpEdge graph) (StaticEdge graph) state
  ranked : ∃ rank : Nat → Nat, ∀ {u v}, OpEdge graph u v → rank u < rank v
  recorded : Recorded order predicate_map state.nodes_predicate_map
  fed : ∀ node ∈ graph.op_nodes, getStaticInputs node ≠ [] → Fed graph node

theorem clusters_found {graph : Graph} {hasher : Hasher}
    {order : graph.Enumeration} {state : State} (wf : graph.WF)
    (success : clusters hasher order = .ok state) :
    ∃ predicate_map, Found hasher order predicate_map state := by
  obtain ⟨predicate_map, populated, success⟩ := bind_ok success
  obtain ⟨first, added, success⟩ := bind_ok success
  obtain ⟨second, inserted, success⟩ := bind_ok success
  obtain ⟨third, shadows, success⟩ := bind_ok success
  obtain ⟨firstInv, recorded⟩ := addNodes_inv wf added
  obtain ⟨secondInv, ranked, secondKept⟩ :=
    insertEdges_inv wf order firstInv inserted
  obtain ⟨thirdInv, thirdKept⟩ := addShadows_static wf order secondInv shadows
  obtain ⟨inv, kept⟩ := contract_inv wf order thirdInv success
  refine ⟨predicate_map, populated, inv, ranked, ?_,
    addShadows_fed order shadows⟩
  rw [kept, thirdKept, secondKept]
  exact recorded

end NGraphBridge.AssignClusters
