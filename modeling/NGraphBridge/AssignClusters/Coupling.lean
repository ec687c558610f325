import NGraphBridge.AssignClusters.Contractions
import NGraphBridge.AssignClusters.Errors

/-!
# The clusters and their graph of indices agree exactly

`Inv` says that the graph of indices has the edges that the clusters need.
Here it has no others: a live index belongs to a cluster or to a shadow node,
and an edge joins two clusters for an op edge, or a shadow node to the
clusters of the ends of its static edge.
-/

namespace NGraphBridge.AssignClusters

open TF Deadness GraphCycles MarkForClustering Relation NGraphBridge.Digraph

/-- An edge between a shadow node and the cluster of an end of its edge. -/
def Shade (index : Nat → Nat) (shadows : List (Nat × Edge))
    (u v : Nat) : Prop :=
  ∃ entry ∈ shadows, (u = index entry.2.src ∧ v = entry.1) ∨
    (u = entry.1 ∧ v = index entry.2.dst)

/-- `shadows` lists the shadow nodes, each with its static edge. -/
structure Coupled (graph : Graph) (linked : Nat → Nat → Prop)
    (shadows : List (Nat × Edge)) (state : State) : Prop where
  live : ∀ {u}, state.gc.Live u →
    (∃ id, graph.HasNode id ∧ state.index id = u) ∨
    ∃ entry ∈ shadows, entry.1 = u
  shadowLive : ∀ entry ∈ shadows, state.gc.Live entry.1
  edge : ∀ u v, state.gc.Edge u v ↔
    quotient linked state.index u v ∨ Shade state.index shadows u v
  fresh : ∀ entry ∈ shadows, ∀ id, graph.HasNode id → state.index id ≠ entry.1
  ends : ∀ entry ∈ shadows, graph.HasNode entry.2.src ∧
    graph.HasNode entry.2.dst
  keys : (shadows.map Prod.fst).Nodup

variable {graph : Graph} {linked : Nat → Nat → Prop} {shadowed : Edge → Prop}
  {shadows : List (Nat × Edge)} {state next : State}

section Start

variable {order : graph.Enumeration} {predicate_map : PredicateMap}

/-- Only the nodes handled so far have an index. -/
structure Numbered (done : List Node) (state : State) : Prop where
  gc : state.gc.Inv
  live : ∀ {u}, state.gc.Live u → ∃ node ∈ done, (state.heap node.id).index = u

theorem Numbered.addNode {done : List Node} {node : Node}
    (numbered : Numbered done state) (new : ∀ old ∈ done, old.id ≠ node.id)
    (success : addNode order predicate_map state node = .ok next) :
    Numbered (node :: done) next := by
  have gcInv := Rep.newNode_inv numbered.gc
  have live := Rep.newNode_live numbered.gc
  unfold AssignClusters.addNode at success
  generalize state.gc.newNode = created at success gcInv live
  obtain ⟨pred_string, _, success⟩ := bind_ok success
  obtain rfl := Except.ok.inj success
  refine ⟨gcInv, ?_⟩
  intro u uLive
  cases (live u).mp uLive with
  | inl old =>
      obtain ⟨other, member, atOther⟩ := numbered.live old
      refine ⟨other, List.mem_cons_of_mem _ member, ?_⟩
      dsimp only
      rw [Function.update_of_ne (new other member)]
      exact atOther
  | inr isNew =>
      refine ⟨node, List.mem_cons_self, ?_⟩
      dsimp only
      rw [Function.update_self, isNew]

theorem addNodes_coupled (wf : graph.WF)
    (success : addNodes order predicate_map graph.nodes State.init =
      .ok state) :
    Coupled graph (fun _ _ => False) [] state := by
  have empty : Numbered [] State.init :=
    ⟨Rep.inv_empty, by simp [State.init, Rep.empty, Rep.Live]⟩
  obtain ⟨all, members, numbered⟩ :=
    addNodes_preserves Numbered.addNode empty (by simpa using wf.ids) success
  have alone := addNodes_apart wf success
  constructor
  case live =>
    intro u uLive
    obtain ⟨node, member, atNode⟩ := numbered.live uLive
    have inGraph : node ∈ graph.nodes := by simpa using (members node).mp member
    refine .inl ⟨node.id, ⟨node, inGraph, rfl⟩, ?_⟩
    rw [State.index, State.cluster, alone.cluster_map, atNode]
  case edge =>
    intro u v
    constructor
    · exact fun edge => absurd edge (alone.unlinked u v)
    · intro edge
      simp [quotient, Shade] at edge
  case shadowLive => simp
  case fresh => simp
  case ends => simp
  case keys => simp

/-- One more edge links two clusters once the graph of indices has it. -/
theorem Coupled.insertEdge {gc : Rep} {source target : Nat}
    (coupled : Coupled graph linked [] state)
    (inserted : Rep.Inserted state.gc (state.index source) (state.index target)
      (gc, true)) :
    Coupled graph (insert linked source target) [] { state with gc := gc } := by
  have apart : state.index source ≠ state.index target := by
    intro same
    apply inserted.accepted.mp rfl
    rw [same]
  constructor
  case live => exact fun uLive => coupled.live ((inserted.live _).mp uLive)
  case edge =>
    intro u v
    rw [inserted.edge, coupled.edge]
    simp only [Shade, List.not_mem_nil, false_and, exists_false,
      or_false, true_and]
    constructor
    · intro either
      cases either with
      | inl old =>
          obtain ⟨different, x, y, step, ends⟩ := old
          exact ⟨different, x, y, .inl step, ends⟩
      | inr new =>
          rw [new.1, new.2]
          exact ⟨apart, source, target, .inr ⟨rfl, rfl⟩, rfl, rfl⟩
    · rintro ⟨different, x, y, step, rfl, rfl⟩
      cases step with
      | inl old => exact .inl ⟨different, x, y, old, rfl, rfl⟩
      | inr new =>
          rw [new.1, new.2]
          exact .inr ⟨rfl, rfl⟩
  case shadowLive => simp
  case fresh => simp
  case ends => simp
  case keys => simp

theorem insertEdges_coupled {edges : List Edge} (inv : state.gc.Inv)
    (live : ∀ edge ∈ edges, state.gc.Live (state.index edge.src) ∧
      state.gc.Live (state.index edge.dst))
    (coupled : Coupled graph linked [] state)
    (success : insertEdges graph edges state = .ok next) :
    Coupled graph (fun u v => linked u v ∨ Checked graph edges u v)
    [] next := by
  induction edges generalizing linked state with
  | nil =>
      obtain rfl := Except.ok.inj success
      simpa [Checked] using coupled
  | cons edge edges ih =>
      cases insertEdges_cons_ok success with
      | inl left =>
          obtain ⟨skips, success⟩ := left
          have rest := ih inv (fun edge member => live edge (by simp [member]))
            coupled success
          have same : Checked graph (edge :: edges) = Checked graph edges := by
            ext u v
            simp [Checked, skips]
          rwa [same]
      | inr taken =>
          obtain ⟨checked, middle, accepted, success⟩ := taken
          obtain ⟨srcLive, dstLive⟩ := live edge (by simp)
          have inserted := Rep.insertEdge_spec inv srcLive dstLive
          rw [accepted] at inserted
          have grown := Grown.inserted inserted
          have rest := @ih _ { state with gc := middle } inserted.inv
            (fun edge member =>
              (live edge (by simp [member])).imp grown.live grown.live)
            (coupled.insertEdge inserted) success
          have same : (fun u v => insert linked edge.src edge.dst u v ∨
                Checked graph edges u v) =
              fun u v => linked u v ∨ Checked graph (edge :: edges) u v := by
            ext u v
            simp only [Digraph.insert, Checked, List.exists_mem_cons_iff,
              checked, true_and, or_assoc, eq_comm]
          rwa [← same]

end Start

section Shadows

/-- A new shadow node has the two edges it comes with, and no others. -/
theorem addShadow_coupled {static_edge : Edge}
    (inv : Inv graph linked shadowed state)
    (coupled : Coupled graph linked shadows state)
    (srcNode : graph.HasNode static_edge.src)
    (dstNode : graph.HasNode static_edge.dst)
    (success : addShadow state static_edge = .ok next) :
    Coupled graph linked ((state.gc.newNode.2, static_edge) :: shadows)
      next := by
  obtain ⟨gc, rfl, shaded⟩ := addShadow_shaded inv srcNode dstNode success
  constructor
  case live =>
    intro u uLive
    cases (shaded.live u).mp uLive with
    | inl old =>
        exact (coupled.live old).imp_right fun ⟨entry, member, atEntry⟩ =>
        ⟨entry, List.mem_cons_of_mem _ member, atEntry⟩
    | inr new => exact .inr ⟨_, List.mem_cons_self, new.symm⟩
  case shadowLive =>
    intro entry member
    apply (shaded.live _).mpr
    cases List.mem_cons.mp member with
    | inl new => exact .inr (congrArg Prod.fst new)
    | inr old => exact .inl (coupled.shadowLive entry old)
  case edge =>
    intro u v
    change _ ↔ quotient linked state.index u v ∨
      Shade state.index ((state.gc.newNode.2, static_edge) :: shadows) u v
    rw [shaded.edge, coupled.edge]
    simp only [Shade, List.exists_mem_cons_iff]
    grind
  case fresh =>
    intro entry member id idNode same
    have same : state.index id = entry.1 := same
    cases List.mem_cons.mp member with
    | inl new =>
        exact inv.newNode_fresh idNode (same.trans (congrArg Prod.fst new))
    | inr old => exact coupled.fresh entry old id idNode same
  case ends =>
    intro entry member
    cases List.mem_cons.mp member with
    | inl new => exact new ▸ ⟨srcNode, dstNode⟩
    | inr old => exact coupled.ends entry old
  case keys =>
    rw [List.map_cons, List.nodup_cons]
    refine ⟨?_, coupled.keys⟩
    intro member
    obtain ⟨entry, old, atEntry⟩ := List.mem_map.mp member
    have live := coupled.shadowLive entry old
    rw [atEntry] at live
    exact Rep.newNode_fresh state.gc live

/-- The graph of indices has shadow nodes for static edges, and nothing else
besides the clusters. -/
def Shadowing (graph : Graph) (linked : Nat → Nat → Prop)
    (state : State) : Prop :=
  ∃ shadows, (∀ entry ∈ shadows, StaticEdge graph entry.2) ∧
    Coupled graph linked shadows state

/-- The shadow nodes of the static inputs of one node, each with its static
edge. -/
def edgeShadows (graph : Graph) (edges_to_node : List Edge) : List Int → State →
    List (Nat × Edge)
  | [], _ => []
  | static_inp_idx :: static_inputs, state =>
      match staticEdge edges_to_node static_inp_idx with
      | .error _ => []
      | .ok static_edge =>
          match shadowEdge graph state static_edge with
          | .error _ => []
          | .ok next =>
              edgeShadows graph edges_to_node static_inputs next ++
                if (graph.node static_edge.src).type_string != "Const" then
                  [(state.gc.newNode.2, static_edge)]
                else []

def nodeShadows (order : graph.Enumeration) (state : State) (node : Node) :
    List (Nat × Edge) :=
  match node.input_edges (order.in_edges node.id) with
  | .error _ => []
  | .ok edges_to_node =>
      edgeShadows graph edges_to_node (getStaticInputs node) state

def listShadows (order : graph.Enumeration) : List Node → State →
    List (Nat × Edge)
  | [], _ => []
  | node :: nodes, state =>
      match shadowNode order state node with
      | .error _ => []
      | .ok next => listShadows order nodes next ++ nodeShadows order state node

theorem edgeShadows_coupled {edges_to_node : List Edge}
    {static_inputs : List Int} (wf : graph.WF)
    (inv : Inv graph linked shadowed state)
    (coupled : Coupled graph linked shadows state)
    (inside : ∀ edge ∈ edges_to_node, edge ∈ graph.edges)
    (success : shadowEdges graph edges_to_node static_inputs state = .ok next) :
    Coupled graph linked
      (edgeShadows graph edges_to_node static_inputs state ++ shadows)
      next := by
  induction static_inputs generalizing shadowed shadows state with
  | nil =>
      obtain rfl := Except.ok.inj success
      exact coupled
  | cons idx static_inputs ih =>
      obtain ⟨static_edge, found, success⟩ := bind_ok success
      obtain ⟨middle, first, success⟩ := bind_ok success
      obtain ⟨_, _, atPosition⟩ := staticEdge_ok found
      have inGraph := inside static_edge (List.mem_of_getElem? atPosition)
      have srcNode := wf.src static_edge inGraph
      have dstNode := wf.dst static_edge inGraph
      obtain ⟨middleInv, _⟩ := shadowEdge_inv inv srcNode dstNode first
      rw [edgeShadows, found]
      dsimp only
      rw [first]
      dsimp only
      rw [List.append_assoc]
      apply ih middleInv _ success
      unfold shadowEdge at first
      split at first
      case isFalse const =>
        obtain rfl := Except.ok.inj first
        rw [if_neg const]
        exact coupled
      case isTrue notConst =>
        rw [if_pos notConst]
        exact addShadow_coupled inv coupled srcNode dstNode first

theorem edgeShadows_static {edges_to_node : List Edge}
    {static_inputs : List Int}
    (static : ∀ idx ∈ static_inputs, ∀ edge, staticEdge edges_to_node idx =
      .ok edge →
      (graph.node edge.src).type_string ≠ "Const" → StaticEdge graph edge) :
    ∀ entry ∈ edgeShadows graph edges_to_node static_inputs state,
      StaticEdge graph entry.2 := by
  induction static_inputs generalizing state with
  | nil => simp [edgeShadows]
  | cons idx static_inputs ih =>
      intro entry member
      unfold edgeShadows at member
      split at member
      case h_1 => simp at member
      case h_2 static_edge found =>
        split at member
        case h_1 => simp at member
        case h_2 =>
          cases List.mem_append.mp member with
          | inl later =>
              exact ih (fun idx member => static idx (by simp [member]))
                entry later
          | inr here =>
              split at here
              case isFalse => simp at here
              case isTrue notConst =>
                rw [List.mem_singleton.mp here]
                exact static idx (by simp) static_edge found
                  (bne_iff_ne.mp notConst)

theorem nodeShadows_coupled {node : Node} (wf : graph.WF)
    (order : graph.Enumeration) (inv : Inv graph linked shadowed state)
    (coupled : Coupled graph linked shadows state)
    (success : shadowNode order state node = .ok next) :
    Coupled graph linked (nodeShadows order state node ++ shadows) next := by
  unfold shadowNode at success
  split at success
  case isFalse noStatic =>
    obtain rfl := Except.ok.inj success
    have empty : getStaticInputs node = [] :=
      List.length_eq_zero_iff.mp (by omega)
    have none : nodeShadows order state node = [] := by
      unfold nodeShadows
      split
      case h_1 => rfl
      case h_2 => rw [empty, edgeShadows]
    rw [none]
    exact coupled
  case isTrue =>
    obtain ⟨edges_to_node, found, success⟩ := bind_ok success
    obtain ⟨_, only⟩ := Node.input_edges_ok found
    have inEdges : ∀ edge ∈ edges_to_node, edge ∈ graph.edges := by
      intro edge listed
      obtain ⟨position, atPosition⟩ := List.mem_iff_getElem?.mp listed
      exact ((order.mem_in_edges _ _).mp (only position edge atPosition).1).1
    rw [nodeShadows, found]
    exact edgeShadows_coupled wf inv coupled inEdges success

theorem nodeShadows_static {node : Node} (wf : graph.WF)
    (order : graph.Enumeration) (isOpNode : node ∈ graph.op_nodes) :
    ∀ entry ∈ nodeShadows order state node, StaticEdge graph entry.2 := by
  obtain ⟨member, isOp⟩ := List.mem_filter.mp isOpNode
  unfold nodeShadows
  split
  case h_1 => simp
  case h_2 edges_to_node found =>
    obtain ⟨_, only⟩ := Node.input_edges_ok found
    apply edgeShadows_static
    intro idx listed edge atIdx notConst
    obtain ⟨position, isPosition, atPosition⟩ := staticEdge_ok atIdx
    obtain ⟨inNode, data, atInput⟩ := only position edge atPosition
    obtain ⟨inGraph, atNode⟩ := (order.mem_in_edges _ _).mp inNode
    have isNode : graph.node edge.dst = node := by
      rw [atNode, wf.node_eq member]
    refine ⟨inGraph, data, isNode ▸ isOp, ?_, notConst⟩
    rwa [isNode, atInput, ← isPosition]

theorem listShadows_coupled {nodes : List Node} (wf : graph.WF)
    (order : graph.Enumeration) (inside : ∀ node ∈ nodes, node ∈ graph.op_nodes)
    (inv : Inv graph linked shadowed state)
    (coupled : Coupled graph linked shadows state)
    (success : addShadows order nodes state = .ok next) :
    Coupled graph linked (listShadows order nodes state ++ shadows) next := by
  induction nodes generalizing shadowed shadows state with
  | nil =>
      obtain rfl := Except.ok.inj success
      exact coupled
  | cons node nodes ih =>
      obtain ⟨middle, first, success⟩ := bind_ok success
      obtain ⟨member, _⟩ := List.mem_filter.mp (inside node (by simp))
      obtain ⟨middleInv, _⟩ := shadowNode_inv wf order member inv first
      rw [listShadows, first]
      dsimp only
      rw [List.append_assoc]
      exact ih (fun node member => inside node (by simp [member])) middleInv
        (nodeShadows_coupled wf order inv coupled first) success

theorem listShadows_static {nodes : List Node} (wf : graph.WF)
    (order : graph.Enumeration)
    (inside : ∀ node ∈ nodes, node ∈ graph.op_nodes) :
    ∀ entry ∈ listShadows order nodes state, StaticEdge graph entry.2 := by
  induction nodes generalizing state with
  | nil => simp [listShadows]
  | cons node nodes ih =>
      intro entry member
      unfold listShadows at member
      split at member
      case h_1 => simp at member
      case h_2 =>
        cases List.mem_append.mp member with
        | inl later =>
            exact ih (fun node member => inside node (by simp [member]))
              entry later
        | inr here =>
            exact nodeShadows_static wf order (inside node (by simp)) entry here

/-- The shadow nodes that the pass makes. -/
def shadowNodes (order : graph.Enumeration) (hasher : Hasher) :
    List (Nat × Edge) :=
  match do
    let predicate_map ← populate hasher order
    let state ← addNodes order predicate_map graph.nodes State.init
    insertEdges graph order.edges state with
  | .error _ => []
  | .ok state => listShadows order graph.op_nodes state

/-- The contraction loop starts from clusters and indices that agree. -/
theorem shadowNodes_coupled {order : graph.Enumeration} {hasher : Hasher}
    (wf : graph.WF) (success : prepared order hasher = .ok state) :
    (∀ entry ∈ shadowNodes order hasher, StaticEdge graph entry.2) ∧
      Coupled graph (OpEdge graph) (shadowNodes order hasher) state := by
  obtain ⟨predicate_map, populated, success⟩ := bind_ok success
  obtain ⟨first, added, success⟩ := bind_ok success
  obtain ⟨second, inserted, shadows⟩ := bind_ok success
  obtain ⟨firstInv, _⟩ := addNodes_inv wf added
  obtain ⟨secondInv, _, _⟩ := insertEdges_inv wf order firstInv inserted
  have linked := insertEdges_coupled firstInv.gc (firstInv.edges_live wf order)
    (addNodes_coupled wf added) inserted
  simp only [false_or] at linked
  have same : (fun u v => Checked graph order.edges u v) = OpEdge graph :=
    checked_order order
  rw [same] at linked
  have listed : shadowNodes order hasher =
      listShadows order graph.op_nodes second := by
    simp only [shadowNodes, populated, added, inserted, bind, Except.bind]
  rw [listed]
  refine ⟨listShadows_static wf order (fun _ member => member), ?_⟩
  have coupled :=
    listShadows_coupled wf order (fun _ member => member) secondInv
      linked shadows
  rwa [List.append_nil] at coupled

theorem prepared_coupled {order : graph.Enumeration} {hasher : Hasher}
    (wf : graph.WF) (success : prepared order hasher = .ok state) :
    Shadowing graph (OpEdge graph) state :=
  ⟨_, shadowNodes_coupled wf success⟩

end Shadows

/-- A graph of indices with the nodes and the edges of another. -/
structure Settled (before after : Rep) : Prop where
  inv : after.Inv
  live : ∀ u, after.Live u ↔ before.Live u
  edge : ∀ u v, after.Edge u v ↔ before.Edge u v

theorem Settled.of_refused {before after : Rep} {u v : Nat}
    (contracted : Rep.Contracted before u v (after, false)) :
    Settled before after := by
  refine ⟨contracted.inv, ?_, ?_⟩
  · intro w
    simpa using contracted.live w
  · intro w x
    simpa using contracted.edge w x

theorem Settled.refl {gc : Rep} (inv : gc.Inv) : Settled gc gc :=
  ⟨inv, fun _ => .rfl, fun _ _ => .rfl⟩

theorem Settled.trans {first second third : Rep} (left : Settled first second)
    (right : Settled second third) : Settled first third :=
  ⟨right.inv, fun u => (right.live u).trans (left.live u),
    fun u v => (right.edge u v).trans (left.edge u v)⟩

theorem Settled.grown {before after : Rep} (settled : Settled before after) :
    Grown before after :=
  ⟨settled.inv, fun live => (settled.live _).mpr live,
    fun edge => (settled.edge _ _).mpr edge⟩

theorem Settled.sameEdges {before after : Rep}
    (settled : Settled before after) :
    after.Edge = before.Edge := by
  ext u v
  exact settled.edge u v

theorem Coupled.settle {gc : Rep} (coupled : Coupled graph linked shadows state)
    (settled : Settled state.gc gc) :
    Coupled graph linked shadows { state with gc := gc } where
  live := fun uLive => coupled.live ((settled.live _).mp uLive)
  shadowLive := fun entry member =>
    (settled.live _).mpr (coupled.shadowLive entry member)
  edge := fun u v => (settled.edge u v).trans (coupled.edge u v)
  fresh := coupled.fresh
  ends := coupled.ends
  keys := coupled.keys

section Contract

variable {edge : Edge} {gc : Rep} {merged : State}

theorem Contraction.shadow_kept
    (contraction : Contraction graph linked shadowed edge state gc merged)
    (coupled : Coupled graph linked shadows state) :
    ∀ entry ∈ shadows,
      merge (state.index edge.src) (state.index edge.dst) entry.1 = entry.1 :=
  fun entry member =>
    merge_of_ne (Ne.symm (coupled.fresh entry member _ contraction.dstNode))

theorem Contraction.shadow_fresh
    (contraction : Contraction graph linked shadowed edge state gc merged)
    (coupled : Coupled graph linked shadows state) :
    ∀ entry ∈ shadows, ∀ id, graph.HasNode id → merged.index id ≠ entry.1 := by
  intro entry member id idNode
  rw [contraction.index idNode]
  by_cases dropped : state.index id = state.index edge.dst
  · rw [dropped, merge_dropped]
    exact coupled.fresh entry member _ contraction.srcNode
  · rw [merge_of_ne dropped]
    exact coupled.fresh entry member id idNode

/-- Every edge after a merge is one that the clusters or the shadows need. -/
theorem Contraction.needed
    (contraction : Contraction graph linked shadowed edge state gc merged)
    (coupled : Coupled graph linked shadows state) {u v : Nat}
    (there : gc.Edge u v) :
    quotient linked merged.index u v ∨ Shade merged.index shadows u v := by
  have kept := contraction.shadow_kept coupled
  have different : u ≠ v := by
    intro loop
    rw [loop] at there
    exact contraction.contracted.inv.acyclic.irrefl _ there
  obtain ⟨source, target, old, rfl, rfl⟩ := (contraction.gcEdge u v).mp there
  cases (coupled.edge source target).mp old.1 with
  | inl link =>
      obtain ⟨_, x, y, step, rfl, rfl⟩ := link
      obtain ⟨xNode, yNode⟩ := contraction.inv.inside step
      exact .inl ⟨different, x, y, step, contraction.index xNode,
        contraction.index yNode⟩
  | inr shade =>
      obtain ⟨entry, member, shade⟩ := shade
      obtain ⟨srcNode, dstNode⟩ := coupled.ends entry member
      refine .inr ⟨entry, member, ?_⟩
      cases shade with
      | inl out => exact .inl ⟨by rw [out.1, contraction.index srcNode],
          by rw [out.2, kept entry member]⟩
      | inr back => exact .inr ⟨by rw [back.1, kept entry member],
          by rw [back.2, contraction.index dstNode]⟩

theorem Contraction.linkEdge
    (contraction : Contraction graph linked shadowed edge state gc merged)
    {u v : Nat} (link : quotient linked merged.index u v) : gc.Edge u v := by
  obtain ⟨different, x, y, step, rfl, rfl⟩ := link
  obtain ⟨xNode, yNode⟩ := contraction.inv.inside step
  rw [contraction.index xNode, contraction.index yNode] at different ⊢
  apply contraction.gcEdge_merge (contraction.inv.edges step _) different
  intro same
  rw [same] at different
  exact different rfl

/-- So are the edges of the shadow nodes. -/
theorem Contraction.shadeEdge
    (contraction : Contraction graph linked shadowed edge state gc merged)
    (coupled : Coupled graph linked shadows state) {u v : Nat}
    (shade : Shade merged.index shadows u v) : gc.Edge u v := by
  have kept := contraction.shadow_kept coupled
  have fresh := contraction.shadow_fresh coupled
  obtain ⟨entry, member, shade⟩ := shade
  obtain ⟨srcNode, dstNode⟩ := coupled.ends entry member
  cases shade with
  | inl out =>
      have moved := contraction.gcEdge_merge
        ((coupled.edge _ _).mpr (.inr ⟨entry, member, .inl ⟨rfl, rfl⟩⟩))
      rw [kept entry member, ← contraction.index srcNode] at moved
      rw [out.1, out.2]
      exact moved (fresh entry member _ srcNode)
  | inr back =>
      have moved := contraction.gcEdge_merge
        ((coupled.edge _ _).mpr (.inr ⟨entry, member, .inr ⟨rfl, rfl⟩⟩))
      rw [kept entry member, ← contraction.index dstNode] at moved
      rw [back.1, back.2]
      exact moved (Ne.symm (fresh entry member _ dstNode))

/-- A merge renames the indices of the clusters, and the edges with them. -/
theorem Contraction.coupled
    (contraction : Contraction graph linked shadowed edge state gc merged)
    (coupled : Coupled graph linked shadows state) :
    Coupled graph linked shadows { merged with gc := gc } := by
  have live : ∀ u, gc.Live u ↔ state.gc.Live u ∧ u ≠ state.index edge.dst := by
    simpa using contraction.contracted.live
  constructor
  case live =>
    intro u uLive
    obtain ⟨old, kept⟩ := (live u).mp uLive
    cases coupled.live old with
    | inr shadow => exact .inr shadow
    | inl cluster =>
        obtain ⟨id, idNode, rfl⟩ := cluster
        refine .inl ⟨id, idNode, ?_⟩
        change merged.index id = _
        rw [contraction.index idNode, merge_of_ne kept]
  case shadowLive =>
    intro entry member
    exact (live _).mpr ⟨coupled.shadowLive entry member,
      Ne.symm (coupled.fresh entry member _ contraction.dstNode)⟩
  case edge =>
    intro u v
    change gc.Edge u v ↔ quotient linked merged.index u v ∨
      Shade merged.index shadows u v
    constructor
    · exact contraction.needed coupled
    · intro either
      cases either with
      | inl link => exact contraction.linkEdge link
      | inr shade => exact contraction.shadeEdge coupled shade
  case fresh => exact contraction.shadow_fresh coupled
  case ends => exact coupled.ends
  case keys => exact coupled.keys

/-- Why an edge is not contracted. -/
inductive Refused (graph : Graph) (edge : Edge) (state : State) : Prop
  | notAnOp (either : (graph.node edge.src).isOp = false ∨
    (graph.node edge.dst).isOp = false)
  | unsupported (either :
      nodeIsMarkedForClustering (graph.node edge.src) = false ∨
      nodeIsMarkedForClustering (graph.node edge.dst) = false)
  | deadness (check : canContractEdgeDeadnessCheck graph state edge = .ok false)
  | path (check : canContractEdgeDeadnessCheck graph state edge = .ok true)
      (cycle : state.gc.Edge (state.index edge.src) (state.index edge.dst) →
        ReflTransGen (remove state.gc.Edge (state.index edge.src)
          (state.index edge.dst)) (state.index edge.src) (state.index edge.dst))

theorem Refused.settle (refused : Refused graph edge state)
    (settled : Settled state.gc gc) :
    Refused graph edge { state with gc := gc } := by
  cases refused with
  | notAnOp either => exact .notAnOp either
  | unsupported either => exact .unsupported either
  | deadness check => exact .deadness check
  | path check cycle =>
      refine .path check ?_
      change gc.Edge (state.index edge.src) (state.index edge.dst) →
        ReflTransGen (remove gc.Edge (state.index edge.src)
          (state.index edge.dst)) (state.index edge.src) (state.index edge.dst)
      rwa [settled.sameEdges]

/-- What one try comes to: nothing, for a reason, or a merge. -/
inductive Decided (graph : Graph) (linked : Nat → Nat → Prop)
    (shadowed : Edge → Prop) (edge : Edge) (state : State) : State → Bool → Prop
  | kept {gc : Rep} (settled : Settled state.gc gc)
  (refused : Refused graph edge state) :
      Decided graph linked shadowed edge state { state with gc := gc } false
  | merged {gc : Rep}
    (check : canContractEdgeDeadnessCheck graph state edge = .ok true)
      (contraction :
        Contraction graph linked shadowed edge state gc
          (mergeClusters edge state)) :
      Decided graph linked shadowed edge state
        { mergeClusters edge state with gc := gc } true

theorem tryContract_decided {changed : Bool} (wf : graph.WF)
    (member : edge ∈ graph.edges) (inv : Inv graph linked shadowed state)
    (success : tryContract graph edge state = .ok (next, changed)) :
    Decided graph linked shadowed edge state next changed := by
  have unchanged : Refused graph edge state →
      Decided graph linked shadowed edge state state false :=
    fun refused => .kept (Settled.refl inv.gc) refused
  generalize isTried : (next, changed) = tried at success
  cases tryContract_attempt success with
  | notAnOp either =>
      cases isTried
      exact unchanged (.notAnOp either)
  | unsupported either =>
      cases isTried
      exact unchanged (.unsupported either)
  | deadness check =>
      cases isTried
      exact unchanged (.deadness check)
  | contract _ marked check =>
      have outcome := contractEdge_outcome edge inv
      rw [← isTried] at outcome
      cases outcome with
      | absent absent =>
          exact unchanged (.path check fun there => absurd there absent)
      | accepted there contracted =>
          exact .merged check
            (contraction_of_accepted wf member inv marked there contracted)
      | refused contracted =>
          have cycle : ReflTransGen (remove state.gc.Edge (state.index edge.src)
              (state.index edge.dst)) (state.index edge.src)
              (state.index edge.dst) := by
            by_contra only
            exact absurd (contracted.accepted.mpr only) (by simp)
          exact .kept (Settled.of_refused contracted)
            (.path check fun _ => cycle)

/-- An edge that is turned down is turned down again. -/
theorem Refused.again (inv : Inv graph linked shadowed state)
    (refused : Refused graph edge state) :
    ∃ gc, Settled state.gc gc ∧
      tryContract graph edge state = .ok ({ state with gc := gc }, false) := by
  have unchanged : Settled state.gc state.gc ∧
      (.ok (state, false) : StatusOr (State × Bool)) = .ok (state, false) :=
    ⟨Settled.refl inv.gc, rfl⟩
  unfold tryContract
  dsimp only
  by_cases ops :
      (!(graph.node edge.src).isOp || !(graph.node edge.dst).isOp) = true
  · rw [if_pos ops]
    exact ⟨state.gc, unchanged⟩
  · rw [if_neg ops]
    by_cases marked : (!nodeIsMarkedForClustering (graph.node edge.src) ||
        !nodeIsMarkedForClustering (graph.node edge.dst)) = true
    · rw [if_pos marked]
      exact ⟨state.gc, unchanged⟩
    · rw [if_neg marked]
      cases refused with
      | notAnOp either => exact absurd (by simpa using either) ops
      | unsupported either => exact absurd (by simpa using either) marked
      | deadness check =>
          rw [check]
          exact ⟨state.gc, unchanged⟩
      | path check cycle =>
          rw [check]
          change ∃ gc, Settled state.gc gc ∧
            (.ok (contractEdge edge state) : StatusOr (State × Bool)) =
              .ok ({ state with gc := gc }, false)
          have outcome := contractEdge_outcome edge inv
          generalize contractEdge edge state = tried at outcome
          cases outcome with
          | absent => exact ⟨state.gc, unchanged⟩
          | accepted there contracted =>
              exact absurd (cycle there) (contracted.accepted.mp rfl)
          | @refused gc contracted =>
              exact ⟨gc, Settled.of_refused contracted, rfl⟩

theorem Decided.coupled {changed : Bool}
    (decided : Decided graph linked shadowed edge state next changed)
    (coupled : Coupled graph linked shadows state) :
    Coupled graph linked shadows next := by
  cases decided with
  | kept settled => exact coupled.settle settled
  | merged _ contraction => exact contraction.coupled coupled

end Contract

/-- Tries of edges, in any order and any number, with the states that they start
from and the state that they lead to. -/
inductive Run (graph : Graph) (start : State) : List (State × Edge) →
    State → Prop
  | start : Run graph start [] start
  | tried {steps : List (State × Edge)} {edge : Edge} {state next : State}
    {changed : Bool}
      (earlier : Run graph start steps state) (member : edge ∈ graph.edges)
      (success : tryContract graph edge state = .ok (next, changed)) :
      Run graph start (steps ++ [(state, edge)]) next

section Run

variable {start : State}

theorem Run.preserves {holds : State → Prop} {steps : List (State × Edge)}
    (wf : graph.WF) (step : ∀ {edge state next changed}, edge ∈ graph.edges →
      Decided graph linked shadowed edge state next changed → holds state →
      holds next)
    (run : Run graph start steps state) (inv : Inv graph linked shadowed start)
    (initial : holds start) : Inv graph linked shadowed state ∧
    holds state := by
  induction run with
  | start => exact ⟨inv, initial⟩
  | tried earlier member success ih =>
      obtain ⟨before, held⟩ := ih
      have tried := tryContract_tried wf member before success
      exact ⟨tried.inv before,
        step member (tryContract_decided wf member before success) held⟩

theorem contractRound_run {edges : List Edge} {steps : List (State × Edge)}
    {changed : Bool} (inside : ∀ edge ∈ edges, edge ∈ graph.edges)
    (run : Run graph start steps state)
    (success : contractRound graph edges state = .ok (next, changed)) :
    ∃ more, Run graph start (steps ++ more) next := by
  induction edges generalizing steps state changed with
  | nil =>
      cases Except.ok.inj success
      exact ⟨[], by rwa [List.append_nil]⟩
  | cons edge edges ih =>
      obtain ⟨⟨middle, first⟩, atEdge, success⟩ := bind_ok success
      obtain ⟨⟨last, others⟩, atRest, success⟩ := bind_ok success
      cases Except.ok.inj success
      have here := Run.tried run (inside edge List.mem_cons_self) atEdge
      obtain ⟨more, rest⟩ :=
        ih (fun edge member => inside edge (List.mem_cons_of_mem _ member))
          here atRest
      refine ⟨(state, edge) :: more, ?_⟩
      rwa [List.append_assoc] at rest

/-- The rounds of the pass are such tries. -/
theorem contract_run {fuel : Nat} {steps : List (State × Edge)}
    (order : graph.Enumeration) (run : Run graph start steps state)
    (success : contract order fuel state = .ok next) :
    ∃ more, Run graph start (steps ++ more) next := by
  induction fuel generalizing steps state with
  | zero => simp [contract] at success
  | succ fuel ih =>
      obtain ⟨⟨middle, changed⟩, atRound, success⟩ := bind_ok success
      have inside : ∀ edge ∈ order.edges, edge ∈ graph.edges :=
        fun edge => (order.mem_edges edge).mp
      obtain ⟨round, afterRound⟩ := contractRound_run inside run atRound
      cases changed with
      | false =>
          obtain rfl := Except.ok.inj success
          exact ⟨round, afterRound⟩
      | true =>
          obtain ⟨more, rest⟩ := ih afterRound success
          refine ⟨round ++ more, ?_⟩
          rwa [List.append_assoc] at rest

end Run

section Round

variable {edges : List Edge}

theorem contract_preserves {holds : State → Prop} {fuel : Nat} (wf : graph.WF)
    (order : graph.Enumeration)
    (step : ∀ {edge state next changed}, edge ∈ graph.edges →
      Decided graph linked shadowed edge state next changed → holds state →
      holds next)
    (inv : Inv graph linked shadowed state) (start : holds state)
    (success : contract order fuel state = .ok next) : holds next := by
  obtain ⟨steps, run⟩ := contract_run order .start success
  exact (run.preserves wf step inv start).2

/-- A round that changes nothing turns every edge down, and leaves the clusters
alone. -/
theorem contractRound_settled (wf : graph.WF)
    (inside : ∀ edge ∈ edges, edge ∈ graph.edges)
    (inv : Inv graph linked shadowed state)
    (success : contractRound graph edges state = .ok (next, false)) :
    ∃ gc, next = { state with gc := gc } ∧ Settled state.gc gc ∧
      ∀ edge ∈ edges, Refused graph edge state := by
  induction edges generalizing state with
  | nil =>
      cases Except.ok.inj success
      exact ⟨_, rfl, Settled.refl inv.gc, by simp⟩
  | cons edge edges ih =>
      obtain ⟨⟨middle, first⟩, atEdge, success⟩ := bind_ok success
      obtain ⟨⟨last, others⟩, atRest, success⟩ := bind_ok success
      obtain ⟨rfl, neither⟩ := Prod.mk.inj (Except.ok.inj success)
      simp only [Bool.or_eq_false_iff] at neither
      obtain ⟨rfl, rfl⟩ := neither
      have inGraph := inside edge (by simp)
      have middleInv := (tryContract_tried wf inGraph inv atEdge).inv inv
      obtain ⟨gc, same, settled, rest⟩ :=
        ih (fun edge member => inside edge (by simp [member])) middleInv atRest
      cases tryContract_decided wf inGraph inv atEdge with
      | @kept middleGc middleSettled refused =>
          refine ⟨gc, same, middleSettled.trans settled, ?_⟩
          intro other member
          cases List.mem_cons.mp member with
          | inl head => exact head ▸ refused
          | inr later =>
              have back : Settled middleGc state.gc :=
                ⟨inv.gc, fun u => (middleSettled.live u).symm,
                  fun u v => (middleSettled.edge u v).symm⟩
              exact (rest other later).settle back

/-- The clusters that the contraction loop ends with have no edge left that it
would contract. -/
theorem contract_settled {fuel : Nat} (wf : graph.WF)
    (order : graph.Enumeration) (inv : Inv graph linked shadowed state)
    (success : contract order fuel state = .ok next) :
    ∀ edge ∈ graph.edges, Refused graph edge next := by
  induction fuel generalizing state with
  | zero => simp [contract] at success
  | succ fuel ih =>
      have inside : ∀ edge ∈ order.edges, edge ∈ graph.edges :=
        fun edge => (order.mem_edges edge).mp
      obtain ⟨⟨middle, changed⟩, atRound, success⟩ := bind_ok success
      cases changed with
      | true => exact ih (contractRound_inv wf inside inv atRound).1 success
      | false =>
          obtain ⟨gc, same, settled, refused⟩ :=
            contractRound_settled wf inside inv atRound
          obtain rfl := Except.ok.inj success
          subst same
          intro edge member
          exact (refused edge ((order.mem_edges edge).mpr member)).settle
            settled

end Round

end NGraphBridge.AssignClusters
