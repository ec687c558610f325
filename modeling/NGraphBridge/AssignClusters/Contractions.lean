import NGraphBridge.AssignClusters.Tagging
import Mathlib.Logic.Relation

/-!
# The edges that are contracted

The clusters are the classes that the contracted edges generate.
-/

namespace NGraphBridge.AssignClusters

open TF Deadness MarkForClustering Relation

section Trace

variable {graph : Graph} (order : graph.Enumeration)

/-- The edges that one round contracts. -/
def roundContractions (graph : Graph) : List Edge → State → List Edge
  | [], _ => []
  | edge :: edges, state =>
      match tryContract graph edge state with
      | .ok (next, true) => edge :: roundContractions graph edges next
      | .ok (next, false) => roundContractions graph edges next
      | .error _ => []

/-- The edges that the contraction loop contracts. -/
def contractions : Nat → State → List Edge
  | 0, _ => []
  | fuel + 1, state =>
      roundContractions graph order.edges state ++
        match contractRound graph order.edges state with
        | .ok (next, true) => contractions fuel next
        | _ => []

/-- The clusters that the contraction loop starts from. -/
def prepared (hasher : Hasher) : StatusOr State := do
  let predicate_map ← populate hasher order
  let state ← addNodes order predicate_map graph.nodes State.init
  let state ← insertEdges graph order.edges state
  addShadows order graph.op_nodes state

theorem clusters_eq (hasher : Hasher) : clusters hasher order =
    prepared order hasher >>= contract order (graph.nodes.length + 1) := by
  simp only [clusters, prepared, bind_assoc]

/-- The edges that the pass contracts. -/
def contractedEdges (hasher : Hasher) : List Edge :=
  match prepared order hasher with
  | .ok state => contractions order (graph.nodes.length + 1) state
  | .error _ => []

end Trace

section Joined

variable {graph : Graph} {linked : Nat → Nat → Prop} {shadowed : Edge → Prop}
  {state next : State} {edge : Edge} {edges : List Edge}

/-- Nodes that are in one cluster, or joined by an edge that is contracted. -/
def Meets (graph : Graph) (state : State) (edges : List Edge)
    (a b : Nat) : Prop :=
  graph.HasNode a ∧ graph.HasNode b ∧
    (state.cluster_map a = state.cluster_map b ∨ ∃ edge ∈ edges, edge.src = a ∧
      edge.dst = b)

/-- An edge between two marked nodes. -/
structure Contractible (graph : Graph) (edge : Edge) : Prop where
  member : edge ∈ graph.edges
  srcOp : (graph.node edge.src).isOp = true
  dstOp : (graph.node edge.dst).isOp = true
  srcMarked : nodeIsMarkedForClustering (graph.node edge.src) = true
  dstMarked : nodeIsMarkedForClustering (graph.node edge.dst) = true

theorem tryContract_contractible (inGraph : edge ∈ graph.edges)
    (success : tryContract graph edge state = .ok (next, true)) :
    Contractible graph edge := by
  generalize isTried : (next, true) = tried at success
  cases tryContract_attempt success with
  | notAnOp => simp at isTried
  | unsupported => simp at isTried
  | deadness => simp at isTried
  | contract ops marked _ => exact ⟨inGraph, ops.1, ops.2, marked.1, marked.2⟩

/-- What contracting some edges does to the clusters. -/
structure Joined (graph : Graph) (state : State) (edges : List Edge)
    (next : State) : Prop where
  inside : ∀ edge ∈ edges, Contractible graph edge
  kept : ∀ {a b}, graph.HasNode a → graph.HasNode b →
    state.cluster_map a = state.cluster_map b →
    next.cluster_map a = next.cluster_map b
  contracted : ∀ edge ∈ edges,
    next.cluster_map edge.src = next.cluster_map edge.dst
  generated : ∀ {a b}, graph.HasNode a → graph.HasNode b →
    next.cluster_map a = next.cluster_map b →
    EqvGen (Meets graph state edges) a b

theorem Joined.refl (graph : Graph) (state : State) :
    Joined graph state [] state where
  inside := by simp
  kept := fun _ _ together => together
  contracted := by simp
  generated := fun aNode bNode together =>
    .rel _ _ ⟨aNode, bNode, .inl together⟩

theorem Joined.trans {middle : State} {more : List Edge} (wf : graph.WF)
    (first : Joined graph state edges middle)
    (second : Joined graph middle more next) :
    Joined graph state (edges ++ more) next where
  inside := by
    intro edge member
    cases List.mem_append.mp member with
    | inl early => exact first.inside edge early
    | inr late => exact second.inside edge late
  kept := fun aNode bNode together =>
    second.kept aNode bNode (first.kept aNode bNode together)
  contracted := by
    intro edge member
    cases List.mem_append.mp member with
    | inl early =>
        have inGraph := (first.inside edge early).member
        exact second.kept (wf.src edge inGraph) (wf.dst edge inGraph)
          (first.contracted edge early)
    | inr late => exact second.contracted edge late
  generated := by
    intro a b aNode bNode together
    apply (EqvGen.is_equivalence
        (Meets graph state (edges ++ more))).eqvGen_iff.mp
    refine EqvGen.mono ?_ _ _ (second.generated aNode bNode together)
    rintro x y ⟨xNode, yNode, meets⟩
    cases meets with
    | inl inMiddle =>
        refine EqvGen.mono ?_ _ _ (first.generated xNode yNode inMiddle)
        rintro u v ⟨uNode, vNode, earlier⟩
        refine ⟨uNode, vNode, earlier.imp_right ?_⟩
        rintro ⟨edge, member, ends⟩
        exact ⟨edge, List.mem_append_left _ member, ends⟩
    | inr late =>
        obtain ⟨edge, member, ends⟩ := late
        exact .rel _ _ ⟨xNode, yNode,
          .inr ⟨edge, List.mem_append_right _ member, ends⟩⟩

/-- One merge joins the clusters at the ends of its edge. -/
theorem Tried.joined {changed : Bool}
    (contractible : changed = true → Contractible graph edge)
    (tried : Tried graph linked shadowed edge state next changed) :
    Joined graph state (if changed then [edge] else []) next := by
  cases tried with
  | kept grown => exact ⟨by simp, fun _ _ together => together, by simp,
      fun aNode bNode together => .rel _ _ ⟨aNode, bNode, .inl together⟩⟩
  | @merged gc merged contraction =>
      have inOne : merged.cluster_map edge.src =
          merged.cluster_map edge.dst := by
        rw [contraction.map contraction.srcNode,
          contraction.map contraction.dstNode, Digraph.merge_kept,
          Digraph.merge_dropped]
      constructor
      case inside => simpa using contractible rfl
      case contracted => simpa using inOne
      case kept =>
        intro a b aNode bNode together
        change merged.cluster_map a = merged.cluster_map b
        rw [contraction.map aNode, contraction.map bNode, together]
      case generated =>
        intro a b aNode bNode together
        have srcNode := contraction.srcNode
        have dstNode := contraction.dstNode
        have atEdge : EqvGen (Meets graph state [edge]) edge.src edge.dst :=
          .rel _ _ ⟨srcNode, dstNode, .inr ⟨edge, by simp, rfl, rfl⟩⟩
        have old : ∀ {x y}, graph.HasNode x → graph.HasNode y →
            state.cluster_map x = state.cluster_map y →
            EqvGen (Meets graph state [edge]) x y :=
          fun xNode yNode same => .rel _ _ ⟨xNode, yNode, .inl same⟩
        rw [if_pos rfl]
        cases contraction.map_cases aNode bNode together with
        | inl same => exact old aNode bNode same
        | inr crossed =>
            cases crossed with
            | inl along =>
                exact .trans _ _ _ (old aNode srcNode along.1)
                  (.trans _ _ _ atEdge (old dstNode bNode along.2.symm))
            | inr against =>
                exact .trans _ _ _ (old aNode dstNode against.1)
                  (.trans _ _ _ (.symm _ _ atEdge)
                    (old srcNode bNode against.2.symm))

theorem contractRound_joined {changed : Bool} (wf : graph.WF)
    (inside : ∀ edge ∈ edges, edge ∈ graph.edges)
    (inv : Inv graph linked shadowed state)
    (success : contractRound graph edges state = .ok (next, changed)) :
    Joined graph state (roundContractions graph edges state) next := by
  induction edges generalizing state changed with
  | nil =>
      cases Except.ok.inj success
      exact .refl graph _
  | cons edge edges ih =>
      obtain ⟨⟨middle, first⟩, atEdge, success⟩ := bind_ok success
      obtain ⟨⟨last, others⟩, atRest, success⟩ := bind_ok success
      cases Except.ok.inj success
      have tried := tryContract_tried wf (inside edge (by simp)) inv atEdge
      have rest := ih (fun edge member => inside edge (by simp [member]))
        (tried.inv inv) atRest
      have contractible : first = true → Contractible graph edge := by
        rintro rfl
        exact tryContract_contractible (inside edge (by simp)) atEdge
      have joined := (tried.joined contractible).trans wf rest
      rw [roundContractions, atEdge]
      cases first with
      | false => simpa using joined
      | true => simpa using joined

theorem contract_joined {fuel : Nat} (wf : graph.WF) (order : graph.Enumeration)
    (inv : Inv graph linked shadowed state)
    (success : contract order fuel state = .ok next) :
    Joined graph state (contractions order fuel state) next := by
  induction fuel generalizing state with
  | zero => simp [contract] at success
  | succ fuel ih =>
      have inside : ∀ edge ∈ order.edges, edge ∈ graph.edges :=
        fun edge => (order.mem_edges edge).mp
      obtain ⟨⟨middle, changed⟩, atRound, success⟩ := bind_ok success
      have first := contractRound_joined wf inside inv atRound
      rw [contractions, atRound]
      cases changed with
      | false =>
          obtain rfl := Except.ok.inj success
          simpa using first
      | true =>
          exact first.trans wf
            (ih (contractRound_inv wf inside inv atRound).1 success)

end Joined

section Prepared

variable {graph : Graph} {order : graph.Enumeration} {state next : State}

/-- The shadows of a node change only the graph of indices. -/
theorem shadowEdges_gc {edges_to_node : List Edge} {static_inputs : List Int}
    (success : shadowEdges graph edges_to_node static_inputs state = .ok next) :
    ∃ gc, next = { state with gc := gc } := by
  induction static_inputs generalizing state with
  | nil =>
      obtain rfl := Except.ok.inj success
      exact ⟨_, rfl⟩
  | cons idx static_inputs ih =>
      obtain ⟨static_edge, _, success⟩ := bind_ok success
      obtain ⟨middle, first, success⟩ := bind_ok success
      obtain ⟨gc, same⟩ := ih success
      refine ⟨gc, same.trans ?_⟩
      unfold shadowEdge at first
      split at first
      case isTrue => rw [(addShadow_ok first).2.2]
      case isFalse => rw [Except.ok.inj first]

theorem addShadows_gc {nodes : List Node}
    (success : addShadows order nodes state = .ok next) :
    ∃ gc, next = { state with gc := gc } := by
  induction nodes generalizing state with
  | nil =>
      obtain rfl := Except.ok.inj success
      exact ⟨_, rfl⟩
  | cons node nodes ih =>
      obtain ⟨middle, first, success⟩ := bind_ok success
      obtain ⟨gc, same⟩ := ih success
      refine ⟨gc, same.trans ?_⟩
      unfold shadowNode at first
      split at first
      case isTrue =>
        obtain ⟨edges_to_node, _, first⟩ := bind_ok first
        obtain ⟨_, rfl⟩ := shadowEdges_gc first
        rfl
      case isFalse => rw [Except.ok.inj first]

theorem insertEdges_gc {edges : List Edge}
    (success : insertEdges graph edges state = .ok next) :
    ∃ gc, next = { state with gc := gc } := by
  induction edges generalizing state with
  | nil =>
      obtain rfl := Except.ok.inj success
      exact ⟨_, rfl⟩
  | cons edge edges ih =>
      cases insertEdges_cons_ok success with
      | inl left => exact ih left.2
      | inr taken =>
          obtain ⟨_, _, _, success⟩ := taken
          obtain ⟨gc, same⟩ := ih success
          exact ⟨gc, same⟩

theorem prepared_nodes {hasher : Hasher}
    (success : prepared order hasher = .ok state) :
    ∃ predicate_map first gc,
      addNodes order predicate_map graph.nodes State.init = .ok first ∧
      state = { first with gc := gc } := by
  obtain ⟨predicate_map, _, success⟩ := bind_ok success
  obtain ⟨first, added, success⟩ := bind_ok success
  obtain ⟨second, inserted, shadows⟩ := bind_ok success
  obtain ⟨_, rfl⟩ := insertEdges_gc inserted
  obtain ⟨gc, same⟩ := addShadows_gc shadows
  exact ⟨predicate_map, first, gc, added, same⟩

theorem addNodes_map {predicate_map : PredicateMap} {nodes : List Node}
    (alone : ∀ id, state.cluster_map id = id)
    (success : addNodes order predicate_map nodes state = .ok next) :
    ∀ id, next.cluster_map id = id := by
  induction nodes generalizing state with
  | nil =>
      obtain rfl := Except.ok.inj success
      exact alone
  | cons node nodes ih =>
      obtain ⟨middle, first, success⟩ := bind_ok success
      refine ih ?_ success
      obtain ⟨pred_string, _, first⟩ := bind_ok first
      obtain rfl := Except.ok.inj first
      intro id
      by_cases same : id = node.id
      · simp [same]
      · simp [same, alone]

theorem prepared_inv {hasher : Hasher} (wf : graph.WF)
    (success : prepared order hasher = .ok state) :
    Inv graph (OpEdge graph) (StaticEdge graph) state ∧
    ∀ id, state.cluster_map id = id := by
  constructor
  · obtain ⟨predicate_map, populated, success⟩ := bind_ok success
    obtain ⟨first, added, success⟩ := bind_ok success
    obtain ⟨second, inserted, shadows⟩ := bind_ok success
    obtain ⟨firstInv, _⟩ := addNodes_inv wf added
    obtain ⟨secondInv, _, _⟩ := insertEdges_inv wf order firstInv inserted
    exact (addShadows_static wf order secondInv shadows).1
  · obtain ⟨predicate_map, first, gc, added, rfl⟩ := prepared_nodes success
    intro id
    exact addNodes_map (fun _ => rfl) added id

end Prepared

/-- The clusters of the pass are generated by the edges that it contracts. -/
theorem clusters_joined {graph : Graph} {hasher : Hasher}
    {order : graph.Enumeration} {state : State} (wf : graph.WF)
    (success : clusters hasher order = .ok state) :
    (∀ edge ∈ contractedEdges order hasher, Contractible graph edge ∧
      state.cluster_map edge.src = state.cluster_map edge.dst) ∧
    ∀ {a b}, graph.HasNode a → graph.HasNode b →
      state.cluster_map a = state.cluster_map b →
      EqvGen (fun x y => ∃ edge ∈ contractedEdges order hasher, edge.src = x ∧
        edge.dst = y)
        a b := by
  rw [clusters_eq] at success
  obtain ⟨start, atStart, success⟩ := bind_ok success
  obtain ⟨inv, alone⟩ := prepared_inv wf atStart
  have joined := contract_joined wf order inv success
  rw [contractedEdges, atStart]
  dsimp only
  refine ⟨fun edge member =>
    ⟨joined.inside edge member, joined.contracted edge member⟩, ?_⟩
  intro a b aNode bNode together
  apply (EqvGen.is_equivalence _).eqvGen_iff.mp
  refine EqvGen.mono ?_ _ _ (joined.generated aNode bNode together)
  rintro x y ⟨_, _, meets⟩
  cases meets with
  | inl same =>
      rw [alone, alone] at same
      exact same ▸ .refl x
  | inr atEdge => exact .rel _ _ atEdge

end NGraphBridge.AssignClusters
