import NGraphBridge.AssignClusters.Coupling
import NGraphBridge.AssignClusters.Errors
import NGraphBridge.AssignClusters.Convexity

/-!
# No edge is left that could be contracted

The contraction loop ends, and it ends with clusters that no further edge joins:
an edge between marked nodes of two clusters breaks the rule for predicates, or
there is a second way from the one cluster to the other.
-/

namespace NGraphBridge.AssignClusters

open TF Deadness GraphCycles MarkForClustering Relation NGraphBridge.Digraph

/-- The clusters and the shadow nodes: two clusters are joined for an op edge,
and a shadow node comes between the clusters of the ends of its static edge. -/
inductive Extended (graph : Graph) (state : State) : Nat ⊕ Edge →
    Nat ⊕ Edge → Prop
  | cluster {a b : Nat} (step : quotient (OpEdge graph) state.cluster_map a b) :
      Extended graph state (.inl a) (.inl b)
  | out {edge : Edge} (static : StaticEdge graph edge) :
      Extended graph state (.inl (state.cluster_map edge.src)) (.inr edge)
  | back {edge : Edge} (static : StaticEdge graph edge) :
      Extended graph state (.inr edge) (.inl (state.cluster_map edge.dst))

/-- The vertex that an index stands for. -/
inductive Stands (graph : Graph) (shadows : List (Nat × Edge)) (state : State) :
    Nat → Nat ⊕ Edge → Prop
  | cluster {id : Nat} (idNode : graph.HasNode id) :
      Stands graph shadows state (state.index id) (.inl (state.cluster_map id))
  | shadow {entry : Nat × Edge} (member : entry ∈ shadows) :
      Stands graph shadows state entry.1 (.inr entry.2)

variable {graph : Graph} {shadowed : Edge → Prop} {shadows : List (Nat × Edge)}
  {state : State} {linked : Nat → Nat → Prop}

section Paths

theorem Coupled.stands_functional (coupled : Coupled graph linked shadows state)
    (inv : Inv graph linked shadowed state) {index : Nat}
    {first second : Nat ⊕ Edge} (left : Stands graph shadows state index first)
    (right : Stands graph shadows state index second) : first = second := by
  generalize same : index = other at right
  cases left with
  | cluster idNode =>
      cases right with
      | cluster otherNode => rw [inv.same idNode otherNode same]
      | shadow member => exact absurd same (coupled.fresh _ member _ idNode)
  | @shadow entry member =>
      cases right with
      | cluster otherNode =>
          exact absurd same.symm (coupled.fresh _ member _ otherNode)
      | @shadow second secondIn =>
          have distinct := List.inj_on_of_nodup_map coupled.keys
          rw [distinct member secondIn same]

theorem Coupled.stands_cluster (inv : Inv graph linked shadowed state)
    {id index : Nat} (idNode : graph.HasNode id)
    (stands : Stands graph shadows state index (.inl (state.cluster_map id))) :
    index = state.index id := by
  generalize same : (Sum.inl (state.cluster_map id) : Nat ⊕ Edge) =
      vertex at stands
  cases stands with
  | cluster otherNode =>
      exact ((inv.index_iff idNode otherNode).mpr (Sum.inl.inj same)).symm
  | shadow => simp at same

/-- A second way between the indices of two clusters is a second way between the
clusters. -/
theorem Coupled.second_path
    (coupled : Coupled graph (OpEdge graph) shadows state)
    (static : ∀ entry ∈ shadows, StaticEdge graph entry.2)
    (inv : Inv graph (OpEdge graph) shadowed state) {a b : Nat}
    (aNode : graph.HasNode a) (bNode : graph.HasNode b)
    (different : state.cluster_map a ≠ state.cluster_map b)
    (path : ReflTransGen (remove state.gc.Edge (state.index a) (state.index b))
      (state.index a) (state.index b)) :
    TransGen (remove (Extended graph state) (.inl (state.cluster_map a))
      (.inl (state.cluster_map b))) (.inl (state.cluster_map a))
        (.inl (state.cluster_map b)) := by
  have carries :
      ∀ u v, remove state.gc.Edge (state.index a) (state.index b) u v →
      ∃ first second, Stands graph shadows state u first ∧
        Stands graph shadows state v second ∧
        remove (Extended graph state) (.inl (state.cluster_map a))
          (.inl (state.cluster_map b)) first second := by
    intro u v step
    have other : ∀ {first second}, Stands graph shadows state u first →
        Stands graph shadows state v second →
        ¬ (first = .inl (state.cluster_map a) ∧
          second = .inl (state.cluster_map b)) := by
      rintro first second atLeft atRight ⟨rfl, rfl⟩
      exact step.2 ⟨Coupled.stands_cluster inv aNode atLeft,
        Coupled.stands_cluster inv bNode atRight⟩
    cases (coupled.edge u v).mp step.1 with
    | inl link =>
        obtain ⟨apart, x, y, opEdge, rfl, rfl⟩ := link
        obtain ⟨xNode, yNode⟩ := inv.inside opEdge
        have distinct : state.cluster_map x ≠ state.cluster_map y :=
          fun together => apart ((inv.index_iff xNode yNode).mpr together)
        exact ⟨_, _, .cluster xNode, .cluster yNode,
          .cluster ⟨distinct, x, y, opEdge, rfl, rfl⟩,
          other (.cluster xNode) (.cluster yNode)⟩
    | inr shade =>
        obtain ⟨entry, member, shade⟩ := shade
        obtain ⟨srcNode, dstNode⟩ := coupled.ends entry member
        cases shade with
        | inl out =>
            obtain ⟨rfl, rfl⟩ := out
            exact ⟨_, _, .cluster srcNode, .shadow member,
              .out (static entry member),
              other (.cluster srcNode) (.shadow member)⟩
        | inr back =>
            obtain ⟨rfl, rfl⟩ := back
            exact ⟨_, _, .shadow member, .cluster dstNode,
              .back (static entry member),
              other (.shadow member) (.cluster dstNode)⟩
  have functional : ∀ u first second, Stands graph shadows state u first →
      Stands graph shadows state u second → first = second :=
    fun _ _ _ => coupled.stands_functional inv
  have moved := path_transport functional carries path (.cluster aNode)
    (.cluster bNode)
  cases reflTransGen_iff_eq_or_transGen.mp moved with
  | inl same => exact absurd (Sum.inl.inj same).symm different
  | inr way => exact way

end Paths

section Flow

variable {edge : Edge}

/-- A node in control flow has a cluster in control flow. -/
def Flowing (graph : Graph) (state : State) : Prop :=
  ∀ id pred_string, graph.HasNode id →
    state.nodes_predicate_map id = some pred_string →
    isControlFlowPredString pred_string = true →
    isControlFlowPredString (state.predicate_string id) = true

theorem canContract_plain {accepted : Bool}
    (check : canContractEdgeDeadnessCheck graph state edge = .ok accepted) :
    isControlFlowPredString (state.predicate_string edge.src) = false ∧
      isControlFlowPredString (state.predicate_string edge.dst) = false := by
  unfold canContractEdgeDeadnessCheck at check
  dsimp only at check
  split at check
  case isTrue => simp at check
  case isFalse plain =>
    simp only [Bool.or_eq_true, not_or, Bool.not_eq_true] at plain
    exact plain

theorem Decided.flowing {next : State} {changed : Bool}
    (decided : Decided graph linked shadowed edge state next changed)
    (flowing : Flowing graph state) : Flowing graph next := by
  cases decided with
  | kept => exact flowing
  | @merged gc check contraction =>
      obtain ⟨srcPlain, dstPlain⟩ := canContract_plain check
      intro id pred_string idNode found isFlow
      have old := flowing id pred_string idNode
        (contraction.merged.nodes_predicate_map ▸ found) isFlow
      have apart : ∀ end_,
          isControlFlowPredString (state.predicate_string end_) = false →
          state.cluster_map id ≠ state.cluster_map end_ := by
        intro end_ plain together
        rw [State.predicate_string, State.cluster, together] at old
        rw [State.predicate_string, State.cluster, old] at plain
        exact absurd plain (by simp)
      change isControlFlowPredString
        ((mergeClusters edge state).predicate_string id) = true
      rw [State.predicate_string, State.cluster, contraction.map idNode,
        merge_of_ne (apart _ dstPlain),
        contraction.merged.other _ (apart _ srcPlain)]
      exact old

theorem prepared_flowing {order : graph.Enumeration} {hasher : Hasher}
    (wf : graph.WF) (success : prepared order hasher = .ok state) :
    Flowing graph state := by
  obtain ⟨inv, alone⟩ := prepared_inv wf success
  intro id pred_string idNode found isFlow
  obtain ⟨other, _, together, recorded⟩ := inv.predicate idNode
  rw [alone, alone] at together
  rw [together, found] at recorded
  obtain rfl := Option.some.inj recorded
  exact isFlow

theorem prepared_recorded {order : graph.Enumeration} {hasher : Hasher}
    (wf : graph.WF) (success : prepared order hasher = .ok state) :
    ∃ predicate_map,
      Recorded order predicate_map state.nodes_predicate_map := by
  obtain ⟨predicate_map, _, success⟩ := bind_ok success
  obtain ⟨first, added, success⟩ := bind_ok success
  obtain ⟨second, inserted, shadows⟩ := bind_ok success
  obtain ⟨firstInv, recorded⟩ := addNodes_inv wf added
  obtain ⟨secondInv, _, secondKept⟩ :=
    insertEdges_inv wf order firstInv inserted
  obtain ⟨_, thirdKept⟩ := addShadows_static wf order secondInv shadows
  refine ⟨predicate_map, ?_⟩
  rw [thirdKept, secondKept]
  exact recorded

/-- A node of a cluster that is not in control flow is not a `NextIteration`. -/
theorem Flowing.notNextIteration {order : graph.Enumeration}
    {predicate_map : PredicateMap} (flowing : Flowing graph state)
    (wf : graph.WF)
    (recorded : Recorded order predicate_map state.nodes_predicate_map)
    {id : Nat} (idNode : graph.HasNode id)
    (plain : isControlFlowPredString (state.predicate_string id) = false) :
    (graph.node id).isNextIteration = false := by
  obtain ⟨member, sameId⟩ := wf.node_mem idNode
  obtain ⟨pred_string, success, found⟩ := recorded _ member
  rw [sameId] at found
  have plainString : isControlFlowPredString pred_string = false := by
    rw [← Bool.not_eq_true]
    intro isFlow
    rw [flowing id pred_string idNode found isFlow] at plain
    exact absurd plain (by simp)
  obtain ⟨_, notControlFlow⟩ := plain_of_getNodePredicate success plainString
  simp only [Node.isControlFlow, Bool.or_eq_false_iff] at notControlFlow
  simp [notControlFlow]

end Flow

theorem canContract_error {edge : Edge} {error : Error}
    (failed : canContractEdgeDeadnessCheck graph state edge = .error error) :
    error.code = .internal := by
  unfold canContractEdgeDeadnessCheck at failed
  dsimp only at failed
  split at failed
  case isTrue =>
    cases failed
    rfl
  case isFalse =>
    split at failed
    case isTrue => simp at failed
    case isFalse =>
      split at failed
      case isTrue =>
        cases failed
        rfl
      case isFalse =>
        split at failed
        case isTrue => simp at failed
        case isFalse => simp at failed

theorem tryContract_error {edge : Edge} {error : Error}
    (failed : tryContract graph edge state = .error error) :
    error.code = .internal := by
  unfold tryContract at failed
  dsimp only at failed
  split at failed
  case isTrue => simp at failed
  case isFalse =>
    split at failed
    case isTrue => simp at failed
    case isFalse =>
      cases check : canContractEdgeDeadnessCheck graph state edge with
      | ok accepted =>
          simp [check, bind, Except.bind, pure, Except.pure] at failed
      | error found =>
          rw [check] at failed
          cases failed
          exact canContract_error check

theorem contractRound_error {edges : List Edge} {error : Error}
    (failed : contractRound graph edges state = .error error) :
    error.code = .internal := by
  induction edges generalizing state with
  | nil => simp [contractRound] at failed
  | cons edge edges ih =>
      rw [contractRound] at failed
      cases atEdge : tryContract graph edge state with
      | error found =>
          rw [atEdge] at failed
          cases failed
          exact tryContract_error atEdge
      | ok tried =>
          cases atRest : contractRound graph edges tried.1 with
          | error found =>
              simp only [atEdge, bind, Except.bind, atRest] at failed
              cases failed
              exact ih atRest
          | ok rest =>
              simp [atEdge, bind, Except.bind, atRest, pure,
                Except.pure] at failed

/-- With more fuel than clusters, only a check that fails stops the loop
early. -/
theorem contract_error {fuel : Nat} {error : Error} (wf : graph.WF)
    (order : graph.Enumeration) (inv : Inv graph linked shadowed state)
    (enough : (indices graph state).card < fuel)
    (failed : contract order fuel state = .error error) :
    error.code = .internal := by
  induction fuel generalizing state with
  | zero => exact absurd enough (Nat.not_lt_zero _)
  | succ fuel ih =>
      rw [contract] at failed
      cases atRound : contractRound graph order.edges state with
      | error found =>
          rw [atRound] at failed
          cases failed
          exact contractRound_error atRound
      | ok round =>
          obtain ⟨middle, changed⟩ := round
          obtain ⟨middleInv, _, fewer⟩ := contractRound_inv wf
            (fun edge => (order.mem_edges edge).mp) inv atRound
          simp only [atRound, bind, Except.bind] at failed
          cases changed with
          | false => simp at failed
          | true =>
              rw [Bool.toNat_true] at fewer
              exact ih middleInv (by omega) failed

/-- The contraction loop ends, with the clusters or the error of a check.  No
edge between marked nodes of two clusters can be contracted in the end: it fails
the check on predicates, or a second path joins its clusters. -/
theorem contract_maximal {hasher : Hasher} {order : graph.Enumeration}
    {start : State} (wf : graph.WF)
    (atStart : prepared order hasher = .ok start) :
    (∀ extra, contract order (graph.nodes.length + 1 + extra) start =
      clusters hasher order) ∧
    (∀ error, clusters hasher order = .error error → error.code = .internal) ∧
    ∀ final, clusters hasher order = .ok final → ∀ edge ∈ graph.edges,
      (graph.node edge.src).isOp = true → (graph.node edge.dst).isOp = true →
      nodeIsMarkedForClustering (graph.node edge.src) = true →
      nodeIsMarkedForClustering (graph.node edge.dst) = true →
      final.cluster_map edge.src ≠ final.cluster_map edge.dst →
      canContractEdgeDeadnessCheck graph final edge = .ok false ∨
        TransGen (remove (Extended graph final)
          (.inl (final.cluster_map edge.src))
          (.inl (final.cluster_map edge.dst)))
        (.inl (final.cluster_map edge.src))
            (.inl (final.cluster_map edge.dst)) := by
  obtain ⟨inv, _⟩ := prepared_inv wf atStart
  obtain ⟨shadows, static, coupled⟩ := prepared_coupled wf atStart
  obtain ⟨predicate_map, recorded⟩ := prepared_recorded wf atStart
  have enough := Nat.lt_succ_of_le (indices_card_le graph start)
  have same : clusters hasher order =
      contract order (graph.nodes.length + 1) start := by
    rw [clusters_eq, atStart]
    rfl
  rw [same]
  refine ⟨contract_fuel wf order inv enough,
    fun error => contract_error wf order inv enough, ?_⟩
  intro final success edge member srcOp dstOp srcMarked dstMarked different
  obtain ⟨finalInv, kept⟩ := contract_inv wf order inv success
  have finalCoupled := contract_preserves wf order
    (fun _ decided coupled => decided.coupled coupled) inv coupled success
  have flowing := contract_preserves wf order
    (fun _ decided flowing => decided.flowing flowing) inv
    (prepared_flowing wf atStart) success
  have srcNode := wf.src edge member
  have dstNode := wf.dst edge member
  cases contract_settled wf order inv success edge member with
  | notAnOp either => simp [srcOp, dstOp] at either
  | unsupported either => simp [srcMarked, dstMarked] at either
  | deadness check => exact .inl check
  | path check cycle =>
      right
      obtain ⟨srcPlain, dstPlain⟩ := canContract_plain check
      rw [← kept] at recorded
      have taken : skipsCycleCheck graph edge = false := by
        simp [skipsCycleCheck, srcOp, dstOp,
          flowing.notNextIteration wf recorded srcNode srcPlain,
          flowing.notNextIteration wf recorded dstNode dstPlain]
      have apart : final.index edge.src ≠ final.index edge.dst :=
        fun together => different (finalInv.same srcNode dstNode together)
      have there := finalInv.edges ⟨edge, member, taken, rfl, rfl⟩ apart
      exact finalCoupled.second_path static finalInv srcNode dstNode different
        (cycle there)

/-- A reshape between marked nodes, the one before it at its static input. -/
def staticGraph : Graph where
  nodes := [
    ⟨0, "_SOURCE", "NoOp", [], [], [], "", []⟩,
    ⟨1, "_SINK", "NoOp", [], [], [], "", []⟩,
    ⟨2, "x", "Placeholder", [], [], [.DT_FLOAT], "", []⟩,
    ⟨3, "dims", "Placeholder", [], [], [.DT_INT32], "", []⟩,
    ⟨4, "abs", "Abs", [("_ngraph_marked_for_clustering", .b true)], [.DT_INT32],
      [.DT_INT32], "", ["dims"]⟩,
    ⟨5, "reshape", "Reshape", [("_ngraph_marked_for_clustering", .b true),
      ("_ngraph_static_inputs", .listI [1])], [.DT_FLOAT, .DT_INT32],
      [.DT_FLOAT], "", ["x", "abs"]⟩,
    ⟨6, "neg", "Neg", [("_ngraph_marked_for_clustering", .b true)], [.DT_FLOAT],
      [.DT_FLOAT], "", ["reshape"]⟩]
  edges :=
    [⟨0, 0, -1, 2, -1⟩, ⟨1, 0, -1, 3, -1⟩, ⟨2, 2, 0, 5, 0⟩, ⟨3, 3, 0, 4, 0⟩,
      ⟨4, 4, 0, 5, 1⟩, ⟨5, 5, 0, 6, 0⟩, ⟨6, 6, -1, 1, -1⟩]

theorem staticGraph_wf : staticGraph.WF := by
  constructor <;> decide

theorem staticGraph_marking : Marking staticGraph := by
  constructor <;> decide

/-- The edge into the static input stays between two clusters. -/
theorem contract_maximal_staticGraph : ∃ final,
    clusters constantHasher staticGraph.byInsertion = .ok final ∧
    final.cluster_map 4 ≠ final.cluster_map 5 ∧
    (canContractEdgeDeadnessCheck staticGraph final ⟨4, 4, 0, 5, 1⟩ =
        .ok false ∨
      TransGen (remove (Extended staticGraph final)
        (.inl (final.cluster_map 4)) (.inl (final.cluster_map 5)))
        (.inl (final.cluster_map 4)) (.inl (final.cluster_map 5))) := by
  have prepares : (prepared staticGraph.byInsertion
      constantHasher).toOption.isSome = true := by
    decide
  cases atStart : prepared staticGraph.byInsertion constantHasher with
  | error error => simp [atStart, Except.toOption] at prepares
  | ok start =>
      obtain ⟨_, onlyInternal, maximal⟩ :=
        contract_maximal staticGraph_wf atStart
      obtain ⟨noInternal, _⟩ := @clusters_sound staticGraph constantHasher
        staticGraph.byInsertion staticGraph_wf (by decide) staticGraph_marking
      obtain ⟨inv, _⟩ := prepared_inv staticGraph_wf atStart
      have static : StaticEdge staticGraph ⟨4, 4, 0, 5, 1⟩ :=
        ⟨by decide, rfl, rfl, by decide, by decide⟩
      cases success : clusters constantHasher staticGraph.byInsertion with
      | error error =>
          exact absurd (onlyInternal error success) (noInternal error success)
      | ok final =>
          have reached := success
          rw [clusters_eq, atStart] at reached
          obtain ⟨finalInv, _⟩ :=
            contract_inv staticGraph_wf staticGraph.byInsertion inv reached
          have apart := finalInv.separated static
          exact ⟨final, rfl, apart, maximal final success ⟨4, 4, 0, 5, 1⟩
            static.member rfl rfl (by decide) (by decide) apart⟩

end NGraphBridge.AssignClusters
