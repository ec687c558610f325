import NGraphBridge.AssignClusters.Coherence

/-!
# The outgoing edges of the clusters

A merge takes the outgoing edges of both clusters and drops the one edge that it
contracts.  Every other edge between the two clusters stays behind, stale: it
leads from the merged cluster to itself.
-/

namespace NGraphBridge.AssignClusters

open TF Deadness GraphCycles MarkForClustering Relation NGraphBridge.Digraph

/-- An edge from the cluster of a node to a node outside of it. -/
structure Leaves (graph : Graph) (state : State) (id : Nat) (edge : Edge) :
    Prop where
  member : edge ∈ graph.edges
  src : edge.src ∈ (state.cluster id).nodes
  dst : edge.dst ∉ (state.cluster id).nodes

/-- Every cluster has the edges that leave it as its outgoing edges, and the
check of a source that is always live turns an edge down for one of these. -/
structure OutgoingExact (graph : Graph) (state : State) : Prop where
  outgoing : ∀ id, graph.HasNode id → ∀ edge,
    edge ∈ (state.cluster id).outgoing_edges ↔ Leaves graph state id edge
  check : ∀ edge ∈ graph.edges,
    isTruePredString (state.predicate_string edge.src) = true →
    isControlFlowPredString (state.predicate_string edge.dst) = false →
    (canContractEdgeDeadnessCheck graph state edge = .ok false ↔
      ∃ other, Leaves graph state edge.src other ∧ other ≠ edge ∧
        isTruePredString (state.predicate_string edge.dst) = false ∧
        state.predicate_string edge.dst ≠ state.predicate_string other.dst)

/-- The edge is contracted if it is tried. -/
structure Contracts (graph : Graph) (state : State) (edge : Edge) : Prop where
  srcOp : (graph.node edge.src).isOp = true
  dstOp : (graph.node edge.dst).isOp = true
  srcMarked : nodeIsMarkedForClustering (graph.node edge.src) = true
  dstMarked : nodeIsMarkedForClustering (graph.node edge.dst) = true
  check : canContractEdgeDeadnessCheck graph state edge = .ok true
  there : state.gc.Edge (state.index edge.src) (state.index edge.dst)
  only : ¬ ReflTransGen
    (remove state.gc.Edge (state.index edge.src) (state.index edge.dst))
    (state.index edge.src) (state.index edge.dst)

/-- The other edge leads from one end's cluster to that of the other end, either
way. -/
def Joins (state : State) (edge other : Edge) : Prop :=
  (state.cluster_map other.src = state.cluster_map edge.src ∧
    state.cluster_map other.dst = state.cluster_map edge.dst) ∨
  (state.cluster_map other.src = state.cluster_map edge.dst ∧
    state.cluster_map other.dst = state.cluster_map edge.src)

/-- No other edge joins the clusters at the ends of an edge. -/
def OnlyLink (graph : Graph) (state : State) (edge : Edge) : Prop :=
  ∀ other ∈ graph.edges, Joins state edge other → other = edge

/-- An outgoing edge that does not leave its cluster. -/
structure Stale (state : State) (edge : Edge) : Prop where
  together : state.cluster_map edge.src = state.cluster_map edge.dst
  listed : edge ∈ (state.cluster edge.src).outgoing_edges

/-- The outgoing edges of a cluster start in it, and the edges that leave it are
among them. -/
structure Outbound (graph : Graph) (state : State) : Prop where
  inside : ∀ {id}, graph.HasNode id →
    ∀ edge ∈ (state.cluster id).outgoing_edges, edge ∈ graph.edges ∧
    state.cluster_map edge.src = state.cluster_map id
  leaving : ∀ edge ∈ graph.edges,
    state.cluster_map edge.src ≠ state.cluster_map edge.dst →
    edge ∈ (state.cluster edge.src).outgoing_edges

section Outgoing

variable {graph : Graph} {linked : Nat → Nat → Prop} {shadowed : Edge → Prop}
  {state next : State} {edge : Edge}

theorem leaves_iff (wf : graph.WF) (inv : Inv graph linked shadowed state)
    {id : Nat} (idNode : graph.HasNode id) : Leaves graph state id edge ↔
      edge ∈ graph.edges ∧
      state.cluster_map edge.src = state.cluster_map id ∧
      state.cluster_map edge.dst ≠ state.cluster_map id := by
  constructor
  · intro leaves
    refine ⟨leaves.member, ((inv.members idNode _).mp leaves.src).2, ?_⟩
    intro inside
    exact leaves.dst
      ((inv.members idNode _).mpr ⟨wf.dst edge leaves.member, inside⟩)
  · rintro ⟨member, atSource, outside⟩
    refine ⟨member, (inv.members idNode _).mpr ⟨wf.src edge member, atSource⟩,
      ?_⟩
    intro inside
    exact outside ((inv.members idNode _).mp inside).2

/-- The check looks at the outgoing edges of the source cluster. -/
theorem canContract_of_true
    (srcTrue : isTruePredString (state.predicate_string edge.src) = true)
    (dstPlain : isControlFlowPredString (state.predicate_string edge.dst) =
      false) :
    canContractEdgeDeadnessCheck graph state edge = .ok false ↔
      ∃ other ∈ (state.cluster edge.src).outgoing_edges, other ≠ edge ∧
        isTruePredString (state.predicate_string edge.dst) = false ∧
        state.predicate_string edge.dst ≠ state.predicate_string other.dst := by
  have srcPlain : isControlFlowPredString (state.predicate_string edge.src) =
      false := by
    rw [isTruePredString, beq_iff_eq] at srcTrue
    rw [srcTrue]
    decide
  simp only [State.predicate_string] at srcTrue dstPlain srcPlain ⊢
  unfold canContractEdgeDeadnessCheck
  dsimp only
  rw [if_neg (by simp [srcPlain, dstPlain]), if_neg (by simp [srcTrue]),
    if_neg (by simp [srcTrue]), srcTrue, Bool.true_and]
  split
  case isTrue found =>
    obtain ⟨other, listed, holds⟩ := List.any_eq_true.mp found
    simp only [Bool.and_eq_true, bne_iff_ne, Bool.not_eq_true'] at holds
    exact iff_of_true rfl ⟨other, listed, holds.1.1, holds.1.2, holds.2⟩
  case isFalse none =>
    apply iff_of_false (by simp)
    rintro ⟨other, listed, different, dstNotTrue, apart⟩
    apply none
    apply List.any_eq_true.mpr
    refine ⟨other, listed, ?_⟩
    simp only [Bool.and_eq_true, bne_iff_ne, Bool.not_eq_true']
    exact ⟨⟨different, dstNotTrue⟩, apart⟩

theorem outgoingExact_iff (wf : graph.WF)
    (inv : Inv graph linked shadowed state) (outbound : Outbound graph state) :
    OutgoingExact graph state ↔ ∀ edge ∈ graph.edges, ¬ Stale state edge := by
  constructor
  · intro exact_ edge member stale
    have srcNode := wf.src edge member
    have leaves := (exact_.outgoing _ srcNode edge).mp stale.listed
    exact ((leaves_iff wf inv srcNode).mp leaves).2.2 stale.together.symm
  · intro fresh
    have outgoing : ∀ id, graph.HasNode id → ∀ edge,
        edge ∈ (state.cluster id).outgoing_edges ↔
        Leaves graph state id edge := by
      intro id idNode edge
      rw [leaves_iff wf inv idNode]
      constructor
      · intro listed
        obtain ⟨member, atSource⟩ := outbound.inside idNode edge listed
        refine ⟨member, atSource, ?_⟩
        intro inside
        apply fresh edge member
        rw [State.cluster, ← atSource] at listed
        exact ⟨atSource.trans inside.symm, listed⟩
      · rintro ⟨member, atSource, outside⟩
        have listed := outbound.leaving edge member
          (fun together => outside (together.symm.trans atSource))
        rwa [State.cluster, atSource] at listed
    refine ⟨outgoing, ?_⟩
    intro edge member srcTrue dstPlain
    rw [canContract_of_true srcTrue dstPlain]
    simp only [outgoing _ (wf.src edge member)]

section Merge

variable {gc : Rep}
  (contraction :
    Contraction graph linked shadowed edge state gc (mergeClusters edge state))
  (outbound : Outbound graph state)

include contraction

/-- Two nodes are in one cluster after a merge if they were before, or if the
merge is of their clusters. -/
theorem Contraction.together_iff {other : Edge}
    (srcNode : graph.HasNode other.src) (dstNode : graph.HasNode other.dst) :
    (mergeClusters edge state).cluster_map other.src =
        (mergeClusters edge state).cluster_map other.dst ↔
      state.cluster_map other.src = state.cluster_map other.dst ∨
      Joins state edge other := by
  constructor
  · exact contraction.map_cases srcNode dstNode
  · intro either
    rw [contraction.map srcNode, contraction.map dstNode]
    cases either with
    | inl before => rw [before]
    | inr joins =>
        cases joins with
        | inl along => rw [along.1, along.2, merge_kept, merge_dropped]
        | inr against => rw [against.1, against.2, merge_kept, merge_dropped]

theorem Contraction.outgoing_eq {id : Nat} (idNode : graph.HasNode id) :
    ((mergeClusters edge state).cluster id).outgoing_edges =
      if state.cluster_map id = state.cluster_map edge.src ∨
          state.cluster_map id = state.cluster_map edge.dst then
        ((state.cluster edge.src).outgoing_edges ∪
          (state.cluster edge.dst).outgoing_edges).filter (· != edge)
      else (state.cluster id).outgoing_edges := by
  rw [State.cluster, contraction.map idNode]
  by_cases inDst : state.cluster_map id = state.cluster_map edge.dst
  · rw [inDst, merge_dropped, mergeClusters_outgoing, if_pos (.inr rfl)]
  · rw [merge_of_ne inDst]
    by_cases inSrc : state.cluster_map id = state.cluster_map edge.src
    · rw [inSrc, mergeClusters_outgoing, if_pos (.inl rfl)]
    · rw [contraction.merged.other _ inSrc, if_neg (by simp [inSrc, inDst])]
      rfl

include outbound

theorem Contraction.preservesOutbound (wf : graph.WF) :
    Outbound graph (mergeClusters edge state) where
  inside := by
    intro id idNode other listed
    rw [contraction.outgoing_eq idNode] at listed
    split at listed
    case isTrue merges =>
      obtain ⟨either, _⟩ := List.mem_filter.mp listed
      have found : other ∈ graph.edges ∧
          (state.cluster_map other.src = state.cluster_map edge.src ∨
            state.cluster_map other.src = state.cluster_map edge.dst) := by
        cases List.mem_union_iff.mp either with
        | inl fromSrc =>
            obtain ⟨member, atSource⟩ :=
              outbound.inside contraction.srcNode other fromSrc
            exact ⟨member, .inl atSource⟩
        | inr fromDst =>
            obtain ⟨member, atSource⟩ :=
              outbound.inside contraction.dstNode other fromDst
            exact ⟨member, .inr atSource⟩
      obtain ⟨member, atSource⟩ := found
      have kept : ∀ {pointer}, pointer = state.cluster_map edge.src ∨
          pointer = state.cluster_map edge.dst →
          merge (state.cluster_map edge.src)
            (state.cluster_map edge.dst) pointer =
            state.cluster_map edge.src := by
        intro pointer isEnd
        cases isEnd with
        | inl inSrc => rw [inSrc, merge_kept]
        | inr inDst => rw [inDst, merge_dropped]
      refine ⟨member, ?_⟩
      rw [contraction.map (wf.src other member), contraction.map idNode,
        kept atSource, kept merges]
    case isFalse =>
      obtain ⟨member, atSource⟩ := outbound.inside idNode other listed
      refine ⟨member, ?_⟩
      rw [contraction.map (wf.src other member),
        contraction.map idNode, atSource]
  leaving := by
    intro other member different
    have srcNode := wf.src other member
    have dstNode := wf.dst other member
    have before := contraction.apart_before srcNode dstNode different
    apply contraction.outgoing_kept srcNode
      _ (outbound.leaving other member before)
    rintro rfl
    exact different
      ((contraction.together_iff srcNode dstNode).mpr (.inr (.inl ⟨rfl, rfl⟩)))

/-- Only the contracted edge is dropped. -/
theorem Contraction.outgoing_iff (wf : graph.WF) {other : Edge}
    (member : other ∈ graph.edges) :
    other ∈ ((mergeClusters edge state).cluster other.src).outgoing_edges ↔
      other ∈ (state.cluster other.src).outgoing_edges ∧ other ≠ edge := by
  have srcNode := wf.src other member
  constructor
  · intro listed
    rw [contraction.outgoing_eq srcNode] at listed
    split at listed
    case isTrue =>
      obtain ⟨either, notEdge⟩ := List.mem_filter.mp listed
      refine ⟨?_, by simpa using notEdge⟩
      cases List.mem_union_iff.mp either with
      | inl fromSrc =>
          have atSource := (outbound.inside contraction.srcNode other fromSrc).2
          rwa [State.cluster, atSource]
      | inr fromDst =>
          have atSource := (outbound.inside contraction.dstNode other fromDst).2
          rwa [State.cluster, atSource]
    case isFalse apart =>
      refine ⟨listed, ?_⟩
      rintro rfl
      exact apart (.inl rfl)
  · rintro ⟨listed, notEdge⟩
    exact contraction.outgoing_kept srcNode notEdge listed

/-- The edges that are stale after a merge: those from before, and the other
edges between the two clusters. -/
theorem Contraction.stale_iff (wf : graph.WF) {other : Edge}
    (member : other ∈ graph.edges) :
    Stale (mergeClusters edge state) other ↔
      Stale state other ∨ (Joins state edge other ∧ other ≠ edge) := by
  have srcNode := wf.src other member
  have dstNode := wf.dst other member
  constructor
  · intro stale
    obtain ⟨listed, notEdge⟩ :=
      (contraction.outgoing_iff outbound wf member).mp stale.listed
    cases (contraction.together_iff srcNode dstNode).mp stale.together with
    | inl before => exact .inl ⟨before, listed⟩
    | inr joins => exact .inr ⟨joins, notEdge⟩
  · intro either
    cases either with
    | inl stale =>
        have notEdge : other ≠ edge := by
          rintro rfl
          exact contraction.pointersApart stale.together
        exact ⟨(contraction.together_iff srcNode dstNode).mpr
          (.inl stale.together),
          (contraction.outgoing_iff outbound wf member).mpr
            ⟨stale.listed, notEdge⟩⟩
    | inr new =>
        obtain ⟨joins, notEdge⟩ := new
        have apart : state.cluster_map other.src ≠
            state.cluster_map other.dst := by
          cases joins with
          | inl along =>
              rw [along.1, along.2]
              exact contraction.pointersApart
          | inr against =>
              rw [against.1, against.2]
              exact Ne.symm contraction.pointersApart
        exact ⟨(contraction.together_iff srcNode dstNode).mpr (.inr joins),
          (contraction.outgoing_iff outbound wf member).mpr
            ⟨outbound.leaving other member apart, notEdge⟩⟩

/-- A merge leaves no stale edge exactly if there was none and it contracts the
only edge between its clusters. -/
theorem Contraction.fresh_iff (wf : graph.WF) :
    (∀ other ∈ graph.edges, ¬ Stale (mergeClusters edge state) other) ↔
      (∀ other ∈ graph.edges, ¬ Stale state other) ∧
      OnlyLink graph state edge := by
  constructor
  · intro fresh
    constructor
    · intro other member stale
      exact fresh other member
        ((contraction.stale_iff outbound wf member).mpr (.inl stale))
    · intro other member joins
      by_contra different
      exact fresh other member
        ((contraction.stale_iff outbound wf member).mpr
          (.inr ⟨joins, different⟩))
  · rintro ⟨fresh, onlyLink⟩ other member stale
    cases (contraction.stale_iff outbound wf member).mp stale with
    | inl before => exact fresh other member before
    | inr new => exact new.2 (onlyLink other member new.1)

end Merge

theorem Refused.not_contracts (refused : Refused graph edge state) :
    ¬ Contracts graph state edge := by
  intro contracts
  cases refused with
  | notAnOp either => simp [contracts.srcOp, contracts.dstOp] at either
  | unsupported either =>
      simp [contracts.srcMarked, contracts.dstMarked] at either
  | deadness check => simp [contracts.check] at check
  | path check cycle => exact contracts.only (cycle contracts.there)

theorem Contraction.contracts {gc : Rep} {merged : State}
    (contraction : Contraction graph linked shadowed edge state gc merged)
    (contractible : Contractible graph edge)
    (check : canContractEdgeDeadnessCheck graph state edge = .ok true) :
    Contracts graph state edge where
  srcOp := contractible.srcOp
  dstOp := contractible.dstOp
  srcMarked := contractible.srcMarked
  dstMarked := contractible.dstMarked
  check := check
  there := contraction.there
  only := contraction.contracted.accepted.mp rfl

/-- No outgoing edge is stale after a run exactly if none was at its start, and
each contraction was of the only edge between its clusters. -/
theorem Run.fresh_iff {start : State} {steps : List (State × Edge)}
    (wf : graph.WF) (run : Run graph start steps state)
    (inv : Inv graph linked shadowed start) (outbound : Outbound graph start) :
    Inv graph linked shadowed state ∧ Outbound graph state ∧
      ((∀ other ∈ graph.edges, ¬ Stale state other) ↔
        (∀ other ∈ graph.edges, ¬ Stale start other) ∧
          ∀ step ∈ steps, Contracts graph step.1 step.2 →
          OnlyLink graph step.1 step.2) := by
  induction run with
  | start => exact ⟨inv, outbound, by simp⟩
  | @tried steps edge state next changed earlier member success ih =>
      obtain ⟨before, outboundBefore, freshBefore⟩ := ih
      have after := (tryContract_tried wf member before success).inv before
      refine ⟨after, ?_⟩
      rw [List.forall_mem_append, List.forall_mem_singleton, ← and_assoc,
        ← freshBefore]
      cases tryContract_decided wf member before success with
      | kept settled refused =>
          refine ⟨⟨outboundBefore.inside, outboundBefore.leaving⟩, ?_⟩
          have notContracts := refused.not_contracts
          constructor
          · intro fresh
            refine ⟨?_, fun contracts => absurd contracts notContracts⟩
            exact fun other inGraph stale =>
              fresh other inGraph ⟨stale.together, stale.listed⟩
          · intro both other inGraph stale
            exact both.1 other inGraph ⟨stale.together, stale.listed⟩
      | @merged gc check contraction =>
          have contracts :=
            contraction.contracts
              (tryContract_contractible member success) check
          have outboundAfter := contraction.preservesOutbound outboundBefore wf
          have freshAfter := contraction.fresh_iff outboundBefore wf
          refine ⟨⟨outboundAfter.inside, outboundAfter.leaving⟩, ?_⟩
          constructor
          · intro fresh
            obtain ⟨freshState, onlyLink⟩ :=
              freshAfter.mp fun other inGraph stale =>
              fresh other inGraph ⟨stale.together, stale.listed⟩
            exact ⟨freshState, fun _ => onlyLink⟩
          · rintro ⟨freshState, onlyLink⟩ other inGraph stale
            exact freshAfter.mpr ⟨freshState, onlyLink contracts⟩ other inGraph
              ⟨stale.together, stale.listed⟩

theorem prepared_outgoing {order : graph.Enumeration} {hasher : Hasher}
    (wf : graph.WF) (success : prepared order hasher = .ok state) {id : Nat}
    (idNode : graph.HasNode id) :
    state.cluster_map id = id ∧
    (state.cluster id).outgoing_edges = order.out_edges id := by
  obtain ⟨predicate_map, first, gc, added, rfl⟩ := prepared_nodes success
  have alone := addNodes_apart wf added
  obtain ⟨node, member, rfl⟩ := idNode
  refine ⟨alone.cluster_map _, ?_⟩
  change (first.heap (first.cluster_map node.id)).outgoing_edges = _
  rw [alone.cluster_map]
  exact alone.outgoing node member

theorem prepared_outbound {order : graph.Enumeration} {hasher : Hasher}
    (wf : graph.WF) (success : prepared order hasher = .ok state) :
    Outbound graph state where
  inside := by
    intro id idNode edge listed
    rw [(prepared_outgoing wf success idNode).2, order.mem_out_edges] at listed
    exact ⟨listed.1, by rw [listed.2]⟩
  leaving := by
    intro edge member _
    rw [(prepared_outgoing wf success (wf.src edge member)).2,
      order.mem_out_edges]
    exact ⟨member, rfl⟩

theorem prepared_stale {order : graph.Enumeration} {hasher : Hasher}
    (wf : graph.WF) (success : prepared order hasher = .ok state)
    (member : edge ∈ graph.edges) :
    Stale state edge ↔ edge.src = edge.dst := by
  obtain ⟨atSource, outgoing⟩ :=
    prepared_outgoing wf success (wf.src edge member)
  have atTarget := (prepared_outgoing wf success (wf.dst edge member)).1
  constructor
  · intro stale
    have together := stale.together
    rwa [atSource, atTarget] at together
  · intro loop
    refine ⟨by rw [loop], ?_⟩
    rw [outgoing, order.mem_out_edges]
    exact ⟨member, rfl⟩

end Outgoing

/-- The outgoing edges are exact after a run of tries if and only if no edge
joins a node to itself and every contraction was of the only edge between its
clusters. -/
theorem run_outgoing_iff {graph : Graph} {hasher : Hasher}
    {order : graph.Enumeration} {start state : State}
    {steps : List (State × Edge)} (wf : graph.WF)
    (atStart : prepared order hasher = .ok start)
    (run : Run graph start steps state) :
    OutgoingExact graph state ↔ (∀ edge ∈ graph.edges, edge.src ≠ edge.dst) ∧
      ∀ step ∈ steps, Contracts graph step.1 step.2 →
      OnlyLink graph step.1 step.2 := by
  obtain ⟨inv, _⟩ := prepared_inv wf atStart
  obtain ⟨stateInv, outbound, fresh⟩ :=
    run.fresh_iff wf inv (prepared_outbound wf atStart)
  rw [outgoingExact_iff wf stateInv outbound, fresh]
  apply and_congr_left
  intro _
  apply forall₂_congr
  intro edge member
  rw [prepared_stale wf atStart member]

/-- A product of a value with itself, and a sum that one branch of a switch
feeds. -/
def parallelGraph : Graph where
  nodes := [
    ⟨0, "_SOURCE", "NoOp", [], [], [], "", []⟩,
    ⟨1, "_SINK", "NoOp", [], [], [], "", []⟩,
    ⟨2, "cond", "Placeholder", [], [], [.DT_BOOL], "", []⟩,
    ⟨3, "x", "Placeholder", [], [], [.DT_FLOAT], "", []⟩,
    ⟨4, "switch", "Switch", [], [.DT_FLOAT, .DT_BOOL],
      [.DT_FLOAT, .DT_FLOAT], "", ["x", "cond"]⟩,
    ⟨5, "abs", "Abs", [("_ngraph_marked_for_clustering", .b true)], [.DT_FLOAT],
      [.DT_FLOAT], "", ["x"]⟩,
    ⟨6, "mul", "Mul", [("_ngraph_marked_for_clustering", .b true)],
      [.DT_FLOAT, .DT_FLOAT], [.DT_FLOAT], "", ["abs", "abs"]⟩,
    ⟨7, "add", "Add", [("_ngraph_marked_for_clustering", .b true)],
      [.DT_FLOAT, .DT_FLOAT], [.DT_FLOAT], "", ["mul", "switch:1"]⟩]
  edges :=
    [⟨0, 0, -1, 2, -1⟩, ⟨1, 0, -1, 3, -1⟩, ⟨2, 3, 0, 4, 0⟩, ⟨3, 2, 0, 4, 1⟩,
      ⟨4, 3, 0, 5, 0⟩, ⟨5, 5, 0, 6, 0⟩, ⟨6, 5, 0, 6, 1⟩, ⟨7, 6, 0, 7, 0⟩,
      ⟨8, 4, 1, 7, 1⟩, ⟨9, 7, -1, 1, -1⟩]

/-- The second edge into the product is stale after the first is contracted, and
the check turns down the only edge that leaves the merged cluster. -/
theorem run_outgoing_stale :
    ∃ start state, prepared parallelGraph.byInsertion constantHasher =
      .ok start ∧
      Run parallelGraph start [(start, ⟨5, 5, 0, 6, 0⟩)] state ∧
      ¬ OutgoingExact parallelGraph state ∧
      canContractEdgeDeadnessCheck parallelGraph state ⟨7, 6, 0, 7, 0⟩ =
        .ok false := by
  have passes : (prepared parallelGraph.byInsertion constantHasher >>=
      tryContract parallelGraph ⟨5, 5, 0, 6, 0⟩).toOption.map (fun tried =>
        decide (6 ∈ (tried.1.cluster 5).nodes ∧
          ⟨6, 5, 0, 6, 1⟩ ∈ (tried.1.cluster 5).outgoing_edges ∧
          (canContractEdgeDeadnessCheck parallelGraph tried.1
            ⟨7, 6, 0, 7, 0⟩).toOption =
            some false)) = some true := by
    decide
  cases atStart : prepared parallelGraph.byInsertion constantHasher with
  | error error => simp [atStart, Except.toOption, bind, Except.bind] at passes
  | ok start =>
      cases atTry : tryContract parallelGraph ⟨5, 5, 0, 6, 0⟩ start with
      | error error =>
          simp [atStart, atTry, Except.toOption, bind, Except.bind] at passes
      | ok tried =>
          rw [atStart] at passes
          change (tryContract parallelGraph ⟨5, 5, 0, 6, 0⟩ start).toOption.map
            _ = _ at passes
          rw [atTry] at passes
          obtain ⟨inside, listed, refused⟩ :=
            of_decide_eq_true (Option.some.inj passes)
          refine ⟨start, tried.1, rfl, .tried .start (by decide) atTry, ?_, ?_⟩
          · intro isExact
            exact ((isExact.outgoing 5 (by decide) _).mp listed).dst inside
          · cases check : canContractEdgeDeadnessCheck parallelGraph tried.1
              ⟨7, 6, 0, 7, 0⟩ with
            | error error => simp [check, Except.toOption] at refused
            | ok accepted =>
                rw [check] at refused
                exact congrArg Except.ok (Option.some.inj refused)

theorem run_outgoing_iff_switchGraph :
    ∃ start state, prepared switchGraph.byInsertion constantHasher = .ok start ∧
      Run switchGraph start [(start, ⟨5, 5, 0, 6, 0⟩)] state ∧
      OutgoingExact switchGraph state := by
  have passes : (prepared switchGraph.byInsertion constantHasher >>=
      tryContract switchGraph ⟨5, 5, 0, 6, 0⟩).toOption.isSome = true := by
    decide
  cases atStart : prepared switchGraph.byInsertion constantHasher with
  | error error => simp [atStart, Except.toOption, bind, Except.bind] at passes
  | ok start =>
      cases atTry : tryContract switchGraph ⟨5, 5, 0, 6, 0⟩ start with
      | error error =>
          simp [atStart, atTry, Except.toOption, bind, Except.bind] at passes
      | ok tried =>
          have run : Run switchGraph start [(start, ⟨5, 5, 0, 6, 0⟩)] tried.1 :=
            .tried .start (by decide) atTry
          refine ⟨start, tried.1, rfl, run,
            (run_outgoing_iff switchGraph_wf atStart run).mpr ?_⟩
          refine ⟨by decide, ?_⟩
          intro step member _ other inGraph joins
          obtain rfl := List.mem_singleton.mp member
          have alone := (prepared_inv switchGraph_wf atStart).2
          simp only [Joins, alone] at joins
          dsimp only
          revert other
          decide

end NGraphBridge.AssignClusters
