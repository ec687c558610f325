import NGraphBridge.AssignClusters.Convexity
import NGraphBridge.Deadness.Errors

/-!
# Clustering and its internal errors

The pass checks again and again that its clusters respect deadness, and gives
up with an internal error where they do not.  The predicates of clusters change
while they are merged, so the checks rest on an invariant that ties the
predicate of a cluster to those of the clusters it leads to.
-/

namespace NGraphBridge.AssignClusters

open TF Deadness GraphCycles MarkForClustering Relation
  NGraphBridge.Digraph Predicate

/-- A marking of data-flow nodes.  Only marked nodes have static inputs. -/
structure Marking (graph : Graph) : Prop where
  op : ∀ node ∈ graph.nodes, nodeIsMarkedForClustering node = true →
    node.isOp = true
  notControlFlow : ∀ node ∈ graph.nodes, nodeIsMarkedForClustering node = true →
    node.isControlFlow = false
  notTrigger : ∀ node ∈ graph.nodes, nodeIsMarkedForClustering node = true →
    node.isControlTrigger = false
  static : ∀ node ∈ graph.nodes, getStaticInputs node ≠ [] →
    nodeIsMarkedForClustering node = true

section Told

variable {graph : Graph} {hasher : Hasher} {order : graph.Enumeration}
  {predicate_map : PredicateMap}

theorem getNodePredicate_cases {node : Node} {pred_string : String}
    (isOp : node.isOp = true) (notControlFlow : node.isControlFlow = false)
    (success : getNodePredicate order predicate_map node = .ok pred_string) :
    pred_string = "" ∨ ∃ pred, pred_string = pred.toString ∧
      (∃ edge ∈ graph.edges, edge.src = node.id) ∧
      ∀ edge ∈ graph.edges, edge.src = node.id →
        predicate_map (inputEdgeToTensorId graph edge) = some pred := by
  by_cases outgoing : ∃ edge ∈ graph.edges, edge.src = node.id
  · obtain ⟨pred, text, all⟩ :=
      getNodePredicate_ok isOp notControlFlow outgoing success
    exact .inr ⟨pred, text, outgoing, all⟩
  · left
    have noEdges : order.out_edges node.id = [] := by
      rw [List.eq_nil_iff_forall_not_mem]
      intro edge member
      exact outgoing ⟨edge, (order.mem_out_edges node.id edge).mp member⟩
    simp only [Node.isOp, Bool.and_eq_true, Bool.not_eq_true'] at isOp
    unfold getNodePredicate at success
    rw [if_neg (by simp [isOp.1, isOp.2, notControlFlow]), noEdges] at success
    exact (Except.ok.inj success).symm

/-- A marked node that is live in every run is fed by nodes that are. -/
theorem getNodePredicate_fed (analysed : Analysed hasher order predicate_map)
    (wf : graph.WF) (marking : Marking graph) {edge : Edge}
    (inGraph : edge ∈ graph.edges) (srcOp : (graph.node edge.src).isOp = true)
    (srcPlain : (graph.node edge.src).isControlFlow = false)
    (dstMarked : nodeIsMarkedForClustering (graph.node edge.dst) = true)
    {srcPred dstPred : String}
    (atSrc : getNodePredicate order predicate_map (graph.node edge.src) =
      .ok srcPred)
    (atDst : getNodePredicate order predicate_map (graph.node edge.dst) =
      .ok dstPred)
    (isTrue : isTruePredString dstPred = true) :
    isTruePredString srcPred = true := by
  obtain ⟨dstIn, dstId⟩ := wf.node_mem (wf.dst edge inGraph)
  have srcId := (wf.node_mem (wf.src edge inGraph)).2
  have dstPlain := marking.notControlFlow _ dstIn dstMarked
  cases getNodePredicate_cases (marking.op _ dstIn dstMarked) dstPlain atDst
    with
  | inl empty => simp [empty, isTruePredString, truePredString] at isTrue
  | inr known =>
      obtain ⟨pred, rfl, ⟨out, outIn, leaves⟩, all⟩ := known
      have atOut := all out outIn leaves
      have isTrivial :=
        trivial_of_isTruePredString (analysed.normal _ _ atOut) isTrue
      subst isTrivial
      rw [inputEdgeToTensorId, tensorId, leaves, dstId] at atOut
      have atEdge := analysed.trivial_input wf dstIn dstPlain
        (marking.notTrigger _ dstIn dstMarked) atOut
        ((order.mem_in_edges _ edge).mpr ⟨inGraph, dstId.symm⟩)
      obtain ⟨found, text, read⟩ :=
        getNodePredicate_ok srcOp srcPlain ⟨edge, inGraph, srcId.symm⟩ atSrc
      have same := read edge inGraph srcId.symm
      rw [atEdge] at same
      obtain rfl := Option.some.inj same
      rw [text]
      rfl

/-- What is on record about the predicates of marked nodes. -/
structure Told (graph : Graph) (nodes_predicate_map : Nat → Option String) :
    Prop where
  recorded : ∀ {id}, graph.HasNode id → ∃ pred_string,
    nodes_predicate_map id = some pred_string
  plain : ∀ {id pred_string}, graph.HasNode id →
    nodeIsMarkedForClustering (graph.node id) = true →
    nodes_predicate_map id = some pred_string →
    isControlFlowPredString pred_string = false
  fed : ∀ edge ∈ graph.edges,
    nodeIsMarkedForClustering (graph.node edge.src) = true →
    nodeIsMarkedForClustering (graph.node edge.dst) = true →
    ∀ {srcPred dstPred}, nodes_predicate_map edge.src = some srcPred →
    nodes_predicate_map edge.dst = some dstPred →
    isTruePredString dstPred = true → isTruePredString srcPred = true

theorem told_of_recorded {nodes_predicate_map : Nat → Option String}
    (analysed : Analysed hasher order predicate_map) (wf : graph.WF)
    (marking : Marking graph)
    (recorded : Recorded order predicate_map nodes_predicate_map) :
    Told graph nodes_predicate_map := by
  have read : ∀ {id pred_string}, graph.HasNode id →
      nodes_predicate_map id = some pred_string →
      getNodePredicate order predicate_map (graph.node id) =
        .ok pred_string := by
    intro id pred_string idNode found
    obtain ⟨inNodes, sameId⟩ := wf.node_mem idNode
    obtain ⟨other, success, atNode⟩ := recorded _ inNodes
    rw [sameId, found, Option.some.injEq] at atNode
    rw [success, atNode]
  constructor
  case recorded =>
    intro id idNode
    obtain ⟨inNodes, sameId⟩ := wf.node_mem idNode
    obtain ⟨pred_string, _, atNode⟩ := recorded _ inNodes
    exact ⟨pred_string, sameId ▸ atNode⟩
  case plain =>
    intro id pred_string idNode marked found
    have inNodes := (wf.node_mem idNode).1
    cases getNodePredicate_cases (marking.op _ inNodes marked)
        (marking.notControlFlow _ inNodes marked) (read idNode found) with
    | inl empty =>
        rw [empty]
        rfl
    | inr known =>
        obtain ⟨pred, rfl, ⟨edge, inGraph, leaves⟩, all⟩ := known
        exact not_controlFlowPredString
          (analysed.normal _ _ (all edge inGraph leaves))
  case fed =>
    intro edge inGraph srcMarked dstMarked srcPred dstPred atSrc atDst isTrue
    have srcIn := (wf.node_mem (wf.src edge inGraph)).1
    exact getNodePredicate_fed analysed wf marking inGraph
      (marking.op _ srcIn srcMarked)
      (marking.notControlFlow _ srcIn srcMarked) dstMarked
      (read (wf.src edge inGraph) atSrc)
      (read (wf.dst edge inGraph) atDst) isTrue

end Told

section Nodes

variable {graph : Graph} {hasher : Hasher} {order : graph.Enumeration}
  {predicate_map : PredicateMap}

theorem addNodes_noInternal (analysed : Analysed hasher order predicate_map)
    (wf : graph.WF) {nodes : List Node}
    (inside : ∀ node ∈ nodes, node ∈ graph.nodes) (state : State) :
    NoInternal (addNodes order predicate_map nodes state) := by
  induction nodes generalizing state with
  | nil => exact noInternal_ok _
  | cons node nodes ih =>
      have first : NoInternal (addNode order predicate_map state node) := by
        apply (analysed.getNodePredicate_noInternal wf
            (inside node (by simp))).bind
        intro pred_string _
        exact noInternal_ok _
      apply first.bind
      intro next _
      exact ih (fun node member => inside node (by simp [member])) next

/-- Clusters of single nodes, with all edges of theirs, and no edge between
their indices. -/
structure Apart (order : graph.Enumeration) (done : List Node) (state : State) :
    Prop where
  gc : state.gc.Inv
  unlinked : ∀ u v, ¬ state.gc.Edge u v
  cluster_map : ∀ id, state.cluster_map id = id
  outgoing : ∀ node ∈ done, (state.heap node.id).outgoing_edges =
    order.out_edges node.id

theorem Apart.addNode {done : List Node} {state next : State} {node : Node}
    (alone : Apart order done state) (new : ∀ old ∈ done, old.id ≠ node.id)
    (success : addNode order predicate_map state node = .ok next) :
    Apart order (node :: done) next := by
  have gcInv := Rep.newNode_inv alone.gc
  have edges := Rep.newNode_edge alone.gc
  unfold AssignClusters.addNode at success
  generalize state.gc.newNode = created at success gcInv edges
  obtain ⟨pred_string, _, success⟩ := bind_ok success
  obtain rfl := Except.ok.inj success
  constructor
  case gc => exact gcInv
  case unlinked =>
    intro u v edge
    exact alone.unlinked u v ((edges u v).mp edge)
  case cluster_map =>
    intro id
    by_cases same : id = node.id
    · simp [same]
    · simp [same, alone.cluster_map]
  case outgoing =>
    intro old member
    cases List.mem_cons.mp member with
    | inl same => simp [same]
    | inr member =>
        dsimp only
        rw [Function.update_of_ne (new old member)]
        exact alone.outgoing old member

theorem addNodes_apart {state : State} (wf : graph.WF)
    (success : addNodes order predicate_map graph.nodes State.init =
      .ok state) :
    Apart order graph.nodes state := by
  have alone : Apart order [] State.init :=
    ⟨Rep.inv_empty, by simp [State.init, Rep.empty, Rep.Edge],
      fun _ => rfl, by simp⟩
  obtain ⟨all, members, result⟩ :=
    addNodes_preserves Apart.addNode alone (by simpa using wf.ids) success
  exact ⟨result.gc, result.unlinked, result.cluster_map,
    fun node member => result.outgoing node ((members node).mpr (.inr member))⟩

end Nodes

section Shadows

variable {graph : Graph} {state next : State}

theorem insertEdges_noInternal (edges : List Edge) (state : State) :
    NoInternal (insertEdges graph edges state) := by
  induction edges generalizing state with
  | nil => exact noInternal_ok _
  | cons edge edges ih =>
      unfold insertEdges
      split
      case isTrue => exact ih state
      case isFalse =>
        split
        · exact noInternal_error (by simp [errors.unimplemented])
        · exact ih _

/-- What no checked edge leads to stays without an edge. -/
theorem insertEdges_quiet {edges : List Edge} {target : Nat}
    (inv : state.gc.Inv)
    (live : ∀ edge ∈ edges, state.gc.Live (state.index edge.src) ∧
      state.gc.Live (state.index edge.dst))
    (other : ∀ edge ∈ edges, skipsCycleCheck graph edge = false →
      state.index edge.dst ≠ target)
    (quiet : ∀ u, ¬ state.gc.Edge u target)
    (success : insertEdges graph edges state = .ok next) :
    ∀ u, ¬ next.gc.Edge u target := by
  induction edges generalizing state with
  | nil =>
      obtain rfl := Except.ok.inj success
      exact quiet
  | cons edge edges ih =>
      have laterLive :=
        fun edge member => live edge (List.mem_cons_of_mem _ member)
      have laterOther :=
        fun edge member => other edge (List.mem_cons_of_mem _ member)
      cases insertEdges_cons_ok success with
      | inl left => exact ih inv laterLive laterOther quiet left.2
      | inr taken =>
          obtain ⟨checked, middle, accepted, success⟩ := taken
          obtain ⟨srcLive, dstLive⟩ := live edge (by simp)
          have elsewhere := other edge (by simp) checked
          have inserted := Rep.insertEdge_spec inv srcLive dstLive
          rw [accepted] at inserted
          refine @ih { state with gc := middle } inserted.inv ?_ laterOther
            ?_ success
          · intro edge member
            exact (laterLive edge member).imp (inserted.live _).mpr
              (inserted.live _).mpr
          · intro u new
            cases (inserted.edge u target).mp new with
            | inl old => exact quiet u old
            | inr atEdge => exact elsewhere atEdge.2.2.symm

/-- A node whose edges the cycle check leaves out. -/
def LeftOut (node : Node) : Prop :=
  node.isOp = false ∨ node.isNextIteration = true

/-- Every node has a cluster of its own, and nothing leads to the nodes that
the cycle check leaves out. -/
structure Ready (graph : Graph) (state : State) : Prop where
  inv : Inv graph (OpEdge graph) (fun _ => False) state
  cluster_map : ∀ id, state.cluster_map id = id
  loopless : ∀ id, ¬ OpEdge graph id id
  quiet : ∀ {id}, graph.HasNode id → LeftOut (graph.node id) →
    ∀ u, ¬ state.gc.Edge u (state.index id)

theorem Ready.index_injective (ready : Ready graph state) {a b : Nat}
    (aNode : graph.HasNode a) (bNode : graph.HasNode b)
    (same : state.index a = state.index b) : a = b := by
  have together := ready.inv.same aNode bNode same
  rwa [ready.cluster_map, ready.cluster_map] at together

theorem insertEdges_ready {order : graph.Enumeration} (wf : graph.WF)
    (inv : Inv graph (fun _ _ => False) (fun _ => False) state)
    (alone : Apart order graph.nodes state)
    (success : insertEdges graph order.edges state = .ok next) :
    Ready graph next ∧ ∃ gc, next = { state with gc := gc } := by
  have live := inv.edges_live wf order
  obtain ⟨nextInv, ⟨rank, increasing⟩, _⟩ :=
    insertEdges_inv wf order inv success
  obtain ⟨gc, same, _, _⟩ := insertEdges_ok inv.gc live success
  have index : ∀ id, next.index id = state.index id := by
    rw [same]
    exact fun _ => rfl
  refine ⟨?_, gc, same⟩
  constructor
  case inv => exact nextInv
  case cluster_map =>
    rw [same]
    exact alone.cluster_map
  case loopless => exact fun id loop => lt_irrefl _ (increasing loop)
  case quiet =>
    intro id idNode leftOut
    rw [index]
    refine insertEdges_quiet inv.gc live ?_
      (fun u => alone.unlinked u _) success
    intro edge member checked sameIndex
    have member := (order.mem_edges edge).mp member
    have together := inv.same (wf.dst edge member) idNode sameIndex
    rw [alone.cluster_map, alone.cluster_map] at together
    simp only [skipsCycleCheck, together, Bool.or_eq_false_iff,
      Bool.not_eq_false'] at checked
    cases leftOut with
    | inl notOp => simp [notOp] at checked
    | inr isNext => simp [isNext] at checked

/-- An edge whose end the cycle check does not leave out. -/
structure Shadowable (graph : Graph) (edge : Edge) : Prop where
  srcNode : graph.HasNode edge.src
  dstNode : graph.HasNode edge.dst
  taken : ¬ LeftOut (graph.node edge.dst)
  linked : LeftOut (graph.node edge.src) ∨ OpEdge graph edge.src edge.dst

theorem addShadow_ready {static_edge : Edge} (ready : Ready graph state)
    (shadowable : Shadowable graph static_edge) :
    ∃ gc, addShadow state static_edge = .ok { state with gc := gc } ∧
      Ready graph { state with gc := gc } := by
  have inv := ready.inv
  have srcLive := inv.live shadowable.srcNode
  have dstLive := inv.live shadowable.dstNode
  have created := Grown.newNode inv.gc
  have createdEdge := Rep.newNode_edge inv.gc
  have fresh := Rep.newNode_fresh state.gc
  have newLive := (Rep.newNode_live inv.gc state.gc.newNode.2).mpr (.inr rfl)
  have unfolded : addShadow state static_edge =
      (let created := state.gc.newNode
      let out := created.1.insertEdge (state.index static_edge.src) created.2
      let back := out.1.insertEdge created.2 (state.index static_edge.dst)
      if out.2 && back.2 then .ok { state with gc := back.1 }
      else
      .error
        (errors.internal "Unable to create shadow edges in GraphCycles")) := rfl
  rw [unfolded]
  generalize state.gc.newNode = new at created createdEdge fresh newLive
  obtain ⟨gc, s⟩ := new
  dsimp only at created createdEdge fresh newLive ⊢
  have notShadow : ∀ {id}, graph.HasNode id → state.index id ≠ s := by
    intro id idNode same
    exact fresh (same ▸ inv.live idNode)
  have outSpec := Rep.insertEdge_spec created.inv (created.live srcLive) newLive
  generalize gc.insertEdge (state.index static_edge.src) s = out at outSpec
  have srcOk : out.2 = true := by
    apply outSpec.accepted.mpr
    intro path
    cases path.cases_head with
    | inl same => exact notShadow shadowable.srcNode same.symm
    | inr step =>
        obtain ⟨w, edge, _⟩ := step
        exact fresh (inv.gc.live ((createdEdge _ _).mp edge)).1
  have outGrown := Grown.inserted outSpec
  have outLive := outGrown.live (created.live dstLive)
  have backSpec :=
    Rep.insertEdge_spec outGrown.inv (outGrown.live newLive) outLive
  generalize out.1.insertEdge s (state.index static_edge.dst) = back at backSpec
  have outEdge : ∀ u v, out.1.Edge u v → state.gc.Edge u v ∨
      (u = state.index static_edge.src ∧ v = s) := by
    intro u v edge
    cases (outSpec.edge u v).mp edge with
    | inl old => exact .inl ((createdEdge u v).mp old)
    | inr new => exact .inr new.2
  have dstOk : back.2 = true := by
    apply backSpec.accepted.mpr
    intro path
    -- only the source leads to the shadow, so it would be reached from its end
    have toSource : ReflTransGen out.1.Edge (state.index static_edge.dst)
        (state.index static_edge.src) := by
      cases path.cases_tail with
      | inl same => exact absurd same.symm (notShadow shadowable.dstNode)
      | inr step =>
          obtain ⟨w, before, edge⟩ := step
          cases outEdge w s edge with
          | inl old => exact absurd (inv.gc.live old).2 fresh
          | inr new => exact new.1 ▸ before
    cases shadowable.linked with
    | inl leftOut =>
        cases toSource.cases_tail with
        | inl same =>
            have sameNode :=
              ready.index_injective shadowable.srcNode shadowable.dstNode same
            exact shadowable.taken (sameNode ▸ leftOut)
        | inr step =>
            obtain ⟨w, _, edge⟩ := step
            cases outEdge w _ edge with
            | inl old => exact ready.quiet shadowable.srcNode leftOut w old
            | inr new => exact notShadow shadowable.srcNode new.2
    | inr linked =>
        have apart : state.index static_edge.src ≠
            state.index static_edge.dst := by
          intro same
          rw [ready.index_injective shadowable.srcNode shadowable.dstNode same]
            at linked
          exact ready.loopless _ linked
        have edge := outGrown.edge (created.edge (inv.edges linked apart))
        exact outSpec.inv.acyclic _ (TransGen.head' edge toSource)
  refine ⟨back.1, by rw [if_pos (by rw [srcOk, dstOk]; rfl)], ?_⟩
  have grown := created.trans (outGrown.trans (Grown.inserted backSpec))
  refine ⟨inv.grow grown, ready.cluster_map, ready.loopless, ?_⟩
  intro id idNode leftOut u new
  change back.1.Edge u (state.index id) at new
  cases (backSpec.edge _ _).mp new with
  | inl old =>
      cases outEdge _ _ old with
      | inl older => exact ready.quiet idNode leftOut u older
      | inr atShadow => exact notShadow idNode atShadow.2
  | inr atDst =>
      have sameNode := ready.index_injective idNode shadowable.dstNode atDst.2.2
      exact shadowable.taken (sameNode ▸ leftOut)

/-- Shadows change nothing but the graph of indices. -/
structure Shadowed (graph : Graph) (state next : State) : Prop where
  ready : Ready graph next
  others : ∃ gc, next = { state with gc := gc }

theorem Shadowed.trans {middle : State} (first : Shadowed graph state middle)
    (second : Shadowed graph middle next) : Shadowed graph state next := by
  obtain ⟨_, rfl⟩ := first.others
  obtain ⟨gc, rfl⟩ := second.others
  exact ⟨second.ready, gc, rfl⟩

/-- No internal error, and shadows if there is no error at all. -/
def Shades (graph : Graph) (state : State) (outcome : StatusOr State) : Prop :=
  NoInternal outcome ∧ ∀ next, outcome = .ok next → Shadowed graph state next

theorem Ready.shades (ready : Ready graph state) :
    Shades graph state (.ok state) := by
  refine ⟨noInternal_ok _, ?_⟩
  intro next success
  obtain rfl := Except.ok.inj success
  exact ⟨ready, state.gc, rfl⟩

theorem Shades.bind {outcome : StatusOr State} {rest : State → StatusOr State}
    (first : Shades graph state outcome)
    (second : ∀ middle, Ready graph middle →
      Shades graph middle (rest middle)) :
    Shades graph state (outcome >>= rest) := by
  constructor
  · apply first.1.bind
    intro middle found
    exact (second middle (first.2 middle found).ready).1
  · intro next success
    obtain ⟨middle, found, success⟩ := bind_ok success
    have shadowed := first.2 middle found
    exact shadowed.trans ((second middle shadowed.ready).2 next success)

theorem shadowEdge_shades {static_edge : Edge} (ready : Ready graph state)
    (shadowable : Shadowable graph static_edge) :
    Shades graph state (shadowEdge graph state static_edge) := by
  unfold shadowEdge
  split
  case isFalse => exact ready.shades
  case isTrue =>
    obtain ⟨gc, success, nextReady⟩ := addShadow_ready ready shadowable
    rw [success]
    refine ⟨noInternal_ok _, ?_⟩
    intro next found
    obtain rfl := Except.ok.inj found
    exact ⟨nextReady, gc, rfl⟩

theorem shadowEdges_shades {edges_to_node : List Edge}
    {static_inputs : List Int} (ready : Ready graph state)
    (shadowable : ∀ edge ∈ edges_to_node, Shadowable graph edge) :
    Shades graph state
      (shadowEdges graph edges_to_node static_inputs state) := by
  induction static_inputs generalizing state with
  | nil => exact ready.shades
  | cons idx static_inputs ih =>
      unfold shadowEdges
      cases found : staticEdge edges_to_node idx with
      | error error =>
          refine ⟨?_, by simp [bind, Except.bind]⟩
          unfold staticEdge at found
          split at found
          · simp at found
          · cases found
            exact noInternal_error (by simp [errors.check])
      | ok static_edge =>
          obtain ⟨_, _, atPosition⟩ := staticEdge_ok found
          have member := List.mem_of_getElem? atPosition
          exact (shadowEdge_shades ready (shadowable static_edge member)).bind
            (fun middle middleReady => ih middleReady)

theorem shadowNode_shades {node : Node} (wf : graph.WF)
    (marking : Marking graph) (order : graph.Enumeration)
    (member : node ∈ graph.nodes) (ready : Ready graph state) :
    Shades graph state (shadowNode order state node) := by
  unfold shadowNode
  split
  case isFalse => exact ready.shades
  case isTrue hasStatic =>
    have marked := marking.static node member (List.length_pos_iff.mp hasStatic)
    have isOp := marking.op node member marked
    have notNext := (not_switch_of_not_controlFlow
      (marking.notControlFlow node member marked)).2.2
    cases found : node.input_edges (order.in_edges node.id) with
    | error error =>
        have noInternal := wf.input_edges_noInternal order member
        rw [found] at noInternal
        refine ⟨?_, by simp [bind, Except.bind]⟩
        exact noInternal_error (noInternal error rfl)
    | ok edges_to_node =>
        apply shadowEdges_shades ready
        intro edge inInputs
        obtain ⟨position, atPosition⟩ := List.mem_iff_getElem?.mp inInputs
        have into := (Node.input_edges_ok found).2 position edge atPosition
        obtain ⟨inGraph, atNode⟩ := (order.mem_in_edges _ _).mp into.1
        refine ⟨wf.src edge inGraph, wf.dst edge inGraph, ?_, ?_⟩
        · rw [atNode, wf.node_eq member]
          simp [LeftOut, isOp, notNext]
        · by_cases leftOut : LeftOut (graph.node edge.src)
          · exact .inl leftOut
          · simp only [LeftOut, not_or, Bool.not_eq_false,
              Bool.not_eq_true] at leftOut
            refine .inr ⟨edge, inGraph, ?_, rfl, rfl⟩
            simp [skipsCycleCheck, atNode, wf.node_eq member, isOp, notNext,
              leftOut.1, leftOut.2]

theorem addShadows_shades {nodes : List Node} (wf : graph.WF)
    (marking : Marking graph) (order : graph.Enumeration)
    (inside : ∀ node ∈ nodes, node ∈ graph.nodes) (ready : Ready graph state) :
    Shades graph state (addShadows order nodes state) := by
  induction nodes generalizing state with
  | nil => exact ready.shades
  | cons node nodes ih =>
      exact (shadowNode_shades wf marking order (inside node (by simp))
          ready).bind (fun middle middleReady =>
          ih (fun node member => inside node (by simp [member])) middleReady)

end Shadows

section Tied

variable {graph : Graph} {linked : Nat → Nat → Prop} {shadowed : Edge → Prop}
  {state next : State} {edge : Edge}

def State.predicate_string (state : State) (id : Nat) : String :=
  (state.cluster id).predicate_string

/-- The predicates of clusters fit those of their nodes, and a cluster that is
not always live leads only to clusters that are not either.  A node that is
always live in such a cluster leads to clusters with the same predicate only. -/
structure Tied (graph : Graph) (state : State) : Prop where
  outgoing : ∀ edge ∈ graph.edges,
    state.cluster_map edge.src ≠ state.cluster_map edge.dst →
    edge ∈ (state.cluster edge.src).outgoing_edges
  forward : ∀ edge ∈ graph.edges,
    nodeIsMarkedForClustering (graph.node edge.src) = true →
    nodeIsMarkedForClustering (graph.node edge.dst) = true →
    isTruePredString (state.predicate_string edge.dst) = true →
    isTruePredString (state.predicate_string edge.src) = true
  own : ∀ {id pred_string}, graph.HasNode id →
    state.nodes_predicate_map id = some pred_string →
    isTruePredString pred_string = false →
    state.predicate_string id = pred_string
  leaving : ∀ {id pred_string}, graph.HasNode id →
    state.nodes_predicate_map id = some pred_string →
    isTruePredString pred_string = true →
    isTruePredString (state.predicate_string id) = false →
    ∀ edge ∈ graph.edges, edge.src = id →
      state.cluster_map edge.dst ≠ state.cluster_map id →
      state.predicate_string edge.dst = state.predicate_string id

theorem Tied.withGc (tied : Tied graph state) (gc : Rep) :
    Tied graph { state with gc := gc } :=
  ⟨tied.outgoing, tied.forward, tied.own, tied.leaving⟩

/-- At the start every cluster has the predicate of its only node. -/
theorem tied_of_apart {order : graph.Enumeration} (wf : graph.WF)
    (inv : Inv graph linked shadowed state)
    (alone : Apart order graph.nodes state)
    (told : Told graph state.nodes_predicate_map) : Tied graph state := by
  have recorded : ∀ {id}, graph.HasNode id →
      state.nodes_predicate_map id = some (state.predicate_string id) := by
    intro id idNode
    obtain ⟨other, _, together, found⟩ := inv.predicate idNode
    rw [alone.cluster_map, alone.cluster_map] at together
    rwa [together] at found
  constructor
  case outgoing =>
    intro edge inGraph _
    obtain ⟨srcIn, srcId⟩ := wf.node_mem (wf.src edge inGraph)
    have outgoing := alone.outgoing _ srcIn
    rw [srcId] at outgoing
    rw [State.cluster, alone.cluster_map, outgoing, order.mem_out_edges]
    exact ⟨inGraph, rfl⟩
  case forward =>
    intro edge inGraph srcMarked dstMarked isTrue
    exact told.fed edge inGraph srcMarked dstMarked
      (recorded (wf.src edge inGraph)) (recorded (wf.dst edge inGraph)) isTrue
  case own =>
    intro id pred_string idNode found _
    rw [recorded idNode] at found
    exact Option.some.inj found
  case leaving =>
    intro id pred_string idNode found isTrue notTrue
    rw [recorded idNode] at found
    obtain rfl := Option.some.inj found
    rw [isTrue] at notTrue
    exact absurd notTrue (by simp)

theorem moveNodes_outgoing (src_cluster : Nat) (nodes : List Nat)
    (state : State) (r : Nat) :
    ((moveNodes src_cluster nodes state).heap r).outgoing_edges =
      (state.heap r).outgoing_edges := by
  induction nodes generalizing state with
  | nil => rfl
  | cons node nodes ih =>
      rw [moveNodes, ih, State.setPointer_heap]
      by_cases same : r = src_cluster
      · rw [same, State.setCluster_heap_self]
      · rw [State.setCluster_heap_of_ne _ _ _ same]

theorem mergeClusters_outgoing (edge : Edge) (state : State) :
    ((mergeClusters edge state).heap
      (state.cluster_map edge.src)).outgoing_edges =
      ((state.cluster edge.src).outgoing_edges ∪
        (state.cluster edge.dst).outgoing_edges).filter (· != edge) := by
  rw [mergeClusters, moveNodes_outgoing, State.setCluster_heap_self]

/-- The check that lets an edge be contracted has seen to it that the merged
cluster has the predicate of the destination, and that what the source leads
to has it too if the source has another. -/
structure Allowed (state : State) (edge : Edge) : Prop where
  merged : getMergedClusterPred (state.predicate_string edge.src)
    (state.predicate_string edge.dst) = state.predicate_string edge.dst
  source : state.predicate_string edge.src = state.predicate_string edge.dst ∨
    (isTruePredString (state.predicate_string edge.src) = true ∧
      isTruePredString (state.predicate_string edge.dst) = false ∧
      ∀ other ∈ (state.cluster edge.src).outgoing_edges, other ≠ edge →
        state.predicate_string other.dst = state.predicate_string edge.dst)

theorem eq_true_of_isTruePredString {left right : String}
    (leftTrue : isTruePredString left = true)
    (rightTrue : isTruePredString right = true) :
    left = right := by
  simp only [isTruePredString, beq_iff_eq] at leftTrue rightTrue
  rw [leftTrue, rightTrue]

/-- An edge between marked nodes passes the check, or is turned down, without
an error. -/
theorem canContract_ok (tied : Tied graph state) (inGraph : edge ∈ graph.edges)
    (srcMarked : nodeIsMarkedForClustering (graph.node edge.src) = true)
    (dstMarked : nodeIsMarkedForClustering (graph.node edge.dst) = true)
    (srcPlain : isControlFlowPredString (state.predicate_string edge.src) =
      false)
    (dstPlain : isControlFlowPredString (state.predicate_string edge.dst) =
      false) :
    ∃ accepted, canContractEdgeDeadnessCheck graph state edge = .ok accepted ∧
      (accepted = true → Allowed state edge) := by
  have forward := tied.forward edge inGraph srcMarked dstMarked
  simp only [State.predicate_string] at forward srcPlain dstPlain
  unfold canContractEdgeDeadnessCheck
  dsimp only
  rw [if_neg (by simp [srcPlain, dstPlain])]
  by_cases srcTrue :
      isTruePredString (state.cluster edge.src).predicate_string = true
  · rw [if_neg (by simp [srcTrue]), if_neg (by simp [srcTrue])]
    split
    case isTrue => exact ⟨false, rfl, by simp⟩
    case isFalse unconstrained =>
      refine ⟨true, rfl, fun _ => ⟨?_, ?_⟩⟩
      · simp [getMergedClusterPred, State.predicate_string, srcTrue]
      · by_cases dstTrue :
            isTruePredString (state.cluster edge.dst).predicate_string = true
        · exact .inl (eq_true_of_isTruePredString srcTrue dstTrue)
        · have dstNotTrue := Bool.not_eq_true _ ▸ dstTrue
          refine .inr ⟨srcTrue, dstNotTrue, ?_⟩
          intro other member different
          by_contra otherPredicate
          apply unconstrained
          rw [srcTrue, Bool.true_and, List.any_eq_true]
          refine ⟨other, member, ?_⟩
          simp only [Bool.and_eq_true, bne_iff_ne, Bool.not_eq_true']
          exact ⟨⟨different, dstNotTrue⟩, Ne.symm otherPredicate⟩
  · have dstNotTrue :
        isTruePredString (state.cluster edge.dst).predicate_string = false := by
      rw [← Bool.not_eq_true]
      exact fun dstTrue => srcTrue (forward dstTrue)
    have srcNotTrue :
        isTruePredString (state.cluster edge.src).predicate_string = false := by
      simpa using srcTrue
    split
    case isTrue => exact ⟨false, rfl, by simp⟩
    case isFalse alike =>
      rw [if_neg (by simp [dstNotTrue]), if_neg (by simp [srcNotTrue])]
      have same : (state.cluster edge.src).predicate_string =
          (state.cluster edge.dst).predicate_string := by
        simpa [srcNotTrue, dstNotTrue] using alike
      refine ⟨true, rfl, fun _ => ⟨?_, .inl same⟩⟩
      simp [getMergedClusterPred, State.predicate_string, same]

section Merge

variable {gc : Rep}
  (contraction :
    Contraction graph linked shadowed edge state gc (mergeClusters edge state))
  (allowed : Allowed state edge)

include contraction

theorem Contraction.apart_before {a b : Nat} (aNode : graph.HasNode a)
    (bNode : graph.HasNode b)
    (different : (mergeClusters edge state).cluster_map a ≠
      (mergeClusters edge state).cluster_map b) :
    state.cluster_map a ≠ state.cluster_map b := by
  intro together
  rw [contraction.map aNode, contraction.map bNode, together] at different
  exact different rfl

/-- A merge loses no outgoing edge but the one it contracts. -/
theorem Contraction.outgoing_kept {other : Edge}
    (srcNode : graph.HasNode other.src) (notEdge : other ≠ edge)
    (listed : other ∈ (state.cluster other.src).outgoing_edges) :
    other ∈ ((mergeClusters edge state).cluster other.src).outgoing_edges := by
  have moved := contraction.map srcNode
  rw [State.cluster]
  by_cases inDst : state.cluster_map other.src = state.cluster_map edge.dst
  · rw [inDst, merge_dropped] at moved
    rw [State.cluster, inDst] at listed
    rw [moved, mergeClusters_outgoing, List.mem_filter, List.mem_union_iff]
    exact ⟨.inr listed, by simpa using notEdge⟩
  · rw [merge_of_ne inDst] at moved
    rw [State.cluster] at listed
    by_cases inSrc : state.cluster_map other.src = state.cluster_map edge.src
    · rw [inSrc] at listed
      rw [moved, inSrc, mergeClusters_outgoing, List.mem_filter,
        List.mem_union_iff]
      exact ⟨.inl listed, by simpa using notEdge⟩
    · rw [moved, contraction.merged.other _ inSrc]
      exact listed

include allowed

/-- A merge gives the predicate of the destination to the source. -/
theorem Contraction.predicate_string {id : Nat} (idNode : graph.HasNode id) :
    (mergeClusters edge state).predicate_string id =
      if state.cluster_map id = state.cluster_map edge.src then
        state.predicate_string edge.dst
      else state.predicate_string id := by
  have moved := contraction.map idNode
  rw [State.predicate_string, State.cluster]
  by_cases inDst : state.cluster_map id = state.cluster_map edge.dst
  · rw [inDst, merge_dropped] at moved
    have notSrc : state.cluster_map id ≠ state.cluster_map edge.src := by
      rw [inDst]
      exact Ne.symm contraction.pointersApart
    rw [moved, contraction.merged.predicate, if_neg notSrc]
    refine Eq.trans allowed.merged ?_
    rw [State.predicate_string, State.predicate_string, State.cluster,
      State.cluster, inDst]
  · rw [merge_of_ne inDst] at moved
    by_cases inSrc : state.cluster_map id = state.cluster_map edge.src
    · rw [moved, inSrc, contraction.merged.predicate, if_pos rfl]
      exact allowed.merged
    · rw [moved, contraction.merged.other _ inSrc, if_neg inSrc]
      rfl

omit contraction allowed in
theorem predicate_string_of_source {id : Nat}
    (inSrc : state.cluster_map id = state.cluster_map edge.src) :
    state.predicate_string id = state.predicate_string edge.src := by
  rw [State.predicate_string, State.cluster, inSrc]
  rfl

omit contraction allowed in
theorem Tied.leaves (tied : Tied graph state)
    (bound : ∀ other ∈ (state.cluster edge.src).outgoing_edges, other ≠ edge →
      state.predicate_string other.dst = state.predicate_string edge.dst)
    {other : Edge} (inGraph : other ∈ graph.edges)
    (inSrc : state.cluster_map other.src = state.cluster_map edge.src)
    (outside : state.cluster_map other.dst ≠ state.cluster_map edge.src) :
    state.predicate_string other.dst = state.predicate_string edge.dst := by
  by_cases same : other = edge
  · rw [same]
  · apply bound other _ same
    have listed := tied.outgoing other inGraph (inSrc ▸ Ne.symm outside)
    rwa [State.cluster, inSrc] at listed

omit contraction in
theorem Allowed.of_source {pred_string : String}
    (atSource : state.predicate_string edge.src = pred_string)
    (notTrue : isTruePredString pred_string = false) :
    state.predicate_string edge.dst = pred_string := by
  cases allowed.source with
  | inl same => rw [← same, atSource]
  | inr absorbed =>
      rw [atSource, notTrue] at absorbed
      simp at absorbed

section Tied

variable (wf : graph.WF) (tied : Tied graph state)

include wf tied

omit allowed in
theorem Contraction.tied_outgoing : ∀ other ∈ graph.edges,
    (mergeClusters edge state).cluster_map other.src ≠
      (mergeClusters edge state).cluster_map other.dst →
    other ∈ ((mergeClusters edge state).cluster other.src).outgoing_edges := by
  intro other inGraph different
  have srcNode := wf.src other inGraph
  have notEdge : other ≠ edge := by
    rintro rfl
    rw [contraction.map srcNode, contraction.map (wf.dst other inGraph),
      merge_kept, merge_dropped] at different
    exact different rfl
  have listed := tied.outgoing other inGraph
    (contraction.apart_before srcNode (wf.dst other inGraph) different)
  exact contraction.outgoing_kept srcNode notEdge listed

theorem Contraction.tied_forward : ∀ other ∈ graph.edges,
    nodeIsMarkedForClustering (graph.node other.src) = true →
    nodeIsMarkedForClustering (graph.node other.dst) = true →
    isTruePredString ((mergeClusters edge state).predicate_string other.dst) =
      true →
    isTruePredString ((mergeClusters edge state).predicate_string other.src) =
      true := by
  intro other inGraph srcMarked dstMarked
  rw [contraction.predicate_string allowed (wf.src other inGraph),
    contraction.predicate_string allowed (wf.dst other inGraph)]
  intro dstTrue
  have old := tied.forward other inGraph srcMarked dstMarked
  by_cases inSrc : state.cluster_map other.src = state.cluster_map edge.src
  · rw [if_pos inSrc]
    by_cases dstInSrc : state.cluster_map other.dst = state.cluster_map edge.src
    · rwa [if_pos dstInSrc] at dstTrue
    · rw [if_neg dstInSrc] at dstTrue
      cases allowed.source with
      | inl same => rw [← same, ← predicate_string_of_source inSrc, old dstTrue]
      | inr absorbed =>
          obtain ⟨_, _, bound⟩ := absorbed
          rw [← tied.leaves bound inGraph inSrc dstInSrc, dstTrue]
  · rw [if_neg inSrc]
    apply old
    by_cases dstInSrc : state.cluster_map other.dst = state.cluster_map edge.src
    · rw [if_pos dstInSrc] at dstTrue
      rw [predicate_string_of_source dstInSrc]
      cases allowed.source with
      | inl same => rwa [same]
      | inr absorbed => exact absorbed.1
    · rwa [if_neg dstInSrc] at dstTrue

omit wf in
theorem Contraction.tied_own {id : Nat} {pred_string : String}
    (idNode : graph.HasNode id)
    (found : state.nodes_predicate_map id = some pred_string)
    (notTrue : isTruePredString pred_string = false) :
    (mergeClusters edge state).predicate_string id = pred_string := by
  have old := tied.own idNode found notTrue
  rw [contraction.predicate_string allowed idNode]
  split
  case isFalse => exact old
  case isTrue inSrc =>
    exact allowed.of_source ((predicate_string_of_source inSrc).symm.trans old)
      notTrue

theorem Contraction.tied_leaving {id : Nat} {pred_string : String}
    (idNode : graph.HasNode id)
    (found : state.nodes_predicate_map id = some pred_string)
    (isTrue : isTruePredString pred_string = true)
    (notTrue : isTruePredString
      ((mergeClusters edge state).predicate_string id) = false)
    {other : Edge} (inGraph : other ∈ graph.edges) (atSrc : other.src = id)
    (different : (mergeClusters edge state).cluster_map other.dst ≠
      (mergeClusters edge state).cluster_map id) :
    (mergeClusters edge state).predicate_string other.dst =
      (mergeClusters edge state).predicate_string id := by
  have dstNode := wf.dst other inGraph
  have before := contraction.apart_before dstNode idNode different
  have old := tied.leaving idNode found isTrue
  rw [contraction.predicate_string allowed idNode] at notTrue ⊢
  rw [contraction.predicate_string allowed dstNode]
  by_cases inSrc : state.cluster_map id = state.cluster_map edge.src
  · rw [if_pos inSrc] at notTrue ⊢
    rw [if_neg (inSrc ▸ before)]
    cases allowed.source with
    | inl same =>
        rw [← same, ← predicate_string_of_source inSrc] at notTrue ⊢
        exact old notTrue other inGraph atSrc before
    | inr absorbed =>
        obtain ⟨_, _, bound⟩ := absorbed
        exact tied.leaves bound inGraph (atSrc ▸ inSrc) (inSrc ▸ before)
  · rw [if_neg inSrc] at notTrue ⊢
    have reached := old notTrue other inGraph atSrc before
    split
    case isFalse => exact reached
    case isTrue dstInSrc =>
      exact allowed.of_source
        ((predicate_string_of_source dstInSrc).symm.trans reached) notTrue

end Tied

theorem Contraction.tied (wf : graph.WF) (tied : Tied graph state) :
    Tied graph (mergeClusters edge state) where
  outgoing := contraction.tied_outgoing wf tied
  forward := contraction.tied_forward allowed wf tied
  own := by
    intro id pred_string idNode found
    rw [contraction.merged.nodes_predicate_map] at found
    exact contraction.tied_own allowed tied idNode found
  leaving := by
    intro id pred_string idNode found isTrue notTrue other inGraph atSrc
    rw [contraction.merged.nodes_predicate_map] at found
    exact contraction.tied_leaving allowed wf tied idNode found isTrue notTrue
      inGraph atSrc

end Merge

/-- What holds of the clusters between two tries. -/
structure Sound (graph : Graph) (linked : Nat → Nat → Prop)
    (shadowed : Edge → Prop) (state : State) : Prop where
  inv : Inv graph linked shadowed state
  tied : Tied graph state
  told : Told graph state.nodes_predicate_map

theorem Sound.plain (sound : Sound graph linked shadowed state) {id : Nat}
    (idNode : graph.HasNode id)
    (marked : nodeIsMarkedForClustering (graph.node id) = true) :
    isControlFlowPredString (state.predicate_string id) = false := by
  obtain ⟨other, otherNode, together, found⟩ := sound.inv.predicate idNode
  apply sound.told.plain otherNode _ found
  by_cases same : other = id
  · rwa [same]
  · exact sound.inv.marked otherNode idNode together same

theorem contractEdge_tied (wf : graph.WF) (inGraph : edge ∈ graph.edges)
    (sound : Sound graph linked shadowed state)
    (marked : nodeIsMarkedForClustering (graph.node edge.src) = true ∧
      nodeIsMarkedForClustering (graph.node edge.dst) = true)
    (allowed : Allowed state edge) :
    Tied graph (contractEdge edge state).1 := by
  have outcome := contractEdge_outcome edge sound.inv
  generalize contractEdge edge state = tried at outcome
  cases outcome with
  | absent => exact sound.tied
  | refused => exact sound.tied.withGc _
  | @accepted gc there contracted =>
      have contraction :=
        contraction_of_accepted wf inGraph sound.inv marked there contracted
      exact (contraction.tied allowed wf sound.tied).withGc gc

theorem tryContract_sound (wf : graph.WF) (inGraph : edge ∈ graph.edges)
    (sound : Sound graph linked shadowed state) :
    ∃ next changed, tryContract graph edge state = .ok (next, changed) ∧
      Sound graph linked shadowed next := by
  have success : ∃ next changed, tryContract graph edge state =
      .ok (next, changed) ∧
      Tied graph next := by
    have unchanged : ∃ next changed,
        (.ok (state, false) : StatusOr (State × Bool)) = .ok (next, changed) ∧
          Tied graph next :=
      ⟨state, false, rfl, sound.tied⟩
    unfold tryContract
    dsimp only
    split
    case isTrue => exact unchanged
    case isFalse =>
      split
      case isTrue => exact unchanged
      case isFalse marked =>
        simp only [Bool.or_eq_true, Bool.not_eq_true', not_or,
          Bool.not_eq_false] at marked
        obtain ⟨accepted, checked, allows⟩ :=
          canContract_ok sound.tied inGraph marked.1
            marked.2 (sound.plain (wf.src edge inGraph) marked.1)
            (sound.plain (wf.dst edge inGraph) marked.2)
        rw [checked]
        cases accepted with
        | false => exact unchanged
        | true => exact ⟨_, _, rfl,
            contractEdge_tied wf inGraph sound marked (allows rfl)⟩
  obtain ⟨next, changed, success, tied⟩ := success
  have tried := tryContract_tried wf inGraph sound.inv success
  exact ⟨next, changed, success, tried.inv sound.inv, tied,
    tried.predicates ▸ sound.told⟩

theorem contractRound_sound {edges : List Edge} (wf : graph.WF)
    (inside : ∀ edge ∈ edges, edge ∈ graph.edges)
    (sound : Sound graph linked shadowed state) :
    ∃ next changed, contractRound graph edges state = .ok (next, changed) ∧
      Sound graph linked shadowed next := by
  induction edges generalizing state with
  | nil => exact ⟨state, false, rfl, sound⟩
  | cons edge edges ih =>
      obtain ⟨middle, first, atEdge, middleSound⟩ :=
        tryContract_sound wf (inside edge (by simp)) sound
      obtain ⟨next, others, atRest, nextSound⟩ :=
        ih (fun edge member => inside edge (by simp [member])) middleSound
      refine ⟨next, first || others, ?_, nextSound⟩
      rw [contractRound, atEdge]
      simp only [bind, Except.bind]
      rw [atRest]
      rfl

/-- The contraction loop ends well, given fuel for all its rounds. -/
theorem contract_sound {fuel : Nat} (wf : graph.WF) (order : graph.Enumeration)
    (sound : Sound graph linked shadowed state)
    (enough : (indices graph state).card < fuel) :
    ∃ next, contract order fuel state = .ok next ∧
    Sound graph linked shadowed next := by
  induction fuel generalizing state with
  | zero => exact absurd enough (Nat.not_lt_zero _)
  | succ fuel ih =>
      have inside : ∀ edge ∈ order.edges, edge ∈ graph.edges :=
        fun edge => (order.mem_edges edge).mp
      obtain ⟨middle, changed, atRound, middleSound⟩ :=
        contractRound_sound wf inside sound
      obtain ⟨_, _, fewer⟩ := contractRound_inv wf inside sound.inv atRound
      rw [contract, atRound]
      simp only [bind, Except.bind]
      cases changed with
      | false => exact ⟨middle, rfl, middleSound⟩
      | true =>
          rw [Bool.toNat_true] at fewer
          exact ih middleSound (by omega)

end Tied

section Tag

variable {graph : Graph} {order : graph.Enumeration} {linked : Nat → Nat → Prop}
  {shadowed : Edge → Prop} {state : State}

/-- Every marked node passes the checks that its cluster is made to undergo. -/
theorem Sound.check (sound : Sound graph linked shadowed state) (wf : graph.WF)
    {node : Node} (member : node ∈ graph.nodes)
    (marked : nodeIsMarkedForClustering node = true) :
    checkNodeClusterAssignmentWRTDeadness order state node = .ok () := by
  have idNode : graph.HasNode node.id := ⟨node, member, rfl⟩
  have isMarked : nodeIsMarkedForClustering (graph.node node.id) = true := by
    rwa [wf.node_eq member]
  obtain ⟨pred_string, found⟩ := sound.told.recorded idNode
  have plain := sound.told.plain idNode isMarked found
  have own := sound.tied.own idNode found
  have leaving := sound.tied.leaving idNode found
  simp only [State.predicate_string] at own leaving
  unfold checkNodeClusterAssignmentWRTDeadness
  rw [found]
  dsimp only
  rw [if_neg (by simp [plain])]
  by_cases isTrue : isTruePredString pred_string = true
  · rw [if_neg (by simp [isTrue])]
    rw [if_neg]
    intro fails
    simp only [isTrue, Bool.true_and, Bool.and_eq_true, Bool.not_eq_true',
      List.any_eq_true, bne_iff_ne] at fails
    obtain ⟨notTrue, edge, leaves, otherIndex, otherPredicate⟩ := fails
    obtain ⟨inGraph, atNode⟩ := (order.mem_out_edges node.id edge).mp leaves
    apply otherPredicate
    apply leaving isTrue notTrue edge inGraph atNode
    intro together
    rw [State.cluster, State.cluster, together] at otherIndex
    exact otherIndex rfl
  · have notTrue : isTruePredString pred_string = false := by simpa using isTrue
    rw [if_neg (by simp [own notTrue]), if_neg (by simp [notTrue])]

theorem Sound.scanCluster (sound : Sound graph linked shadowed state)
    (wf : graph.WF) {ids : List Nat} (inside : ∀ id ∈ ids, graph.HasNode id) :
    ∃ found, scanCluster order state ids = .ok found := by
  induction ids with
  | nil => exact ⟨_, rfl⟩
  | cons id ids ih =>
      obtain ⟨found, atRest⟩ :=
        ih (fun id member => inside id (by simp [member]))
      unfold AssignClusters.scanCluster
      dsimp only
      split
      case isTrue marked =>
        rw [sound.check wf (wf.node_mem (inside id (by simp))).1 marked]
        simp only [bind, Except.bind]
        rw [atRest]
        exact ⟨_, rfl⟩
      case isFalse =>
        rw [atRest]
        exact ⟨_, rfl⟩

theorem Sound.tagCluster (sound : Sound graph linked shadowed state)
    (wf : graph.WF) {id : Nat} (idNode : graph.HasNode id) (tags : Tags) :
    (tagCluster order state id tags).2 = .ok () := by
  have members : ∀ a, a ∈ order.pointers.filter
      (· ∈ (state.heap (state.cluster_map id)).nodes) →
        graph.HasNode a ∧ state.cluster_map a = state.cluster_map id := by
    intro a member
    have inCluster : a ∈ (state.cluster id).nodes :=
      decide_eq_true_iff.mp (List.mem_filter.mp member).2
    exact (sound.inv.members idNode a).mp inCluster
  unfold AssignClusters.tagCluster
  dsimp only
  split
  case isTrue => rfl
  case isFalse =>
    obtain ⟨found, scanned⟩ :=
      @Sound.scanCluster graph order linked shadowed state sound wf
        (order.pointers.filter (· ∈ (state.heap (state.cluster_map id)).nodes))
        (fun a member => (members a member).1)
    rw [scanned]
    have scan := scanCluster_ok scanned
    obtain ⟨marked, unmarked⟩ := found
    cases marked with
    | false => rfl
    | true =>
        cases unmarked with
        | false => rfl
        | true =>
            obtain ⟨a, aIn, aMarked⟩ := scan.marked.mp rfl
            obtain ⟨b, bIn, bUnmarked⟩ := scan.unmarked.mp rfl
            obtain ⟨aNode, aTogether⟩ := members a aIn
            obtain ⟨bNode, bTogether⟩ := members b bIn
            have different : b ≠ a := by
              rintro rfl
              simp [aMarked] at bUnmarked
            have bMarked :=
              sound.inv.marked bNode aNode (bTogether.trans aTogether.symm)
                different
            simp [bMarked] at bUnmarked

theorem Sound.tagClusters (sound : Sound graph linked shadowed state)
    (wf : graph.WF) {ids : List Nat} (inside : ∀ id ∈ ids, graph.HasNode id)
    (tags : Tags) :
    (tagClusters order state ids tags).2 = .ok () := by
  induction ids generalizing tags with
  | nil => rfl
  | cons id ids ih =>
      have first := @Sound.tagCluster graph order linked shadowed state
        sound wf id (inside id (by simp)) tags
      unfold AssignClusters.tagClusters
      split
      case h_1 middle _ =>
        exact ih (fun id member => inside id (by simp [member])) middle
      case h_2 middle error failed =>
        rw [failed] at first
        simp at first

end Tag

section Pass

variable {graph : Graph} {hasher : Hasher} {order : graph.Enumeration}

/-- The clusters are found without an internal error. -/
theorem clusters_sound (wf : graph.WF)
    (legal : ∀ node ∈ graph.nodes, LegalName node.name)
    (marking : Marking graph) :
    NoInternal (clusters hasher order) ∧
      ∀ state, clusters hasher order = .ok state →
      Sound graph (OpEdge graph) (fun _ => False) state := by
  have rounds : ∀ {predicate_map first second third},
      populate hasher order = .ok predicate_map →
      addNodes order predicate_map graph.nodes State.init = .ok first →
      insertEdges graph order.edges first = .ok second →
      Ready graph second ∧ (addShadows order graph.op_nodes second = .ok third →
        ∃ state, contract order (graph.nodes.length + 1) third = .ok state ∧
          Sound graph (OpEdge graph) (fun _ => False) state) := by
    intro predicate_map first second third populated added inserted
    have alone := addNodes_apart wf added
    obtain ⟨firstInv, recorded⟩ := addNodes_inv wf added
    have told := told_of_recorded (populate_analysed wf legal populated) wf
      marking recorded
    have tied := tied_of_apart wf firstInv alone told
    obtain ⟨ready, gc, rfl⟩ := insertEdges_ready wf firstInv alone inserted
    refine ⟨ready, fun shadows => ?_⟩
    obtain ⟨thirdReady, more, rfl⟩ := (addShadows_shades wf marking order
      (fun node member => (List.mem_filter.mp member).1) ready).2 third shadows
    exact contract_sound wf order ⟨thirdReady.inv, tied.withGc more, told⟩
      (Nat.lt_succ_of_le (indices_card_le graph _))
  constructor
  · apply (populate_noInternal hasher order).bind
    intro predicate_map populated
    have analysed := populate_analysed wf legal populated
    apply (addNodes_noInternal analysed wf (fun _ member => member) _).bind
    intro first added
    apply (insertEdges_noInternal order.edges first).bind
    intro second inserted
    have ready := (@rounds _ _ _ State.init populated added inserted).1
    apply (addShadows_shades wf marking order
      (fun node member => (List.mem_filter.mp member).1) ready).1.bind
    intro third shadows
    obtain ⟨state, success, _⟩ := (rounds populated added inserted).2 shadows
    rw [success]
    exact noInternal_ok _
  · intro state success
    obtain ⟨predicate_map, populated, success⟩ := bind_ok success
    obtain ⟨first, added, success⟩ := bind_ok success
    obtain ⟨second, inserted, success⟩ := bind_ok success
    obtain ⟨third, shadows, success⟩ := bind_ok success
    obtain ⟨found, reached, sound⟩ :=
      (rounds populated added inserted).2 shadows
    rw [success] at reached
    obtain rfl := Except.ok.inj reached
    exact sound

/-- Clustering a graph whose marked nodes are data-flow nodes never ends with an
internal error: a marked node that is live in every run is fed by such nodes
only, every marked node passes the checks of its cluster, and no cluster has
marked and unmarked nodes. -/
theorem assignClusters_noInternal (wf : graph.WF)
    (legal : ∀ node ∈ graph.nodes, LegalName node.name)
    (marking : Marking graph) (manager : ClusterManager) :
    (∀ error, (assignClusters hasher order manager).status = .error error →
      error.code ≠ .internal) ∧
    (∀ predicate_map, populate hasher order = .ok predicate_map →
      ∀ edge ∈ graph.edges,
      (graph.node edge.src).isOp = true →
      (graph.node edge.src).isControlFlow = false →
      nodeIsMarkedForClustering (graph.node edge.dst) = true →
      ∀ srcPred dstPred,
      getNodePredicate order predicate_map (graph.node edge.src) = .ok srcPred →
      getNodePredicate order predicate_map (graph.node edge.dst) = .ok dstPred →
      isTruePredString srcPred = false → isTruePredString dstPred = false) ∧
    ∀ state, clusters hasher order = .ok state →
      (∀ node ∈ graph.nodes, nodeIsMarkedForClustering node = true →
        checkNodeClusterAssignmentWRTDeadness order state node = .ok ()) ∧
      ∀ a b, graph.HasNode a → graph.HasNode b →
        state.cluster_map a = state.cluster_map b →
        nodeIsMarkedForClustering (graph.node a) =
          nodeIsMarkedForClustering (graph.node b) := by
  obtain ⟨noInternal, sound⟩ :=
    @clusters_sound graph hasher order wf legal marking
  refine ⟨?_, ?_, ?_⟩
  · intro error failed
    unfold assignClusters at failed
    split at failed
    case h_1 clustering atClusters =>
      cases failed
      exact noInternal error atClusters
    case h_2 state atClusters =>
      have pointers : ∀ id ∈ order.pointers, graph.HasNode id := by
        intro id member
        exact List.mem_map.mp (order.pointersPerm.mem_iff.mp member)
      change (tagClusters order state order.pointers ⟨[], manager, graph⟩).2 =
        _ at failed
      rw [(sound state atClusters).tagClusters wf pointers] at failed
      simp at failed
  · intro predicate_map populated edge inGraph srcOp srcPlain dstMarked srcPred
      dstPred atSrc atDst notTrue
    rw [← Bool.not_eq_true]
    intro isTrue
    rw [getNodePredicate_fed (populate_analysed wf legal populated) wf marking
      inGraph srcOp srcPlain dstMarked atSrc atDst isTrue] at notTrue
    simp at notTrue
  · intro state atClusters
    have found := sound state atClusters
    refine ⟨fun node member marked => found.check wf member marked, ?_⟩
    intro a b aNode bNode together
    by_cases same : a = b
    · rw [same]
    · rw [found.inv.marked aNode bNode together same,
        found.inv.marked bNode aNode together.symm (Ne.symm same)]

theorem switchGraph_marking : Marking switchGraph := by
  constructor <;> decide

theorem assignClusters_noInternal_switchGraph :
    (∀ error,
      (assignClusters constantHasher switchGraph.byInsertion .init).status =
      .error error → error.code ≠ .internal) ∧
    ∀ state, clusters constantHasher switchGraph.byInsertion = .ok state →
      ∀ node ∈ switchGraph.nodes, nodeIsMarkedForClustering node = true →
        checkNodeClusterAssignmentWRTDeadness switchGraph.byInsertion state
          node = .ok () := by
  obtain ⟨noInternal, _, sound⟩ :=
    assignClusters_noInternal switchGraph_wf (by decide) switchGraph_marking
      .init
  exact ⟨noInternal, fun state success => (sound state success).1⟩

end Pass

end NGraphBridge.AssignClusters
