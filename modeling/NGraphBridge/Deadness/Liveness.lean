import NGraphBridge.Deadness.Populate

/-!
# What the liveness of a node depends on

The analysis reads the predicates of some edges into a node and none that come
later, so that facts about all predicates can be proved in the order in which
it goes through the nodes.
-/

namespace NGraphBridge.Deadness

open TF PredicateFactory Predicate

section Reads

variable {graph : Graph} {order : graph.Enumeration} {s : Assignment} {n : Node}
  {live other : Liveness}

/-- The edges into a node whose predicates are read. -/
def reads (order : graph.Enumeration) (n : Node) (edge : Edge) : Bool :=
  if n.isSwitch then true
  else if n.isMerge then !hasBackedge order n && !edge.isControlEdge
  else !n.isControlTrigger

/-- A merge that a back edge leads to reads none of its edges. -/
theorem not_merge_of_reads {edge : Edge} (into : edge ∈ order.in_edges n.id)
    (isRead : reads order n edge = true)
    (srcNext : (graph.node edge.src).isNextIteration = true) :
    n.isMerge = false := by
  rw [← Bool.not_eq_true]
  intro isMerge
  have notSwitch : n.isSwitch = false := by
    simp only [Node.isMerge, Node.isSwitch, List.contains_eq_mem,
      decide_eq_true_iff, decide_eq_false_iff_not, List.mem_cons,
      List.not_mem_nil, or_false] at isMerge ⊢
    intro isSwitch
    cases isMerge with
    | inl type => simp [type] at isSwitch
    | inr type => simp [type] at isSwitch
  simp only [reads, notSwitch, isMerge, Bool.false_eq_true, if_false, if_true,
    Bool.and_eq_true, Bool.not_eq_true'] at isRead
  have backedge : hasBackedge order n = true := by
    rw [hasBackedge, List.any_eq_true]
    exact ⟨edge, into, by simp [srcNext, isRead.2]⟩
  simp [backedge] at isRead

theorem inputsLive_mono
    (below : ∀ edge ∈ order.in_edges n.id,
      live edge.src edge.src_output = true →
      other edge.src edge.src_output = true)
    (isLive : inputsLive order live n = true) :
    inputsLive order other n = true := by
  rw [inputsLive, List.all_eq_true] at isLive ⊢
  exact fun edge member => below edge member (isLive edge member)

/-- More live inputs never make an output dead. -/
theorem fires_mono
    (below : ∀ edge ∈ order.in_edges n.id, reads order n edge = true →
      live edge.src edge.src_output = true →
      other edge.src edge.src_output = true)
    {slot : Int} (fired : fires order s live n slot = true) :
    fires order s other n slot = true := by
  unfold fires at fired ⊢
  unfold reads at below
  by_cases isSwitch : n.isSwitch = true
  · simp only [isSwitch, if_true, Bool.and_eq_true] at fired below ⊢
    exact ⟨inputsLive_mono (fun edge member => below edge member trivial)
      fired.1, fired.2⟩
  · rw [if_neg isSwitch] at fired ⊢
    simp only [if_neg isSwitch] at below
    by_cases isMerge : n.isMerge = true
    · rw [if_pos isMerge] at fired ⊢
      simp only [if_pos isMerge] at below
      by_cases backedge : hasBackedge order n = true
      · rwa [if_pos backedge] at fired ⊢
      · rw [if_neg backedge, someDataInputLive, List.any_eq_true] at fired ⊢
        obtain ⟨edge, member, isData⟩ := fired
        rw [Bool.and_eq_true] at isData
        refine ⟨edge, member, Bool.and_eq_true_iff.mpr ⟨isData.1, ?_⟩⟩
        exact below edge member (by simp [backedge, isData.1]) isData.2
    · rw [if_neg isMerge] at fired ⊢
      simp only [if_neg isMerge] at below
      by_cases isTrigger : n.isControlTrigger = true
      · rw [if_pos isTrigger]
      · rw [if_neg isTrigger] at fired ⊢
        have below : ∀ edge ∈ order.in_edges n.id,
            live edge.src edge.src_output = true →
            other edge.src edge.src_output = true :=
          fun edge member => below edge member (by simpa using isTrigger)
        split_ifs at fired ⊢
        · rw [Bool.and_eq_true] at fired ⊢
          exact ⟨inputsLive_mono below fired.1, fired.2⟩
        · exact inputsLive_mono below fired

theorem fires_congr
    (agree : ∀ edge ∈ order.in_edges n.id, reads order n edge = true →
      live edge.src edge.src_output = other edge.src edge.src_output)
    (slot : Int) :
    fires order s live n slot = fires order s other n slot := by
  rw [Bool.eq_iff_iff]
  constructor
  · apply fires_mono
    intro edge member isRead isLive
    rw [← agree edge member isRead, isLive]
  · apply fires_mono
    intro edge member isRead isLive
    rw [agree edge member isRead, isLive]

end Reads

section Order

variable {graph : Graph} {order : graph.Enumeration} {hasher : Hasher}
  {predicate_map final : PredicateMap} {n : Node}

/-- Every edge that is read has its predicate in the map. -/
theorem handle_reads {preds : List (Int × Predicate)}
    (success : handle hasher order predicate_map n = .ok preds) {edge : Edge}
    (member : edge ∈ order.in_edges n.id) (isRead : reads order n edge = true) :
    ∃ pred, predicate_map (inputEdgeToTensorId graph edge) = some pred := by
  have all : ∀ {found},
      getIncomingPreds order predicate_map n .kDataAndControl = .ok found →
      ∃ pred, predicate_map (inputEdgeToTensorId graph edge) = some pred := by
    intro found atInputs
    obtain ⟨pred, _, atEdge⟩ :=
      (incoming_mem atInputs).2 edge member (by simp [shouldProcess])
    exact ⟨pred, atEdge⟩
  unfold handle at success
  unfold reads at isRead
  split_ifs at success isRead with isSwitch isMerge isTrigger isRecv
  · obtain ⟨found, atInputs, _⟩ := bind_ok success
    exact all atInputs
  · obtain ⟨found, atMerge, _⟩ := bind_ok success
    simp only [Bool.and_eq_true, Bool.not_eq_true'] at isRead
    unfold mergePred at atMerge
    rw [if_neg (by simp [isRead.1])] at atMerge
    obtain ⟨preds, atInputs, _⟩ := bind_ok atMerge
    obtain ⟨pred, _, atEdge⟩ := (incoming_mem atInputs).2 edge member
      (by simp [shouldProcess, isRead.2])
    exact ⟨pred, atEdge⟩
  · simp [isTrigger] at isRead
  · obtain ⟨found, atInputs, _⟩ := bind_ok success
    exact all atInputs
  · obtain ⟨found, atInputs, _⟩ := bind_ok success
    exact all atInputs

/-- Every node that is gone through has been handled. -/
theorem populateFrom_all {rpo : List Node}
    (success : populateFrom hasher order rpo predicate_map = .ok final) :
    ∀ n ∈ rpo, ∃ preds, Handled hasher order final n preds := by
  induction rpo generalizing predicate_map with
  | nil => simp
  | cons n rpo ih =>
      obtain ⟨preds, handled, success⟩ := bind_ok success
      obtain ⟨middle, set, rest⟩ := bind_ok success
      obtain ⟨extend, setAll, _⟩ := setPreds_ok set
      have later := populateFrom_extends rest
      intro other member
      cases List.mem_cons.mp member with
      | inl same =>
          subst same
          exact ⟨preds, handle_mono (extend.trans later) handled,
            fun entry member => later _ _ (setAll entry member)⟩
      | inr inRest => exact ih rest other inRest

/-- What passes from the edges that a node reads to its outputs holds of every
predicate. -/
theorem populateFrom_induct {holds : TensorId → Predicate → Prop}
    {rpo : List Node}
    (step : ∀ n ∈ rpo, ∀ preds, Handled hasher order final n preds →
      (∀ edge ∈ order.in_edges n.id, reads order n edge = true →
        ∀ pred, final (inputEdgeToTensorId graph edge) = some pred →
          holds (inputEdgeToTensorId graph edge) pred) →
      ∀ entry ∈ preds, holds ⟨n.name, entry.1⟩ entry.2)
    (start : ∀ tensor_id pred, predicate_map tensor_id = some pred →
      holds tensor_id pred)
    (success : populateFrom hasher order rpo predicate_map = .ok final) :
    ∀ tensor_id pred, final tensor_id = some pred → holds tensor_id pred := by
  induction rpo generalizing predicate_map with
  | nil =>
      obtain rfl := Except.ok.inj success
      exact start
  | cons n rpo ih =>
      obtain ⟨preds, handled, success⟩ := bind_ok success
      obtain ⟨middle, set, rest⟩ := bind_ok success
      obtain ⟨extend, setAll, only⟩ := setPreds_ok set
      have later := populateFrom_extends rest
      have inFinal : Handled hasher order final n preds :=
        ⟨handle_mono (extend.trans later) handled,
          fun entry member => later _ _ (setAll entry member)⟩
      apply ih (fun n member => step n (List.mem_cons_of_mem _ member)) _ rest
      intro tensor_id pred found
      cases only tensor_id pred found with
      | inl old => exact start tensor_id pred old
      | inr new =>
          obtain ⟨entry, member, rfl, rfl⟩ := new
          refine step n (by simp) preds inFinal ?_ entry member
          intro edge inEdges isRead pred atFinal
          obtain ⟨earlier, atEdge⟩ := handle_reads handled inEdges isRead
          have same := later _ _ (extend _ _ atEdge)
          rw [atFinal] at same
          obtain rfl := Option.some.inj same
          exact start _ _ atEdge

theorem populate_inside (wf : graph.WF)
    (success : populate hasher order = .ok final) {node : Node}
    (member : node ∈ graph.nodes) {slot : Int} {pred : Predicate}
    (found : final ⟨node.name, slot⟩ = some pred) : node ∈ order.rpo := by
  cases populateFrom_handled success found with
  | inl old => simp at old
  | inr new =>
      obtain ⟨n, inRpo, _, _, entry, _, same, _⟩ := new
      have sameName := (TensorId.mk.inj same).1
      rwa [wf.name_injective member (order.rpoInside n inRpo) sameName]

end Order

/-- A node that is live exactly when its inputs are. -/
structure DataFlow (node : Node) : Prop where
  op : node.isOp = true
  notControlFlow : node.isControlFlow = false
  notTrigger : node.isControlTrigger = false
  notRecv : (node.isRecv || node.isHostRecv) = false

section DataFlow

variable {graph : Graph} {order : graph.Enumeration} {s : Assignment}
  {node : Node} {final : PredicateMap}

theorem not_switch_of_not_controlFlow
    (notControlFlow : node.isControlFlow = false) :
    node.isSwitch = false ∧ node.isMerge = false ∧
    node.isNextIteration = false := by
  simp only [Node.isControlFlow, Bool.or_eq_false_iff] at notControlFlow
  exact ⟨notControlFlow.1.1.1.1, notControlFlow.1.1.1.2, notControlFlow.2⟩

theorem DataFlow.fires (dataFlow : DataFlow node) (live : Liveness)
    (slot : Int) :
    fires order s live node slot = inputsLive order live node := by
  obtain ⟨notSwitch, notMerge, _⟩ :=
    not_switch_of_not_controlFlow dataFlow.notControlFlow
  simp [Deadness.fires, notSwitch, notMerge, dataFlow.notTrigger,
    dataFlow.notRecv]

theorem DataFlow.reads (dataFlow : DataFlow node) (edge : Edge) :
    reads order node edge = true := by
  obtain ⟨notSwitch, notMerge, _⟩ :=
    not_switch_of_not_controlFlow dataFlow.notControlFlow
  simp [Deadness.reads, notSwitch, notMerge, dataFlow.notTrigger]

theorem fires_slot (notControlFlow : node.isControlFlow = false)
    (live : Liveness) (slot other : Int) :
    fires order s live node slot = fires order s live node other := by
  have notSwitch := (not_switch_of_not_controlFlow notControlFlow).1
  simp [Deadness.fires, notSwitch]

theorem commonPred_ok {out_edges : List Edge} {first : Predicate}
    {found : Option Predicate}
    (success : commonPred graph final node out_edges (some first) = .ok found) :
    found = some first ∧ ∀ edge ∈ out_edges,
      final (inputEdgeToTensorId graph edge) = some first := by
  induction out_edges with
  | nil =>
      obtain rfl := Except.ok.inj success
      exact ⟨rfl, by simp⟩
  | cons edge out_edges ih =>
      obtain ⟨pred, atEdge, success⟩ := bind_ok success
      split at success
      case isTrue => simp at success
      case isFalse same =>
        have same : first = pred := by simpa using same
        subst same
        obtain ⟨result, rest⟩ := ih success
        refine ⟨result, ?_⟩
        intro other member
        cases List.mem_cons.mp member with
        | inl isHead => exact isHead ▸ findPred_ok.mp atEdge
        | inr later => exact rest other later

/-- The predicate of a node is that of each of its outputs. -/
theorem getNodePredicate_ok {pred_string : String} (isOp : node.isOp = true)
    (notControlFlow : node.isControlFlow = false)
    (outgoing : ∃ edge ∈ graph.edges, edge.src = node.id)
    (success : getNodePredicate order final node = .ok pred_string) :
    ∃ pred, pred_string = pred.toString ∧ ∀ edge ∈ graph.edges,
      edge.src = node.id →
      final (inputEdgeToTensorId graph edge) = some pred := by
  unfold getNodePredicate at success
  have plain : (node.isSource || node.isSink || node.isControlFlow) =
      false := by
    simp only [Node.isOp, Bool.and_eq_true, Bool.not_eq_true'] at isOp
    simp [isOp.1, isOp.2, notControlFlow]
  rw [if_neg (by simp [plain])] at success
  obtain ⟨found, common, success⟩ := bind_ok success
  have members := order.mem_out_edges node.id
  cases atEdges : order.out_edges node.id with
  | nil =>
      obtain ⟨edge, inGraph, leaves⟩ := outgoing
      have member := (members edge).mpr ⟨inGraph, leaves⟩
      simp [atEdges] at member
  | cons edge out_edges =>
      rw [atEdges] at common members
      obtain ⟨pred, atEdge, common⟩ := bind_ok common
      rw [if_neg (by simp)] at common
      obtain ⟨rfl, rest⟩ := commonPred_ok common
      obtain rfl := Except.ok.inj success
      refine ⟨pred, rfl, ?_⟩
      intro other inGraph leaves
      cases List.mem_cons.mp ((members other).mpr ⟨inGraph, leaves⟩) with
      | inl isHead => exact isHead ▸ findPred_ok.mp atEdge
      | inr later => exact rest other later

theorem plain_of_getNodePredicate {pred_string : String}
    (success : getNodePredicate order final node = .ok pred_string)
    (plain : isControlFlowPredString pred_string = false) :
    node.isOp = true ∧ node.isControlFlow = false := by
  unfold getNodePredicate at success
  split at success
  case isTrue =>
    obtain rfl := Except.ok.inj success
    simp [isControlFlowPredString] at plain
  case isFalse outside =>
    simp only [Bool.or_eq_true, not_or, Bool.not_eq_true] at outside
    simp [Node.isOp, outside.1.1, outside.1.2, outside.2]

theorem eval_of_isTruePredString {pred : Predicate} {loose : TensorId → Prop}
    (normal : Normal loose pred)
    (isTrue : isTruePredString pred.toString = true) :
    pred.eval s = true := by
  have trivial_ : Normal loose (.and []) :=
    .and (by simp) .nil (by simp) (by simp)
  have same : pred.toString = (Predicate.and []).toString := by
    rw [Predicate.toString]
    simpa [isTruePredString, truePredString] using isTrue
  rw [normal.eval_eq_of_toString s trivial_ same, eval_and]
  simp

end DataFlow

end NGraphBridge.Deadness
