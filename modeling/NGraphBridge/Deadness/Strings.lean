import NGraphBridge.Deadness.Liveness

/-!
# Predicates of nodes and their strings

The clustering pass sees only the strings that `GetNodePredicate` gives. A
string does not tell whether a symbol has to be true, yet equal strings stand
for equivalent predicates.
-/

namespace NGraphBridge.Deadness

open TF Predicate

variable {graph : Graph} {hasher : Hasher} {order : graph.Enumeration}
  {final : PredicateMap}

/-- The predicate that all outputs of a node share. -/
structure NodePred (graph : Graph) (final : PredicateMap) (node : Node)
    (pred : Predicate) : Prop where
  outgoing : ∃ edge ∈ graph.edges, edge.src = node.id
  outputs : ∀ edge ∈ graph.edges, edge.src = node.id →
    final (inputEdgeToTensorId graph edge) = some pred

theorem outgoing_of_string {node : Node} {pred_string : String}
    (isOp : node.isOp = true) (notControlFlow : node.isControlFlow = false)
    (success : getNodePredicate order final node = .ok pred_string)
    (nonempty : pred_string ≠ "") : ∃ edge ∈ graph.edges,
    edge.src = node.id := by
  by_contra noEdge
  have none_ : order.out_edges node.id = [] := by
    apply List.eq_nil_iff_forall_not_mem.mpr
    intro edge member
    exact noEdge ⟨edge, (order.mem_out_edges node.id edge).mp member⟩
  have plain : (node.isSource || node.isSink || node.isControlFlow) =
      false := by
    simp only [Node.isOp, Bool.and_eq_true, Bool.not_eq_true'] at isOp
    simp [isOp.1, isOp.2, notControlFlow]
  unfold getNodePredicate at success
  rw [if_neg (by simp [plain]), none_] at success
  exact nonempty (Except.ok.inj success).symm

theorem getNodePredicate_nodePred {node : Node} {pred_string : String}
    (isOp : node.isOp = true) (notControlFlow : node.isControlFlow = false)
    (success : getNodePredicate order final node = .ok pred_string)
    (nonempty : pred_string ≠ "") :
    ∃ pred, pred_string = pred.toString ∧ NodePred graph final node pred := by
  have outgoing := outgoing_of_string isOp notControlFlow success nonempty
  obtain ⟨pred, isString, outputs⟩ :=
    getNodePredicate_ok isOp notControlFlow outgoing success
  exact ⟨pred, isString, outgoing, outputs⟩

/-- Data flow nodes with the same string have equivalent predicates. -/
theorem getNodePredicate_faithful (wf : graph.WF)
    (legal : ∀ node ∈ graph.nodes, LegalName node.name)
    (success : populate hasher order = .ok final) {u v : Node}
    (uOp : u.isOp = true) (uDataFlow : u.isControlFlow = false)
    (vOp : v.isOp = true) (vDataFlow : v.isControlFlow = false)
    {pred_string : String}
    (uString : getNodePredicate order final u = .ok pred_string)
    (vString : getNodePredicate order final v = .ok pred_string)
    (nonempty : pred_string ≠ "") :
    ∃ uPred vPred, NodePred graph final u uPred ∧ NodePred graph final v vPred ∧
      uPred.toString = pred_string ∧ vPred.toString = pred_string ∧
      ∀ s : Assignment, uPred.eval s = vPred.eval s := by
  have analysed := populate_analysed wf legal success
  obtain ⟨uPred, uText, isU⟩ :=
    getNodePredicate_nodePred uOp uDataFlow uString nonempty
  obtain ⟨vPred, vText, isV⟩ :=
    getNodePredicate_nodePred vOp vDataFlow vString nonempty
  have normal : ∀ {node : Node} {pred : Predicate},
      NodePred graph final node pred →
      Normal (LooseIn final) pred := by
    intro node pred isPred
    obtain ⟨edge, inGraph, leaves⟩ := isPred.outgoing
    exact analysed.normal _ _ (isPred.outputs edge inGraph leaves)
  refine ⟨uPred, vPred, isU, isV, uText.symm, vText.symm, fun s => ?_⟩
  exact (normal isU).eval_eq_of_toString s (normal isV) (uText.symm.trans vText)

/-- Two nodes that read the same output of a switch, one of them through the
other. -/
def branchGraph : Graph where
  nodes := [
    ⟨0, "_SOURCE", "NoOp", [], [], [], "", []⟩,
    ⟨1, "_SINK", "NoOp", [], [], [], "", []⟩,
    ⟨2, "cond", "Placeholder", [], [], [.DT_BOOL], "", []⟩,
    ⟨3, "x", "Placeholder", [], [], [.DT_FLOAT], "", []⟩,
    ⟨4, "switch", "Switch", [], [.DT_FLOAT, .DT_BOOL],
      [.DT_FLOAT, .DT_FLOAT], "", ["x", "cond"]⟩,
    ⟨5, "abs", "Abs", [], [.DT_FLOAT], [.DT_FLOAT], "", ["switch:1"]⟩,
    ⟨6, "mul", "Mul", [], [.DT_FLOAT, .DT_FLOAT], [.DT_FLOAT], "",
      ["abs", "switch:1"]⟩]
  edges :=
    [⟨0, 0, -1, 2, -1⟩, ⟨1, 0, -1, 3, -1⟩, ⟨2, 3, 0, 4, 0⟩, ⟨3, 2, 0, 4, 1⟩,
      ⟨4, 4, 1, 5, 0⟩, ⟨5, 5, 0, 6, 0⟩, ⟨6, 4, 1, 6, 1⟩, ⟨7, 6, -1, 1, -1⟩]

def zeroHasher : Hasher := ⟨fun _ => 0, fun _ => 0, fun _ => 0, fun _ _ => 0⟩

theorem branchGraph_wf : branchGraph.WF := by
  constructor <;> decide

theorem getNodePredicate_faithful_branchGraph :
    ∃ final, populate zeroHasher branchGraph.byInsertion = .ok final ∧
      ∃ uPred vPred, NodePred branchGraph final (branchGraph.node 5) uPred ∧
        NodePred branchGraph final (branchGraph.node 6) vPred ∧
        uPred.toString = "cond:0" ∧ vPred.toString = "cond:0" ∧
        ∀ s : Assignment, uPred.eval s = vPred.eval s := by
  have strings : ∀ id ∈ [5, 6],
      (populate zeroHasher branchGraph.byInsertion >>= fun final =>
      getNodePredicate branchGraph.byInsertion final (branchGraph.node id)) =
        .ok "cond:0" := by
    decide
  obtain ⟨final, populated, uString⟩ := bind_ok (strings 5 (by simp))
  obtain ⟨other, again, vString⟩ := bind_ok (strings 6 (by simp))
  obtain rfl := Except.ok.inj (populated.symm.trans again)
  exact ⟨final, populated,
    getNodePredicate_faithful branchGraph_wf (by decide) populated
    (by decide) (by decide) (by decide) (by decide) uString vString (by decide)⟩

end NGraphBridge.Deadness
