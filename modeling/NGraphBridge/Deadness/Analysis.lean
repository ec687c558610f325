import NGraphBridge.Deadness.Predicate

/-!
# Deadness analysis

Every output of every node is mapped to a predicate: when it holds, the output
is live.  The nodes are handled in an order that the graph library gives; a
predicate that is not there yet when it is needed fails a `CHECK`.
-/

namespace NGraphBridge.Deadness

open TF PredicateFactory

abbrev PredicateMap := TensorId → Option Predicate

inductive EdgeKind where
  | kDataAndControl | kDataOnly | kControlOnly
  deriving DecidableEq, Repr

def controlFlowPredString : String := "#control_flow"
def truePredString : String := "#true"

def isControlFlowPredString (predicate : String) : Bool :=
  predicate == controlFlowPredString

def isTruePredString (predicate : String) : Bool := predicate == truePredString

/-- The tensor that an output slot of a node is. -/
def tensorId (graph : Graph) (id : Nat) (slot : Int) : TensorId :=
  ⟨(graph.node id).name, slot⟩

def inputEdgeToTensorId (graph : Graph) (edge : Edge) : TensorId :=
  tensorId graph edge.src edge.src_output

section Analysis

variable (hasher : Hasher) {graph : Graph} (order : graph.Enumeration)

def shouldProcess (edge_kind : EdgeKind) (edge : Edge) : Bool :=
  edge_kind == .kDataAndControl ||
    (edge.isControlEdge && edge_kind == .kControlOnly) ||
    (!edge.isControlEdge && edge_kind == .kDataOnly)

def findPred (graph : Graph) (predicate_map : PredicateMap) (edge : Edge) :
    StatusOr Predicate :=
  match predicate_map (inputEdgeToTensorId graph edge) with
  | some pred => .ok pred
  | none =>
      .error (errors.check
        s!"Check failed: it != predicate_map_.end() {edge.id}")

def findPreds (graph : Graph) (predicate_map : PredicateMap) :
    List Edge → StatusOr (List Predicate)
  | [] => .ok []
  | edge :: edges => do
      let pred ← findPred graph predicate_map edge
      let preds ← findPreds graph predicate_map edges
      return pred :: preds

def getIncomingPreds (predicate_map : PredicateMap) (n : Node)
    (edge_kind : EdgeKind) : StatusOr (List Predicate) :=
  findPreds graph predicate_map
    ((order.in_edges n.id).filter (shouldProcess edge_kind))

def setPred (predicate_map : PredicateMap) (n : Node) (output_idx : Int)
    (pred : Predicate) : StatusOr PredicateMap :=
  if (predicate_map ⟨n.name, output_idx⟩).isSome then
    .error (errors.check "Check failed: predicate_map_.insert")
  else .ok (Function.update predicate_map ⟨n.name, output_idx⟩ (some pred))

def setPreds (predicate_map : PredicateMap) (n : Node) :
    List (Int × Predicate) → StatusOr PredicateMap
  | [] => .ok predicate_map
  | (output_idx, pred) :: preds => do
      let predicate_map ← setPred predicate_map n output_idx pred
      setPreds predicate_map n preds

/-- The predicates of the outputs of a switch. -/
def handleSwitch (predicate_map : PredicateMap) (n : Node) :
    StatusOr (List (Int × Predicate)) := do
  let input_preds ← getIncomingPreds order predicate_map n .kDataAndControl
  let pred_edge ← n.input_edge (order.in_edges n.id) 1
  let true_switch :=
    makeSymbolPredicate (inputEdgeToTensorId graph pred_edge) true
  let false_switch := makeNotPredicate true_switch
  return [(0, makeAndPredicate hasher (input_preds ++ [false_switch])),
    (1, makeAndPredicate hasher (input_preds ++ [true_switch])),
    (kControlSlot, makeAndPredicate hasher input_preds)]

/-- A merge that a back edge leads to. -/
def hasBackedge (n : Node) : Bool :=
  (order.in_edges n.id).any fun edge =>
    !edge.isControlEdge && (graph.node edge.src).isNextIteration

/-- A merge that isn't the target of a back edge is alive iff any of its data
inputs are; the liveness of a merge that is the target of one is a symbol. -/
def mergePred (predicate_map : PredicateMap) (n : Node) : StatusOr Predicate :=
  if hasBackedge order n then .ok (makeSymbolPredicate ⟨n.name, 0⟩ false)
  else do
    let preds ← getIncomingPreds order predicate_map n .kDataOnly
    return makeOrPredicate hasher preds

def handleMerge (predicate_map : PredicateMap) (n : Node) :
    StatusOr (List (Int × Predicate)) := do
  let input_data_pred ← mergePred hasher order predicate_map n
  return [(0, input_data_pred), (1, input_data_pred),
    (kControlSlot, input_data_pred)]

def handleRecv (predicate_map : PredicateMap) (n : Node) :
    StatusOr (List (Int × Predicate)) := do
  let input_preds ← getIncomingPreds order predicate_map n .kDataAndControl
  let pred := makeAndPredicate hasher
    (input_preds ++ [makeSymbolPredicate ⟨n.name, 0⟩ false])
  return [(0, pred), (kControlSlot, pred)]

def handleGeneric (predicate_map : PredicateMap) (n : Node) :
    StatusOr (List (Int × Predicate)) := do
  let input_preds ← getIncomingPreds order predicate_map n .kDataAndControl
  let pred := makeAndPredicate hasher input_preds
  return (List.range n.num_outputs).map (fun (output_idx : Nat) =>
    ((output_idx : Int), pred)) ++ [(kControlSlot, pred)]

/-- The predicates of the outputs of a node. -/
def handle (predicate_map : PredicateMap) (n : Node) :
    StatusOr (List (Int × Predicate)) :=
  if n.isSwitch then handleSwitch hasher order predicate_map n
  else if n.isMerge then handleMerge hasher order predicate_map n
  else if n.isControlTrigger then .ok [(kControlSlot, makeTrue hasher)]
  else if n.isRecv || n.isHostRecv then handleRecv hasher order predicate_map n
  else handleGeneric hasher order predicate_map n

def populateFrom : List Node → PredicateMap → StatusOr PredicateMap
  | [], predicate_map => .ok predicate_map
  | n :: rpo, predicate_map => do
      let preds ← handle hasher order predicate_map n
      let predicate_map ← setPreds predicate_map n preds
      populateFrom rpo predicate_map

def populate : StatusOr PredicateMap :=
  populateFrom hasher order order.rpo (fun _ => none)

/-- Compare the predicates of the edges out of a node. -/
def commonPred (graph : Graph) (predicate_map : PredicateMap) (node : Node) :
    List Edge → Option Predicate → StatusOr (Option Predicate)
  | [], pred => .ok pred
  | edge :: out_edges, pred => do
      let found ← findPred graph predicate_map edge
      if pred.any (fun pred => pred != found) then
        .error (errors.internal
          (node.name ++ "[" ++ node.type_string ++ "]" ++
            " is a non control flow op. But its outputs have " ++
            "different predicates"))
      else commonPred graph predicate_map node out_edges (some found)

/-- `GetNodePredicate`; the string stays empty when no edge leaves the node. -/
def getNodePredicate (predicate_map : PredicateMap) (node : Node) :
    StatusOr String :=
  if node.isSource || node.isSink || node.isControlFlow then
    .ok controlFlowPredString
  else do
    let pred ← commonPred graph predicate_map node
      (order.out_edges node.id) none
    match pred with
    | some pred => return pred.toString
    | none => return ""

end Analysis

end NGraphBridge.Deadness
