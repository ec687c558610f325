import NGraphBridge.Lib.OrderedSet
import NGraphBridge.MarkForClustering.Tables
import Mathlib.Data.String.Basic

/-!
# The marking pass

`MarkForClustering` with its static variables.  They outlive a call, so a call
takes them and returns them.
-/

namespace NGraphBridge.MarkForClustering

open TF

/-- The static variables of `MarkForClustering`. -/
structure Statics where
  confirmation_function_map : ConfirmationMap
  disabled_ops_set : OrderedSet String
  initialized : Bool

def Statics.init : Statics where
  confirmation_function_map := getConfirmationMap
  disabled_ops_set := ∅
  initialized := false

/-- Why a node was accepted or rejected. -/
inductive Verdict where
  | skipped
  | placementNotRequested
  | opNotSupported
  | failedConfirmation
  | failedTypeConstraint
  | notSupportedByBackend
  | accepted
  deriving DecidableEq, Repr

def nGraphPlacementRequested (_node : Node) : Bool := true

def checkIfOutputNode (node : Node) (skip_these_nodes : OrderedSet String) :
    Bool :=
  decide (node.name ∈ skip_these_nodes)

def typeConstraintOk (node : Node) (type_constraint_map : TypeConstraintMap) :
    Bool :=
  match type_constraint_map.lookup node.type_string with
  | none => true
  | some constraints =>
      constraints.all fun (type_attr_name, allowed_types) =>
        match getNodeAttrType node.attrs type_attr_name with
        | .ok dt => allowed_types.contains dt
        | .error _ => false

def confirmationOk (node : Node) (confirmation_function_map : ConfirmationMap) :
    StatusOr Bool :=
  match confirmation_function_map.find node.type_string with
  | some confirm => confirm node
  | none => .ok false

/-- The body of the marking loop. -/
def examine (backend : Backend) (confirmation_function_map : ConfirmationMap)
    (skip_these_nodes : OrderedSet String) (node : Node) : StatusOr Verdict :=
  if checkIfOutputNode node skip_these_nodes then .ok .skipped
  else if !nGraphPlacementRequested node then .ok .placementNotRequested
  else do
    let confirmation_constraint_ok ←
      confirmationOk node confirmation_function_map
    if !confirmation_constraint_ok then
      if confirmation_function_map.contains node.type_string then
        return .failedConfirmation
      else
        return .opNotSupported
    else if !typeConstraintOk node getTypeConstraintMap then
      return .failedTypeConstraint
    else if !backend.isSupported node.type_string then
      return .notSupportedByBackend
    else
      return .accepted

/-- The marking loop: the verdict on every op node, or the first error. -/
def examineAll (backend : Backend) (confirmation_function_map : ConfirmationMap)
    (skip_these_nodes : OrderedSet String) :
    List Node → StatusOr (List (Node × Verdict))
  | [] => .ok []
  | node :: nodes => do
      let verdict ←
        examine backend confirmation_function_map skip_these_nodes node
      let verdicts ←
        examineAll backend confirmation_function_map skip_these_nodes nodes
      return (node, verdict) :: verdicts

def nodesMarkedForClustering (verdicts : List (Node × Verdict)) : List Node :=
  (verdicts.filter (fun entry => entry.2 == .accepted)).map Prod.fst

/-- Take the disabled operations out of the confirmation map, stopping at the
first one that has no entry. -/
def eraseDisabled : List String → ConfirmationMap →
    ConfirmationMap × StatusOr Unit
  | [], map => (map, .ok ())
  | op :: ops, map =>
      if map.contains op then eraseDisabled ops (map.erase op)
      else (map, .error (errors.internal
        s!"Tried to disable ngraph unsupported op {op}"))

/-- Bring the static variables up to date with the disabled set in force. -/
def updateStatics (statics : Statics)
    (disabled_ops_set_current : OrderedSet String) : Statics × StatusOr Unit :=
  let op_set_support_has_changed :=
    decide (disabled_ops_set_current ≠ statics.disabled_ops_set)
  let statics :=
    if !statics.initialized || op_set_support_has_changed then
      { statics with
        confirmation_function_map := getConfirmationMap
        initialized := true }
    else statics
  if op_set_support_has_changed then
    let (map, status) := eraseDisabled disabled_ops_set_current.elems
      statics.confirmation_function_map
    ({ statics with
        confirmation_function_map := map
        disabled_ops_set := disabled_ops_set_current }, status)
  else (statics, .ok ())

/-- Set the attributes of an accepted node. -/
def markNode (node : Node) : Node :=
  let marked := node.addAttr "_ngraph_marked_for_clustering" (.b true)
  match getAttributeSetters.lookup node.type_string with
  | some setAttributes => setAttributes marked
  | none => marked

def markNodes (graph : Graph) (marked : List Node) : Graph :=
  marked.foldl (fun graph node => graph.updateNode node.id markNode) graph

/-- What one call leaves behind: the static variables, the graph, and the
verdicts or the error it returns. -/
structure Outcome where
  statics : Statics
  graph : Graph
  result : StatusOr (List (Node × Verdict))

def markForClustering (backend : Backend) (statics : Statics)
    (disabled_ops_set_current : OrderedSet String) (graph : Graph)
    (skip_these_nodes : OrderedSet String) : Outcome :=
  match updateStatics statics disabled_ops_set_current with
  | (statics, .error error) => ⟨statics, graph, .error error⟩
  | (statics, .ok ()) =>
      match examineAll backend statics.confirmation_function_map
          skip_these_nodes graph.op_nodes with
      | .error error => ⟨statics, graph, .error error⟩
      | .ok verdicts =>
          ⟨statics, markNodes graph (nodesMarkedForClustering verdicts),
            .ok verdicts⟩

def nodeIsMarkedForClustering (node : Node) : Bool :=
  match getNodeAttrBool node.attrs "_ngraph_marked_for_clustering" with
  | .ok is_marked => is_marked
  | .error _ => false

def getStaticInputs (node : Node) : List Int :=
  match getNodeAttrInts node.attrs "_ngraph_static_inputs" with
  | .ok inputs => inputs
  | .error _ => []

def inputIsStatic (node : Node) (index : Int) : Bool :=
  (getStaticInputs node).contains index

end NGraphBridge.MarkForClustering

namespace NGraphBridge.Api

/-- `SetDisabledOps` of a comma-separated list. -/
def setDisabledOpsString (disabled_ops_str : String) : OrderedSet String :=
  let disabled_ops_list := disabled_ops_str.splitOn ","
  match disabled_ops_list with
  | [] => ∅
  | first :: _ =>
      if first != "" then OrderedSet.ofList disabled_ops_list else ∅

/-- `GetDisabledOps`: the environment variable `NGRAPH_TF_DISABLED_OPS`, when
set, overwrites the stored set first.  The result is the new stored set, which
is also the set returned. -/
def getDisabledOps (ngraph_tf_disabled_ops : Option String)
    (disabled_op_types : OrderedSet String) : OrderedSet String :=
  match ngraph_tf_disabled_ops with
  | some disabled_ops_str => setDisabledOpsString disabled_ops_str
  | none => disabled_op_types

end NGraphBridge.Api
