import NGraphBridge.Lib.Slots
import NGraphBridge.NGraphBuilder.Builder

/-!
# Translating a graph

`TranslateGraph` visits the nodes of the graph of a cluster in an order that is
given and builds the function of the cluster: a parameter for each argument,
what the translators of the ops make, and a result for each returned tensor.
-/

namespace NGraphBridge.NGraphBuilder

open NGraph (Shape ElementType)
open TF

def tfDataTypeToNGraphElementType : DataType → StatusOr ElementType
  | .DT_FLOAT => .ok .f32
  | .DT_DOUBLE => .ok .f64
  | .DT_INT32 => .ok .i32
  | .DT_UINT8 => .ok .u8
  | .DT_INT8 => .ok .i8
  | .DT_UINT16 => .ok .u16
  | .DT_INT64 => .ok .i64
  | .DT_UINT32 => .ok .u32
  | .DT_UINT64 => .ok .u64
  | .DT_BOOL => .ok .boolean
  | .DT_QINT8 => .ok .i8
  | .DT_QUINT8 => .ok .u8
  | .DT_QINT32 => .ok .i32
  | .DT_BFLOAT16 => .ok .bf16
  | .DT_HALF => .ok .f16
  | tf_dt =>
      .error (errors.unimplemented ("Unsupported TensorFlow data type: " ++
      DataType_Name tf_dt))

def tfTensorShapeToNGraphShape (tf_shape : List Int) : StatusOr Shape :=
  if tf_shape.any (· < 0) then
    .error
      (errors.invalidArgument "TensorFlow shape has a negative dimension size")
  else .ok (tf_shape.map Int.toNat)

theorem tfTensorShapeToNGraphShape_cast (shape : Shape) :
    tfTensorShapeToNGraphShape (shape.map Int.ofNat) = .ok shape := by
  have plain : ¬(shape.map Int.ofNat).any (· < 0) = true := by
    simp
  rw [tfTensorShapeToNGraphShape, if_neg plain, List.map_map]
  exact congrArg _ (List.map_id _)

/-- A node in the order of `GetReversePostOrder`. -/
structure GraphNode where
  id : Nat
  op : OpNode
  deriving DecidableEq, Repr

namespace GraphNode

def isSource (n : GraphNode) : Bool := n.id == 0

def isSink (n : GraphNode) : Bool := n.id == 1

def isControlFlow (n : GraphNode) : Bool :=
  ["Switch", "RefSwitch", "Merge", "RefMerge", "Enter", "RefEnter", "Exit",
    "RefExit", "NextIteration", "RefNextIteration"].contains n.op.type_string

def isArg (n : GraphNode) : Bool :=
  ["_Arg", "_DeviceArg"].contains n.op.type_string

def isRetval (n : GraphNode) : Bool :=
  ["_Retval", "_DeviceRetval"].contains n.op.type_string

end GraphNode

/-- The texts in the errors that are not made by the bridge. -/
structure DebugStrings where
  node : GraphNode → String
  node_def : OpNode → String
  what : OpNode → String

/-- Params, retvals, and all others. -/
structure Parts where
  tf_params : List OpNode
  tf_ret_vals : List OpNode
  tf_ops : List OpNode
  deriving DecidableEq, Repr

def splitNodes (texts : DebugStrings) : List GraphNode → Translates Parts
  | [] => .ok ⟨[], [], []⟩
  | n :: ordered =>
      if n.isSink || n.isSource then splitNodes texts ordered
      else if n.isControlFlow then
        .error
          (.status (errors.unimplemented
              ("Encountered a control flow op in the nGraph " ++
                "bridge: " ++ texts.node n)))
      else do
        let parts ← splitNodes texts ordered
        if n.isArg then .ok { parts with tf_params := n.op :: parts.tf_params }
        else if n.isRetval then
          .ok { parts with tf_ret_vals := n.op :: parts.tf_ret_vals }
        else .ok { parts with tf_ops := n.op :: parts.tf_ops }

/-- What the function keeps of a parameter. -/
structure Parameter where
  element_type : ElementType
  shape : Shape
  deriving DecidableEq, Repr

/-- `vector[index] = value`, where the entries are pointers that were null
before. -/
def setEntry {α : Type} (entries : List (Option α)) (index : Int) (value : α) :
    Translates (List (Option α)) :=
  if 0 ≤ index ∧
    index < entries.length then .ok (entries.set index.toNat (some value))
  else .error .outOfBounds

def readEntry {α : Type} (entries : List α) (index : Int) : Translates α :=
  if index < 0 then .error .outOfBounds
  else
    match entries[index.toNat]? with
    | none => .error .outOfBounds
    | some value => .ok value

/-- A status that is replaced by one that says what is missing. -/
def getNodeAttrOr {α : Type} (attr : StatusOr α) (message : String) :
    Translates α :=
  match attr with
  | .ok value => .ok value
  | .error _ => .error (.status (errors.invalidArgument message))

/-- The index and the type of an argument. -/
def readParam (inputs : List (List Int)) (parm : OpNode) :
    Translates (Int × Parameter) := do
  let dtype ← getNodeAttrOr (getNodeAttrType parm.attrs "T")
      "No data type defined for _Arg"
  let index ← getNodeAttrOr (getNodeAttrInt parm.attrs "index")
      "No index defined for _Arg"
  let ng_et ← returnIfError (tfDataTypeToNGraphElementType dtype)
  let input ← readEntry inputs index
  let ng_shape ← returnIfError (tfTensorShapeToNGraphShape input)
  .ok (index, ⟨ng_et, ng_shape⟩)

def populateParams (inputs : List (List Int)) :
    List OpNode → OpMap → List (Option Parameter) →
    Translates (OpMap × List (Option Parameter))
  | [], ng_op_map, ng_parameter_list => .ok (ng_op_map, ng_parameter_list)
  | parm :: tf_params, ng_op_map, ng_parameter_list => do
      let (index, parameter) ← readParam inputs parm
      let ng_op_map :=
        saveNgOp ng_op_map parm.name (.Parameter index.toNat parameter.shape)
      let ng_parameter_list ← setEntry ng_parameter_list index parameter
      populateParams inputs tf_params ng_op_map ng_parameter_list

abbrev Translator := OpNode → StaticInputMap → OpMap → Translates OpMap

/-- `TRANSLATE_OP_MAP`. -/
abbrev TranslateOpMap := String → Option Translator

/-- An exception in a handler becomes a status. -/
def translateOp (texts : DebugStrings) (table : TranslateOpMap)
    (static_input_map : StaticInputMap) (op : OpNode) (ng_op_map : OpMap) :
    Translates OpMap :=
  match table op.type_string with
  | none =>
      .error
        (.status (errors.invalidArgument
            ("No translation handler registered for op: " ++
              op.name ++ " (" ++ op.type_string ++ ")\n" ++ texts.node_def op)))
  | some op_fun =>
      match op_fun op static_input_map ng_op_map with
      | .error .exception =>
          .error
            (.status
              (errors.internal
                ("Unhandled exception in op handler: " ++ op.name ++
                  " (" ++ op.type_string ++ ")\n" ++ texts.node_def op ++
                  "\n" ++ "what(): " ++ texts.what op)))
      | outcome => outcome

def constructOps (texts : DebugStrings) (table : TranslateOpMap)
    (static_input_map : StaticInputMap) :
    List OpNode → OpMap → Translates OpMap
  | [], ng_op_map => .ok ng_op_map
  | op :: tf_ops, ng_op_map => do
      let ng_op_map ← translateOp texts table static_input_map op ng_op_map
      constructOps texts table static_input_map tf_ops ng_op_map

structure Result where
  value : Ng
  needs_default_layout : Bool
  deriving DecidableEq, Repr

def readResult (ng_op_map : OpMap) (n : OpNode) : Translates (Int × Result) :=
  if n.inputs.length ≠ 1 then
    .error
      (.status (errors.invalidArgument
          ("_Retval has " ++ toString n.inputs.length ++
            " inputs, should have 1")))
  else do
    let index ← getNodeAttrOr (getNodeAttrInt n.attrs "index")
        "No index defined for _Retval"
    let result ← getInputNode ng_op_map n 0
    .ok (index, ⟨result, false⟩)

def populateResults (ng_op_map : OpMap) :
    List OpNode → List (Option Result) → Translates (List (Option Result))
  | [], ng_result_list => .ok ng_result_list
  | n :: tf_ret_vals, ng_result_list => do
      let (index, result) ← readResult ng_op_map n
      let ng_result_list ← setEntry ng_result_list index result
      populateResults ng_op_map tf_ret_vals ng_result_list

/-- `ngraph::Function`, as far as it is built here. -/
structure Function where
  results : List Result
  parameters : List Parameter
  name : String
  deriving DecidableEq, Repr

/-- The constructor of a function reads through all of the pointers. -/
def makeFunction (ng_result_list : List (Option Result))
    (ng_parameter_list : List (Option Parameter)) (name : String) :
    Translates Function :=
  match ng_result_list.mapM id, ng_parameter_list.mapM id with
  | some results, some parameters => .ok ⟨results, parameters, name⟩
  | _, _ => .error .outOfBounds

/-- The function before the passes. -/
def translateNodes (texts : DebugStrings) (table : TranslateOpMap)
    (inputs : List (List Int)) (static_input_map : StaticInputMap)
    (ordered : List GraphNode) (name : String) : Translates Function := do
  let parts ← splitNodes texts ordered
  let (ng_op_map, ng_parameter_list) ← populateParams inputs parts.tf_params []
    (List.replicate parts.tf_params.length none)
  let ng_op_map ← constructOps texts table static_input_map
      parts.tf_ops ng_op_map
  let ng_result_list ← populateResults ng_op_map parts.tf_ret_vals
    (List.replicate parts.tf_ret_vals.length none)
  makeFunction ng_result_list ng_parameter_list name

def GraphNode.visited (n : GraphNode) : Bool := !(n.isSink || n.isSource)

/-- The parts of a graph without control flow. -/
def partsOf (ordered : List GraphNode) : Parts where
  tf_params := (ordered.filter fun n => n.visited && n.isArg).map GraphNode.op
  tf_ret_vals :=
    (ordered.filter fun n => n.visited && !n.isArg && n.isRetval).map
      GraphNode.op
  tf_ops := (ordered.filter fun n => n.visited && !n.isArg && !n.isRetval).map
    GraphNode.op

def NoControlFlow (ordered : List GraphNode) : Prop :=
  ∀ n ∈ ordered, n.visited = true → n.isControlFlow = false

section Split

variable {texts : DebugStrings} {ordered : List GraphNode} {parts : Parts}
  {n : GraphNode}

theorem partsOf_cons : partsOf (n :: ordered) =
    if n.visited = true then
      if n.isArg = true then
        { partsOf ordered with tf_params :=
          n.op :: (partsOf ordered).tf_params }
      else if n.isRetval = true then
        { partsOf ordered with tf_ret_vals :=
          n.op :: (partsOf ordered).tf_ret_vals }
      else { partsOf ordered with tf_ops := n.op :: (partsOf ordered).tf_ops }
    else partsOf ordered := by
  cases isVisited : n.visited <;> cases isArg : n.isArg <;> cases isRetval :
    n.isRetval <;>
    simp [partsOf, isVisited, isArg, isRetval]

theorem splitNodes_cons (isVisited : n.visited = true)
    (plain : n.isControlFlow = false) :
    splitNodes texts (n :: ordered) = (splitNodes texts ordered).bind
      fun parts => .ok
      (if n.isArg then { parts with tf_params := n.op :: parts.tf_params }
      else if n.isRetval then
      { parts with tf_ret_vals := n.op :: parts.tf_ret_vals }
      else { parts with tf_ops := n.op :: parts.tf_ops }) := by
  have inner : ¬(n.isSink || n.isSource) = true := by
    rw [GraphNode.visited, Bool.not_eq_true'] at isVisited
    rw [isVisited]
    exact Bool.false_ne_true
  rw [splitNodes, if_neg inner, plain, if_neg Bool.false_ne_true]
  cases splitNodes texts ordered with
  | error failure => rfl
  | ok parts =>
      simp only [bind, Except.bind]
      cases n.isArg <;> cases n.isRetval <;> rfl

theorem splitNodes_iff :
    splitNodes texts ordered = .ok parts ↔ NoControlFlow ordered ∧
    parts = partsOf ordered := by
  induction ordered generalizing parts with
  | nil =>
      constructor
      · intro success
        exact ⟨fun _ member => absurd member List.not_mem_nil,
          (Except.ok.inj success).symm⟩
      · exact fun ⟨_, same⟩ => congrArg Except.ok same.symm
  | cons n ordered ih =>
      have tail : NoControlFlow (n :: ordered) ↔
          (n.visited = true → n.isControlFlow = false) ∧
          NoControlFlow ordered :=
        List.forall_mem_cons
      rw [tail, partsOf_cons]
      cases isVisited : n.visited with
      | false =>
          rw [GraphNode.visited, Bool.not_eq_false'] at isVisited
          rw [splitNodes, if_pos isVisited, ih, if_neg Bool.false_ne_true]
          simp
      | true =>
          rw [if_pos rfl]
          cases flow : n.isControlFlow with
          | true =>
              have inner : ¬(n.isSink || n.isSource) = true := by
                rw [GraphNode.visited, Bool.not_eq_true'] at isVisited
                rw [isVisited]
                exact Bool.false_ne_true
              rw [splitNodes, if_neg inner, flow, if_pos rfl]
              simp
          | false =>
              rw [splitNodes_cons isVisited flow]
              constructor
              · intro success
                obtain ⟨rest, atRest, success⟩ := bind_ok success
                obtain ⟨noFlow, rfl⟩ := ih.mp atRest
                exact ⟨⟨fun _ => rfl, noFlow⟩, (Except.ok.inj success).symm⟩
              · intro ⟨⟨_, noFlow⟩, same⟩
                rw [ih.mpr ⟨noFlow, rfl⟩, same]
                rfl

end Split

section Entries

variable {α : Type} {entries after : List (Option α)} {index : Int} {value : α}

theorem setEntry_iff : setEntry entries index value = .ok after ↔
    ∃ place : Nat, index = place ∧ place < entries.length ∧
      after = entries.set place (some value) := by
  unfold setEntry
  constructor
  · intro success
    split at success
    next inside =>
      refine ⟨index.toNat, (Int.toNat_of_nonneg inside.1).symm, ?_,
        (Except.ok.inj success).symm⟩
      omega
    next => exact absurd success (by simp)
  · intro ⟨place, isPlace, inside, same⟩
    subst isPlace
    rw [if_pos ⟨Int.natCast_nonneg _, Int.ofNat_lt.mpr inside⟩, same,
      Int.toNat_natCast]

end Entries

/-- The op map with the parameters. -/
def saveParams (ng_op_map : OpMap) (reads : List (OpNode × Nat × Parameter)) :
    OpMap :=
  reads.foldl (fun ng_op_map read =>
    saveNgOp ng_op_map read.1.name (.Parameter read.2.1 read.2.2.shape))
      ng_op_map

section Populate

variable {inputs : List (List Int)} {ng_op_map after : OpMap}

/-- What is read of the arguments, each at an index into the list of
parameters. -/
theorem populateParams_iff {tf_params : List OpNode}
    {slots filled : List (Option Parameter)} :
    populateParams inputs tf_params ng_op_map slots = .ok (after, filled) ↔
      ∃ reads : List (Nat × Parameter),
        List.Forall₂ (fun parm (read : Nat × Parameter) =>
          readParam inputs parm = .ok ((read.1 : Int), read.2))
          tf_params reads ∧
        (∀ read ∈ reads, read.1 < slots.length) ∧
        after = saveParams ng_op_map (tf_params.zip reads) ∧
        filled = Slots.fill slots reads := by
  induction tf_params generalizing ng_op_map slots with
  | nil =>
      constructor
      · intro success
        obtain ⟨rfl, rfl⟩ := Prod.mk.inj (Except.ok.inj success)
        exact ⟨[], .nil, fun _ member => absurd member List.not_mem_nil, rfl,
          rfl⟩
      · intro ⟨reads, read, _, same, filled⟩
        cases read
        rw [same, filled]
        rfl
  | cons parm tf_params ih =>
      constructor
      · intro success
        obtain ⟨⟨index, parameter⟩, readable, success⟩ := bind_ok success
        obtain ⟨next, written, success⟩ := bind_ok success
        obtain ⟨place, rfl, inside, rfl⟩ := setEntry_iff.mp written
        obtain ⟨reads, read, small, same, filled⟩ := ih.mp success
        refine ⟨(place, parameter) :: reads, .cons readable read, ?_,
          same, filled⟩
        rw [List.length_set] at small
        exact List.forall_mem_cons.mpr ⟨inside, small⟩
      · intro ⟨reads, read, small, same, filled⟩
        cases read with
        | @cons _ head _ rest readable read =>
            have bounds := List.forall_mem_cons.mp small
            have written : setEntry slots head.1 head.2 =
                .ok (slots.set head.1 (some head.2)) :=
              setEntry_iff.mpr ⟨head.1, rfl, bounds.1, rfl⟩
            rw [populateParams]
            simp only [bind, Except.bind, readable, written, Int.toNat_natCast]
            apply ih.mpr
            refine ⟨rest, read, ?_, same, filled⟩
            rw [List.length_set]
            exact bounds.2

theorem populateResults_iff {tf_ret_vals : List OpNode}
    {slots filled : List (Option Result)} :
    populateResults ng_op_map tf_ret_vals slots = .ok filled ↔
      ∃ reads : List (Nat × Result),
        List.Forall₂ (fun n (read : Nat × Result) =>
          readResult ng_op_map n = .ok ((read.1 : Int), read.2))
          tf_ret_vals reads ∧
        (∀ read ∈ reads, read.1 < slots.length) ∧
        filled = Slots.fill slots reads := by
  induction tf_ret_vals generalizing slots with
  | nil =>
      constructor
      · intro success
        exact ⟨[], .nil, fun _ member => absurd member List.not_mem_nil,
          (Except.ok.inj success).symm⟩
      · intro ⟨reads, read, _, filled⟩
        cases read
        rw [filled]
        rfl
  | cons n tf_ret_vals ih =>
      constructor
      · intro success
        obtain ⟨⟨index, result⟩, readable, success⟩ := bind_ok success
        obtain ⟨next, written, success⟩ := bind_ok success
        obtain ⟨place, rfl, inside, rfl⟩ := setEntry_iff.mp written
        obtain ⟨reads, read, small, filled⟩ := ih.mp success
        refine ⟨(place, result) :: reads, .cons readable read, ?_, filled⟩
        rw [List.length_set] at small
        exact List.forall_mem_cons.mpr ⟨inside, small⟩
      · intro ⟨reads, read, small, filled⟩
        cases read with
        | @cons _ head _ rest readable read =>
            have bounds := List.forall_mem_cons.mp small
            have written : setEntry slots head.1 head.2 =
                .ok (slots.set head.1 (some head.2)) :=
              setEntry_iff.mpr ⟨head.1, rfl, bounds.1, rfl⟩
            rw [populateResults]
            simp only [bind, Except.bind, readable, written]
            apply ih.mpr
            refine ⟨rest, read, ?_, filled⟩
            rw [List.length_set]
            exact bounds.2

end Populate

/-- What a translation that succeeds has gone through: the indices of the
parameters are those of a list, and so are the indices of the results. -/
structure Built (texts : DebugStrings) (table : TranslateOpMap)
    (inputs : List (List Int)) (static_input_map : StaticInputMap)
    (ordered : List GraphNode) (name : String) (func : Function)
    (params : List (Nat × Parameter)) (ng_op_map : OpMap)
    (results : List (Nat × Result)) : Prop where
  noControlFlow : NoControlFlow ordered
  readParams : List.Forall₂ (fun parm (read : Nat × Parameter) =>
    readParam inputs parm = .ok ((read.1 : Int), read.2))
      (partsOf ordered).tf_params params
  paramIndices : (params.map Prod.fst).Perm (List.range params.length)
  ops : constructOps texts table static_input_map (partsOf ordered).tf_ops
    (saveParams [] ((partsOf ordered).tf_params.zip params)) = .ok ng_op_map
  readResults : List.Forall₂ (fun n (read : Nat × Result) =>
    readResult ng_op_map n = .ok ((read.1 : Int), read.2))
      (partsOf ordered).tf_ret_vals results
  resultIndices : (results.map Prod.fst).Perm (List.range results.length)
  parametersLength : func.parameters.length = params.length
  parameters : ∀ read ∈ params, func.parameters[read.1]? = some read.2
  resultsLength : func.results.length = results.length
  results : ∀ read ∈ results, func.results[read.1]? = some read.2
  isName : func.name = name

section Function

variable {texts : DebugStrings} {table : TranslateOpMap}
  {inputs : List (List Int)} {static_input_map : StaticInputMap}
  {ordered : List GraphNode} {name : String} {func : Function}

theorem makeFunction_iff {ng_result_list : List (Option Result)}
    {ng_parameter_list : List (Option Parameter)} :
    makeFunction ng_result_list ng_parameter_list name = .ok func ↔
      ng_result_list.mapM id = some func.results ∧
        ng_parameter_list.mapM id = some func.parameters ∧
        func.name = name := by
  unfold makeFunction
  constructor
  · intro success
    split at success
    next results parameters atResults atParameters =>
      obtain rfl := Except.ok.inj success
      exact ⟨atResults, atParameters, rfl⟩
    next => exact absurd success (by simp)
  · intro ⟨atResults, atParameters, isName⟩
    rw [atResults, atParameters, ← isName]

theorem translateNodes_iff :
    translateNodes texts table inputs static_input_map ordered name = .ok func ↔
      ∃ params ng_op_map results,
        Built texts table inputs static_input_map ordered name func
        params ng_op_map results := by
  constructor
  · intro success
    obtain ⟨parts, split, success⟩ := bind_ok success
    obtain ⟨noControlFlow, rfl⟩ := splitNodes_iff.mp split
    obtain ⟨⟨withParams, ng_parameter_list⟩, populated, success⟩ :=
      bind_ok success
    obtain ⟨params, readParams, paramsSmall, rfl, rfl⟩ :=
      populateParams_iff.mp populated
    obtain ⟨ng_op_map, constructed, success⟩ := bind_ok success
    obtain ⟨ng_result_list, gathered, success⟩ := bind_ok success
    obtain ⟨results, readResults, resultsSmall, rfl⟩ :=
      populateResults_iff.mp gathered
    obtain ⟨atResults, atParameters, isName⟩ := makeFunction_iff.mp success
    rw [List.length_replicate, readParams.length_eq] at paramsSmall
    rw [List.length_replicate, readResults.length_eq] at resultsSmall
    rw [readParams.length_eq, Slots.fill_complete paramsSmall] at atParameters
    rw [readResults.length_eq, Slots.fill_complete resultsSmall] at atResults
    exact ⟨params, ng_op_map, results, noControlFlow, readParams,
      atParameters.1, constructed, readResults, atResults.1, atParameters.2.1,
      atParameters.2.2, atResults.2.1, atResults.2.2, isName⟩
  · intro ⟨params, ng_op_map, results, built⟩
    have paramsSmall := Slots.lt_of_perm built.paramIndices
    have resultsSmall := Slots.lt_of_perm built.resultIndices
    have split : splitNodes texts ordered = .ok (partsOf ordered) :=
      splitNodes_iff.mpr ⟨built.noControlFlow, rfl⟩
    have populated : populateParams inputs (partsOf ordered).tf_params []
        (List.replicate (partsOf ordered).tf_params.length none) =
          .ok (saveParams [] ((partsOf ordered).tf_params.zip params),
            Slots.fill (List.replicate params.length none) params) := by
      rw [built.readParams.length_eq]
      refine populateParams_iff.mpr ⟨params, built.readParams, ?_, rfl, rfl⟩
      rw [List.length_replicate]
      exact paramsSmall
    have gathered : populateResults ng_op_map (partsOf ordered).tf_ret_vals
        (List.replicate (partsOf ordered).tf_ret_vals.length none) =
          .ok (Slots.fill (List.replicate results.length none) results) := by
      rw [built.readResults.length_eq]
      refine populateResults_iff.mpr ⟨results, built.readResults, ?_, rfl⟩
      rw [List.length_replicate]
      exact resultsSmall
    rw [translateNodes, split]
    simp only [bind, Except.bind, populated, built.ops, gathered]
    exact makeFunction_iff.mpr ⟨(Slots.fill_complete resultsSmall).mpr
      ⟨built.resultIndices, built.resultsLength, built.results⟩,
      (Slots.fill_complete paramsSmall).mpr
        ⟨built.paramIndices, built.parametersLength, built.parameters⟩,
        built.isName⟩

end Function

end NGraphBridge.NGraphBuilder
