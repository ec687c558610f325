import Mathlib.Data.Fin.Tuple.Basic
import NGraphBridge.NGraphBuilder.Opset
import NGraphBridge.TF.TensorStream

/-!
# Translating nodes

What the translators of the ops share: the op map, the inputs of an op, and the
values of its static inputs.
-/

namespace NGraphBridge.NGraphBuilder

open NGraph (Shape)
open TF

/-- How a translation ends without success. An exception becomes a status in
`TranslateGraph`; an access out of the bounds of a vector has no defined
effect. -/
inductive Failure where
  | status (error : Error)
  | exception
  | outOfBounds
  deriving DecidableEq, Repr

abbrev Translates (α : Type) := Except Failure α

def returnIfError {α : Type} (status : StatusOr α) : Translates α :=
  match status with
  | .ok value => .ok value
  | .error error => .error (.status error)

/-- The elements are given as what a cast to an integer makes of them. -/
structure StaticTensor where
  dtype : DataType
  values : List Int
  deriving DecidableEq, Repr

/-- The node at the other end of an input edge; `value` is what `FromProto`
makes of a `Const`. -/
structure InputNode where
  name : String
  type_string : String
  attrs : AttrMap
  value : Option StaticTensor
  deriving DecidableEq, Repr

/-- A node that is to be translated. The input edges are in the order of the
inputs; attributes of the kinds that an `AttrMap` does not hold are apart. -/
structure OpNode where
  name : String
  type_string : String
  attrs : AttrMap
  listAttrs : List (String × List String)
  floatAttrs : List (String × UInt32)
  inputs : List (InputNode × Nat)
  deriving DecidableEq, Repr

abbrev OpMap := List (String × List Ng)

abbrev StaticInputMap := List (Option StaticTensor)

/-- `ng_op_map[op_name].push_back(output_node)`. -/
def saveNgOp (ng_op_map : OpMap) (op_name : String)
    (output_node : Ng) : OpMap :=
  match ng_op_map with
  | [] => [(op_name, [output_node])]
  | entry :: ng_op_map =>
      if entry.1 = op_name then (entry.1, entry.2 ++ [output_node]) :: ng_op_map
      else entry :: saveNgOp ng_op_map op_name output_node

/-- The outputs that are stored for an op. -/
def OpMap.outputs (ng_op_map : OpMap) (op_name : String) : List Ng :=
  (ng_op_map.lookup op_name).getD []

theorem outputs_saveNgOp_self (ng_op_map : OpMap) (op_name : String)
    (output_node : Ng) :
    (saveNgOp ng_op_map op_name output_node).outputs op_name =
      ng_op_map.outputs op_name ++ [output_node] := by
  induction ng_op_map with
  | nil => simp [saveNgOp, OpMap.outputs]
  | cons entry ng_op_map ih =>
      obtain ⟨key, nodes⟩ := entry
      by_cases same : key = op_name
      · simp [saveNgOp, OpMap.outputs, same]
      · have differ : (op_name == key) = false := by
          rw [beq_eq_false_iff_ne]
          exact Ne.symm same
        rw [OpMap.outputs, OpMap.outputs] at ih
        simp only [saveNgOp, OpMap.outputs, if_neg same,
          List.lookup_cons, differ]
        exact ih

theorem outputs_saveNgOp_ne (ng_op_map : OpMap) {op_name other : String}
    (output_node : Ng) (different : other ≠ op_name) :
    (saveNgOp ng_op_map op_name output_node).outputs other =
      ng_op_map.outputs other := by
  have notSelf : (other == op_name) = false := by
    rw [beq_eq_false_iff_ne]
    exact different
  induction ng_op_map with
  | nil => simp [saveNgOp, OpMap.outputs, List.lookup_cons, notSelf]
  | cons entry ng_op_map ih =>
      obtain ⟨key, nodes⟩ := entry
      by_cases same : key = op_name
      · subst same
        simp [saveNgOp, OpMap.outputs, List.lookup_cons, notSelf]
      · rw [OpMap.outputs, OpMap.outputs] at ih
        simp only [saveNgOp, OpMap.outputs, if_neg same, List.lookup_cons]
        split
        · rfl
        · exact ih

theorem outputs_saved_self (nodes : List Ng) (ng_op_map : OpMap)
    (op_name : String) :
    (nodes.foldl (saveNgOp · op_name) ng_op_map).outputs op_name =
      ng_op_map.outputs op_name ++ nodes := by
  induction nodes generalizing ng_op_map with
  | nil => exact (List.append_nil _).symm
  | cons node nodes ih =>
      rw [List.foldl_cons, ih, outputs_saveNgOp_self, List.append_assoc,
        List.singleton_append]

theorem outputs_saved_ne (nodes : List Ng) (ng_op_map : OpMap)
    {op_name other : String} (different : other ≠ op_name) :
    (nodes.foldl (saveNgOp · op_name) ng_op_map).outputs other =
      ng_op_map.outputs other := by
  induction nodes generalizing ng_op_map with
  | nil => rfl
  | cons node nodes ih =>
      rw [List.foldl_cons, ih, outputs_saveNgOp_ne _ _ different]

theorem saveNgOp_injective {ng_op_map : OpMap} {op_name : String}
    {left right : Ng}
    (same : saveNgOp ng_op_map op_name left =
      saveNgOp ng_op_map op_name right) : left = right := by
  have outputs := congrArg (fun map => OpMap.outputs map op_name) same
  simp only [outputs_saveNgOp_self] at outputs
  exact List.singleton_inj.mp (List.append_cancel_left outputs)

/-- `make_shared` throws if the node is not valid. -/
def constructNgNode (opset : Opset) (node : Ng) : Translates Ng :=
  match node.shape opset with
  | none => .error .exception
  | some _ => .ok node

theorem constructNgNode_ok {opset : Opset} {node : Ng} {shape : Shape}
    (valid : node.shape opset = some shape) :
    constructNgNode opset node = .ok node := by
  rw [constructNgNode, valid]

theorem constructNgNode_inv {opset : Opset} {node built : Ng}
    (success : constructNgNode opset node = .ok built) :
    built = node ∧ (node.shape opset).isSome := by
  unfold constructNgNode at success
  split at success
  next => exact absurd success (by simp)
  next valid =>
    exact ⟨(Except.ok.inj success).symm, by rw [valid, Option.isSome_some]⟩

instance neZero_one : NeZero 1 := ⟨Nat.one_ne_zero⟩

instance neZero_two : NeZero 2 := ⟨Nat.succ_ne_zero 1⟩

instance neZero_three : NeZero 3 := ⟨Nat.succ_ne_zero 2⟩

def validateInputCount (op : OpNode) (count : Nat) : Translates Unit :=
  if op.inputs.length ≠ count then
    .error
      (.status (errors.invalidArgument
          ("\"" ++ op.name ++ "\" requires " ++ toString count ++
            " input(s), got " ++ toString op.inputs.length ++ " instead")))
  else .ok ()

def getInputNode (ng_op_map : OpMap) (op : OpNode) (input_idx : Nat) :
    Translates Ng :=
  match op.inputs[input_idx]? with
  | none => .error (.status (errors.notFound "Edge not found"))
  | some (tf_input, src_output_idx) =>
      match ng_op_map.lookup tf_input.name with
      | none =>
          .error
            (.status
              (errors.notFound ("Ngraph op not found for " ++ tf_input.name)))
      | some ng_op =>
          match ng_op[src_output_idx]? with
          | none =>
              .error
                (.status (errors.notFound ("Input node not found at index " ++
                toString src_output_idx)))
          | some result => .ok result

/-- The inputs from `index` on. -/
def getInputNodesFrom (ng_op_map : OpMap) (op : OpNode) :
    Nat → (count : Nat) → Translates (Fin count → Ng)
  | _, 0 => .ok Fin.elim0
  | index, count + 1 => do
      let result ← getInputNode ng_op_map op index
      let remaining ← getInputNodesFrom ng_op_map op (index + 1) count
      .ok (Fin.cons result remaining)

def getInputNodes (ng_op_map : OpMap) (op : OpNode) (count : Nat) :
    Translates (Fin count → Ng) := do
  validateInputCount op count
  getInputNodesFrom ng_op_map op 0 count

theorem getInputNodesFrom_ok {ng_op_map : OpMap} {op : OpNode}
    {index count : Nat} {nodes : Fin count → Ng}
    (inputs : ∀ i : Fin count, getInputNode ng_op_map op (index + i) =
      .ok (nodes i)) :
    getInputNodesFrom ng_op_map op index count = .ok nodes := by
  induction count generalizing index with
  | zero =>
      rw [getInputNodesFrom]
      congr 1
      exact funext fun i => i.elim0
  | succ count ih =>
      have rest := @ih (index + 1) (fun i => nodes i.succ) (by
        intro i
        rw [Nat.add_assoc, Nat.add_comm 1]
        exact inputs i.succ)
      have first : getInputNode ng_op_map op index = .ok (nodes 0) := inputs 0
      rw [getInputNodesFrom]
      simp only [bind, Except.bind, first, rest]
      congr 1
      exact Fin.cons_self_tail nodes

theorem getInputNodes_ok {ng_op_map : OpMap} {op : OpNode} {count : Nat}
    {nodes : Fin count → Ng} (isCount : op.inputs.length = count)
    (inputs : ∀ i : Fin count, getInputNode ng_op_map op i = .ok (nodes i)) :
    getInputNodes ng_op_map op count = .ok nodes := by
  have enough : validateInputCount op count = .ok () :=
    if_neg (not_not_intro isCount)
  rw [getInputNodes]
  simp only [bind, Except.bind, enough]
  apply getInputNodesFrom_ok
  intro i
  rw [Nat.zero_add]
  exact inputs i

/-- An input is one of the outputs that are stored for the node at the other
end. -/
theorem getInputNode_iff {ng_op_map : OpMap} {op : OpNode} {input_idx : Nat}
    {node : Ng} :
    getInputNode ng_op_map op input_idx = .ok node ↔
      ∃ input slot, op.inputs[input_idx]? = some (input, slot) ∧
        (ng_op_map.outputs input.name)[slot]? = some node := by
  unfold getInputNode OpMap.outputs
  cases atInput : op.inputs[input_idx]? with
  | none =>
      constructor
      · exact fun found => nomatch found
      · exact fun ⟨_, _, found, _⟩ => nomatch found
  | some edge =>
      obtain ⟨input, slot⟩ := edge
      have only : ∀ other place, some (input, slot) = some (other, place) →
          other = input ∧ place = slot := by
        intro other place same
        cases same
        exact ⟨rfl, rfl⟩
      dsimp only
      cases atName : ng_op_map.lookup input.name with
      | none =>
          constructor
          · exact fun found => nomatch found
          · intro ⟨other, place, same, stored⟩
            obtain ⟨rfl, rfl⟩ := only other place same
            rw [atName] at stored
            exact nomatch stored
      | some ng_op =>
          dsimp only
          constructor
          · intro found
            cases atSlot : ng_op[slot]? with
            | none =>
                rw [atSlot] at found
                exact nomatch found
            | some result =>
                rw [atSlot] at found
                refine ⟨input, slot, rfl, ?_⟩
                rw [atName, Option.getD_some, atSlot, Except.ok.inj found]
          · intro ⟨other, place, same, stored⟩
            obtain ⟨rfl, rfl⟩ := only other place same
            rw [atName, Option.getD_some] at stored
            rw [stored]

def getStaticNodeTensor (node : InputNode) (static_input_map : StaticInputMap) :
    Translates StaticTensor :=
  if node.type_string = "_Arg" then do
    let arg_index ← returnIfError (getNodeAttrInt node.attrs "index")
    if arg_index < 0 then .error .outOfBounds
    else
      match static_input_map[arg_index.toNat]? with
      | none => .error .outOfBounds
      | some none =>
          .error
            (.status
              (errors.internal
                ("GetStaticNodeTensor called on _Arg but input tensor " ++
                  "is missing from static input map")))
      | some (some source_tensor) => .ok source_tensor
  else if node.type_string = "Const" then
    match node.value with
    | none =>
        .error
          (.status
            (errors.internal
              "GetStaticNodeTensor: Const tensor proto parsing failed"))
    | some result => .ok result
  else
    .error
      (.status
        (errors.internal ("GetStaticNodeTensor called on node with type " ++
          node.type_string ++ "; _Arg or Const expected")))

/-- A conversion to a signed integer of the given width. -/
def toSigned (bits : Nat) (value : Int) : Int := value.bmod (2 ^ bits)

/-- `TensorDataToVector` for a vector of signed integers; what has their type is
copied. -/
def tensorDataToVector (bits : Nat) (vector_type : DataType)
    (tensor : StaticTensor) : Translates (List Int) :=
  match tensor.dtype with
  | .DT_FLOAT | .DT_DOUBLE | .DT_INT8 | .DT_INT16 | .DT_INT32 | .DT_INT64
  | .DT_UINT8 | .DT_UINT16 | .DT_UINT32 | .DT_UINT64 | .DT_BOOL =>
      .ok (tensor.values.map (toSigned bits))
  | dt =>
      .error
        (.status
          (errors.internal ("TensorDataToVector: tensor has element type " ++
            DataType_Name dt ++ ", vector has type " ++
            DataType_Name vector_type ++ "; don't know how to convert")))

def getStaticInputVector (bits : Nat) (vector_type : DataType) (op : OpNode)
    (input_index : Nat) (static_input_map : StaticInputMap) :
    Translates (List Int) :=
  match op.inputs[input_index]? with
  | none =>
      .error (.status (errors.invalidArgument "Could not find input edge"))
  | some (input_node, _) => do
      let input_tensor ← getStaticNodeTensor input_node static_input_map
      tensorDataToVector bits vector_type input_tensor

abbrev getStaticInputInt64s := getStaticInputVector 64 .DT_INT64

abbrev getStaticInputInts := getStaticInputVector 32 .DT_INT32

section Signed

variable {bits : Nat} {value : Int}

theorem two_pow_half (half : Nat) :
    ((2 ^ (half + 1) : Nat) : Int) = 2 * 2 ^ half := by
  rw [Nat.pow_succ, Nat.mul_comm]
  push_cast
  rfl

theorem toSigned_bounds (positive : 0 < bits) :
    -(2 ^ (bits - 1) : Int) ≤ toSigned bits value ∧
    toSigned bits value < 2 ^ (bits - 1) := by
  cases bits with
  | zero => exact absurd positive (Nat.lt_irrefl 0)
  | succ half =>
      have lower := @Int.le_bmod value (2 ^ (half + 1)) (Nat.two_pow_pos _)
      have upper := @Int.bmod_lt value (2 ^ (half + 1)) (Nat.two_pow_pos _)
      rw [two_pow_half] at lower upper
      rw [Nat.add_sub_cancel, toSigned]
      constructor <;> omega

theorem toSigned_eq (positive : 0 < bits)
    (lower : -(2 ^ (bits - 1) : Int) ≤ value) (upper : value < 2 ^ (bits - 1)) :
    toSigned bits value = value := by
  cases bits with
  | zero => exact absurd positive (Nat.lt_irrefl 0)
  | succ half =>
      rw [Nat.add_sub_cancel] at lower upper
      apply Int.bmod_eq_of_le <;> rw [two_pow_half] <;> omega

theorem getStaticInputVector_bounds {vector_type : DataType} {op : OpNode}
    {input_index : Nat} {static_input_map : StaticInputMap} {vector : List Int}
    (positive : 0 < bits)
    (success : getStaticInputVector bits vector_type op input_index
      static_input_map = .ok vector)
    {entry : Int} (member : entry ∈ vector) :
    -(2 ^ (bits - 1) : Int) ≤ entry ∧ entry < 2 ^ (bits - 1) := by
  unfold getStaticInputVector at success
  split at success
  next => exact absurd success (by simp)
  next =>
    obtain ⟨tensor, _, success⟩ := bind_ok success
    have converted : vector = tensor.values.map (toSigned bits) := by
      unfold tensorDataToVector at success
      split at success <;> first
        | exact (Except.ok.inj success).symm
        | exact absurd success (by simp)
    rw [converted] at member
    obtain ⟨value, _, rfl⟩ := List.mem_map.mp member
    exact toSigned_bounds positive

end Signed

end NGraphBridge.NGraphBuilder
