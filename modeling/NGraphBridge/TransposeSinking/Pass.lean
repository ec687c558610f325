import Mathlib.Logic.Function.Basic
import NGraphBridge.Lib.Fallible
import NGraphBridge.Lib.TensorOps
import NGraphBridge.NGraph.Function

/-!
# Transpose sinking

The pass keeps, for every output it has gone over, a transpose that is still to
be done behind it. Transposes are taken out of the graph at the end.
-/

namespace NGraphBridge.TransposeSinking

open NGraph (Output Shape)
open Tensor Axes

inductive Thrown where
  | runtime_error (message : String)
  | out_of_range
  | null_pointer
  | node_validation_failure
  | check_failure
  deriving DecidableEq, Repr

abbrev Throws (α : Type) := Except Thrown α

/-- The ops that the pass tells apart. An order, a shape or pads that are inputs
from a constant are given by their value; `input_values` are the other
inputs. -/
inductive Op where
  | Parameter (shape : Shape)
  | Transpose (order : List Nat)
  | Reshape (shape : Shape)
  | Unary (type_name : String)
  | Binary (type_name : String)
  | Pad (pads_begin pads_end : List Int) (pad_mode : PadMode)
  | Concat (concatenation_axis : Nat)
  | Result
  | Label (shape : Shape)
  | Other (type_name : String)
  deriving DecidableEq, Repr

structure Node where
  op : Op
  input_values : List Output
  output_shapes : List Shape
  deriving DecidableEq, Repr

instance : Inhabited Node := ⟨⟨.Result, [], []⟩⟩

/-- The nodes that were made, numbered; `size` is the next number. -/
structure Heap where
  node : Nat → Node
  size : Nat

/-- What other ops make of the shapes of their inputs. -/
abbrev Inference := String → List Shape → Option (List Shape)

def broadcastShape (left right : Shape) : Option Shape :=
  stretchAll (extend right.length left) (extend left.length right)

/-- `validate_and_infer_types`. -/
def infer (other : Inference) : Op → List Shape → Option (List Shape)
  | .Parameter shape, [] => some [shape]
  | .Transpose order, [shape] =>
      if IsOrder order shape.length then some [permute order shape] else none
  | .Reshape pattern, [shape] =>
      if shape.prod = pattern.prod then some [pattern] else none
  | .Unary _, [shape] => some [shape]
  | .Binary _, [left, right] => (broadcastShape left right).map ([·])
  | .Pad pads_begin pads_end pad_mode, [shape, value] =>
      if value = [] then (padShape pad_mode pads_begin pads_end shape).map ([·])
      else none
  | .Concat axis, shapes => (concatShape axis shapes).map ([·])
  | .Result, [shape] => some [shape]
  | .Label shape, [] => some [shape]
  | .Other type_name, shapes => other type_name shapes
  | _, _ => none

namespace Heap

def get_shape (heap : Heap) (output : Output) : Shape :=
  (heap.node output.node).output_shapes.getD output.index []

/-- The default is never read: a node is asked for the inputs that its op
has. -/
def input_value (heap : Heap) (id i : Nat) : Output :=
  (heap.node id).input_values.getD i ⟨0, 0⟩

/-- The order of a transpose. -/
def get_axis_vector_val (heap : Heap) (transpose : Nat) : List Nat :=
  match (heap.node transpose).op with
  | .Transpose order => order
  | _ => []

def ofList (nodes : List Node) : Heap :=
  ⟨fun id => nodes.getD id default, nodes.length⟩

def set (heap : Heap) (id : Nat) (node : Node) : Heap :=
  { heap with node := Function.update heap.node id node }

def add (heap : Heap) (node : Node) : Heap where
  node := Function.update heap.node heap.size node
  size := heap.size + 1

/-- `make_shared`. -/
def make (heap : Heap) (op : Op) (input_values : List Output) :
    Throws (Nat × Heap) :=
  match infer (fun _ _ => none) op (input_values.map heap.get_shape) with
  | none => .error .node_validation_failure
  | some output_shapes =>
      .ok (heap.size, heap.add ⟨op, input_values, output_shapes⟩)

def replace_source_output (heap : Heap) (id i : Nat) (source : Output) : Heap :=
  heap.set id { heap.node id with input_values :=
      (heap.node id).input_values.set i source }

/-- Every reader of an output reads another. -/
def redirect (heap : Heap) (change : Output → Output) : Heap :=
  { heap with node := fun id =>
      { heap.node id with input_values :=
          (heap.node id).input_values.map change } }

/-- `replace_node`, output by output. -/
def replace_node (heap : Heap) (target replacement : Nat) : Heap :=
  heap.redirect fun output =>
    if output.node = target then ⟨replacement, output.index⟩ else output

end Heap

def applyPermutation {α : Type} [Inhabited α] (input : List α)
    (order : List Nat) : Throws (List α) :=
  match collect (input[·]?) order with
  | none => .error .out_of_range
  | some output =>
      .ok (output ++ List.replicate (input.length - order.length) default)

/-- The loop of `permutation_to_default_order` from place `i` on. -/
def writePlaces : List Nat → Nat → List Nat → Throws (List Nat)
  | [], _, out => .ok out
  | axis :: axis_order, i, out =>
      if axis < out.length then writePlaces axis_order (i + 1) (out.set axis i)
      else .error .out_of_range

def permutationToDefaultOrder (axis_order : List Nat) : Throws (List Nat) :=
  writePlaces axis_order 0 (List.replicate axis_order.length 0)

def getDefaultOrder (shape : Shape) : List Nat := List.range shape.length

/-- The variables of `run_on_function`. -/
structure State where
  heap : Heap
  reorders : Output → Option Nat
  transposes_to_delete : List Nat
  orig_result_out_shape : Nat → Shape

def makeTranspose (heap : Heap) (arg : Output) (input_order : List Nat) :
    Throws (Nat × Heap) :=
  heap.make (.Transpose input_order) [arg]

def makeReshape (heap : Heap) (arg : Output) (shape : Shape) :
    Throws (Nat × Heap) :=
  heap.make (.Reshape shape) [arg]

def writeTransposemap (state : State) (target : Output)
    (transpose : Nat) : State :=
  { state with reorders :=
      Function.update state.reorders target (some transpose) }

def readTransposemap (state : State) (target : Output) : Throws Nat :=
  match state.reorders target with
  | none => .error .null_pointer
  | some transpose => .ok transpose

def combineTransposes (heap : Heap) (t1 t2 : Nat) : Throws (Nat × Heap) := do
  let default_order := getDefaultOrder (heap.get_shape ⟨t1, 0⟩)
  let perm_t1 ← applyPermutation default_order (heap.get_axis_vector_val t1)
  let perm_t2 ← applyPermutation perm_t1 (heap.get_axis_vector_val t2)
  makeTranspose heap (heap.input_value t2 0) perm_t2

/-- The transpose reads the first output of the node that the target reads. -/
def insertTranspose (heap : Heap) (target transpose input_index : Nat) :
    Throws Heap := do
  let arg := heap.input_value target input_index
  let new_transpose ← makeTranspose heap ⟨arg.node, 0⟩
      (heap.get_axis_vector_val transpose)
  .ok (new_transpose.2.replace_source_output target input_index
      ⟨new_transpose.1, 0⟩)

def deleteTranspose (heap : Heap) (transpose : Nat) : Heap :=
  heap.redirect fun output =>
    if output = ⟨transpose, 0⟩ then heap.input_value transpose 0 else output

def markTransposeForDeletion (state : State) (transpose : Nat) : State :=
  { state with transposes_to_delete :=
      state.transposes_to_delete.insert transpose }

def createDefaultTranspose (heap : Heap) (n : Output) : Throws (Nat × Heap) :=
  heap.make (.Transpose (getDefaultOrder (heap.get_shape n))) [n]

/-- The left argument in the new order; a reshape if it is broadcast. -/
def makeOrdered (heap : Heap) (left : Output) (perm_to_def : List Nat) :
    Throws (Nat × Heap) :=
  let left_shape := heap.get_shape left
  if left_shape.length < perm_to_def.length then do
    let new_shape ← applyPermutation (extend perm_to_def.length left_shape)
        perm_to_def
    makeReshape heap left new_shape
  else if left_shape.length = perm_to_def.length then
    makeTranspose heap left perm_to_def
  else
    .error
      (.runtime_error
        "case not supported when converting binary to default order")

/-- The left argument, at one input of the node, gets the order of the right
one. -/
def convertBinaryToDefaultOrder (binary input : Nat) (right : Output)
    (state : State) : Throws State := do
  let left := state.heap.input_value binary input
  let right_t ← readTransposemap state right
  let perm_to_def ← permutationToDefaultOrder
      (state.heap.get_axis_vector_val right_t)
  let new_node ← makeOrdered state.heap left perm_to_def
  let heap := new_node.2.replace_source_output binary input ⟨new_node.1, 0⟩
  .ok
    (writeTransposemap
      (markTransposeForDeletion { state with heap := heap } right_t)
      ⟨binary, 0⟩ right_t)

/-- Every output from `i` on gets a default transpose. -/
def writeDefaults (n : Nat) : Nat → Nat → State → Throws State
  | 0, _, state => .ok state
  | count + 1, i, state => do
      let transpose ← createDefaultTranspose state.heap ⟨n, i⟩
      writeDefaults n count (i + 1)
        (writeTransposemap { state with heap := transpose.2 }
          ⟨n, i⟩ transpose.1)

/-- The pending transpose of one input is done. -/
def materializeInput (n i : Nat) (state : State) : Throws State := do
  let arg := state.heap.input_value n i
  let arg_transpose ← readTransposemap state arg
  let state := markTransposeForDeletion state arg_transpose
  if state.heap.get_axis_vector_val arg_transpose ≠
    getDefaultOrder (state.heap.get_shape arg) then
    let heap ← insertTranspose state.heap n arg_transpose i
    .ok { state with heap := heap }
  else .ok state

def materializeInputs (n : Nat) : Nat → Nat → State → Throws State
  | 0, _, state => .ok state
  | count + 1, i, state => do
      let state ← materializeInput n i state
      materializeInputs n count (i + 1) state

def materializeShapes (n : Nat) (state : State) : Throws State := do
  let state ← writeDefaults n (state.heap.node n).output_shapes.length 0 state
  materializeInputs n (state.heap.node n).input_values.length 0 state

def sinkTranspose (transpose : Nat) (state : State) : Throws State := do
  let transpose_in := state.heap.input_value transpose 0
  let orig_transpose ← readTransposemap state transpose_in
  let new_transpose ← combineTransposes state.heap orig_transpose transpose
  let state := markTransposeForDeletion state orig_transpose
  let heap := new_transpose.2.replace_node transpose new_transpose.1
  let state := markTransposeForDeletion { state with heap := heap }
    new_transpose.1
  .ok (writeTransposemap state ⟨new_transpose.1, 0⟩ new_transpose.1)

def sinkUnary (n : Nat) (state : State) : Throws State := do
  let arg_transpose ← readTransposemap state (state.heap.input_value n 0)
  .ok (writeTransposemap state ⟨n, 0⟩ arg_transpose)

def sinkBinary (binary : Nat) (state : State) : Throws State := do
  let left := state.heap.input_value binary 0
  let right := state.heap.input_value binary 1
  let left_t ← readTransposemap state left
  let right_t ← readTransposemap state right
  let left_order := state.heap.get_axis_vector_val left_t
  let right_order := state.heap.get_axis_vector_val right_t
  let left_mismatch := left_order ≠ getDefaultOrder (state.heap.get_shape left)
  let right_mismatch :=
    right_order ≠ getDefaultOrder (state.heap.get_shape right)
  if (left_order.length = right_order.length ∧ left_order = right_order) ∨
      (¬ left_mismatch ∧ ¬ right_mismatch) then
    let new_transpose :=
      if state.heap.get_shape ⟨binary, 0⟩ = state.heap.get_shape left then
        left_t else right_t
    let state := writeTransposemap state ⟨binary, 0⟩ new_transpose
    .ok
      (markTransposeForDeletion (markTransposeForDeletion state left_t) right_t)
  else do
    let converted : Throws State :=
      if right_mismatch then convertBinaryToDefaultOrder binary 0 right state
      else .ok state
    let state ← converted
    if left_mismatch then convertBinaryToDefaultOrder binary 1 left state
    else .ok state

/-- The inputs of a `Pad` are its argument and the pad value. -/
def sinkPad (n : Nat) (pads_begin pads_end : List Int) (pad_mode : PadMode)
    (state : State) : Throws State := do
  let n_in := state.heap.input_value n 0
  let arg_transpose ← readTransposemap state n_in
  let order := state.heap.get_axis_vector_val arg_transpose
  let def_order ← permutationToDefaultOrder order
  let input_shape ← applyPermutation
      (state.heap.get_shape ⟨arg_transpose, 0⟩) def_order
  let dummy_correct_shape ← state.heap.make (.Label input_shape) []
  let pad_begin ← applyPermutation pads_begin def_order
  let pad_end ← applyPermutation pads_end def_order
  let new_pad ← dummy_correct_shape.2.make (.Pad pad_begin pad_end pad_mode)
    [⟨dummy_correct_shape.1, 0⟩, state.heap.input_value n 1]
  let heap := new_pad.2.replace_node dummy_correct_shape.1 n_in.node
  let heap := heap.replace_node n new_pad.1
  let new_transpose ← makeTranspose heap ⟨new_pad.1, 0⟩ order
  .ok (writeTransposemap { state with heap := new_transpose.2 }
      ⟨new_pad.1, 0⟩ new_transpose.1)

/-- The dummies for the arguments, or nothing if one of them has another
order. -/
def concatArgs (order def_order : List Nat) : List Output → State →
    Throws (Option (List Output × Heap))
  | [], state => .ok (some ([], state.heap))
  | iarg :: iargs, state => do
      let iarg_transpose ← readTransposemap state iarg
      if state.heap.get_axis_vector_val iarg_transpose ≠ order then .ok none
      else
        let iinput_shape ← applyPermutation
          (state.heap.get_shape ⟨iarg_transpose, 0⟩) def_order
        let dummy ← state.heap.make (.Label iinput_shape) []
        let rest ← concatArgs order def_order iargs
          { state with heap := dummy.2 }
        .ok (rest.map fun made => (⟨dummy.1, 0⟩ :: made.1, made.2))

def sinkConcat (n concatenation_axis : Nat) (state : State) : Throws State := do
  let arg_transpose ← readTransposemap state (state.heap.input_value n 0)
  let order := state.heap.get_axis_vector_val arg_transpose
  let def_order ← permutationToDefaultOrder order
  let new_args ← concatArgs order def_order
      (state.heap.node n).input_values state
  match new_args with
  | none => materializeShapes n state
  | some new_args =>
      match order[concatenation_axis]? with
      | none => .error .out_of_range
      | some new_axis => do
          let new_concat ← new_args.2.make (.Concat new_axis) new_args.1
          -- put back the original arguments
          let heap := new_concat.2.set new_concat.1
            { new_concat.2.node new_concat.1 with
            input_values := (state.heap.node n).input_values }
          let heap := heap.replace_node n new_concat.1
          let new_transpose ← makeTranspose heap ⟨new_concat.1, 0⟩ order
          .ok (writeTransposemap { state with heap := new_transpose.2 }
              ⟨new_concat.1, 0⟩ new_transpose.1)

/-- The body of the main loop. -/
def sinkNode (n : Nat) (state : State) : Throws State :=
  match (state.heap.node n).op with
  | .Transpose _ => sinkTranspose n state
  | .Unary _ => sinkUnary n state
  | .Binary _ => sinkBinary n state
  | .Pad pads_begin pads_end pad_mode =>
      sinkPad n pads_begin pads_end pad_mode state
  | .Concat concatenation_axis => sinkConcat n concatenation_axis state
  | .Result =>
      materializeShapes n { state with
        orig_result_out_shape :=
          Function.update state.orig_result_out_shape n
            (state.heap.get_shape ⟨n, 0⟩) }
  | _ => materializeShapes n state

def sinkNodes : List Nat → State → Throws State
  | [], state => .ok state
  | n :: ops, state => do
      let state ← sinkNode n state
      sinkNodes ops state

/-- The transposes are deleted in the order of their addresses. -/
def purge (transposes_to_delete : List Nat) (heap : Heap) : Heap :=
  transposes_to_delete.foldl deleteTranspose heap

def revalidate (other : Inference) : List Nat → Heap → Throws Heap
  | [], heap => .ok heap
  | n :: ops, heap =>
      let node := heap.node n
      match infer other node.op (node.input_values.map heap.get_shape) with
      | none => .error .node_validation_failure
      | some output_shapes =>
          revalidate other ops
            (heap.set n { node with output_shapes := output_shapes })

def checkResults (heap : Heap) (orig_result_out_shape : Nat → Shape) :
    List Nat → Throws Unit
  | [] => .ok ()
  | r :: results =>
      if heap.get_shape ⟨r, 0⟩ = heap.get_shape (heap.input_value r 0) ∧
          heap.get_shape ⟨r, 0⟩ = orig_result_out_shape r then
        checkResults heap orig_result_out_shape results
      else .error .check_failure

/-- A function; `ops` is what `get_ordered_ops` returns. -/
structure Function where
  heap : Heap
  ops : List Nat
  results : List Nat

def Function.init (f : Function) : State where
  heap := f.heap
  reorders := fun _ => none
  transposes_to_delete := []
  orig_result_out_shape := fun _ => []

/-- What is not under the control of the pass: the addresses of nodes, which
order sets of pointers, and the order that `get_ordered_ops` picks for the new
graph. -/
structure Enumeration where
  address : List Nat → List Nat
  get_ordered_ops : Heap → List Nat

def runOnFunction (other : Inference) (enumeration : Enumeration)
    (f : Function) : Throws Heap := do
  let state ← sinkNodes f.ops f.init
  let heap := purge (enumeration.address state.transposes_to_delete) state.heap
  let heap ← revalidate other (enumeration.get_ordered_ops heap) heap
  checkResults heap state.orig_result_out_shape f.results
  .ok heap

theorem collect_getElem? {α : Type} {order : List Nat} {list : List α}
    (inside : Inside order list.length) :
    collect (list[·]?) order = some (permute order list) := by
  induction order with
  | nil => rfl
  | cons axis order ih =>
      have below := inside axis (by simp)
      rw [collect, List.getElem?_eq_getElem below, Option.bind_some,
        ih inside.tail, permute_cons order below, Option.map_some]

theorem applyPermutation_ok {α : Type} [Inhabited α] {order : List Nat}
    {input : List α} (isOrder : IsOrder order input.length) :
    applyPermutation input order = .ok (permute order input) := by
  rw [applyPermutation, collect_getElem? isOrder.inside]
  simp [isOrder.length]

theorem writePlaces_ok {axis_order out : List Nat} {i : Nat}
    (inside : Inside axis_order out.length) (nodup : axis_order.Nodup) :
    ∃ result, writePlaces axis_order i out = .ok result ∧
      result.length = out.length ∧ ∀ axis, result[axis]? =
        if axis ∈ axis_order then some (i + axis_order.idxOf axis)
          else out[axis]? := by
  induction axis_order generalizing i out with
  | nil => exact ⟨out, rfl, rfl, by simp⟩
  | cons first axis_order ih =>
      have below := inside first (by simp)
      obtain ⟨notLater, nodup⟩ := List.nodup_cons.mp nodup
      have insideRest : Inside axis_order (out.set first i).length := by
        rw [List.length_set]
        exact inside.tail
      obtain ⟨result, success, length, entries⟩ :=
        @ih (out.set first i) (i + 1) insideRest nodup
      refine ⟨result, ?_, length.trans List.length_set, fun axis => ?_⟩
      · rw [writePlaces, if_pos below, success]
      · rw [entries]
        by_cases same : first = axis
        · subst same
          rw [if_neg notLater, if_pos (by simp), List.getElem?_set_self below,
            List.idxOf_cons_self]
          rfl
        · by_cases later : axis ∈ axis_order
          · rw [if_pos later, if_pos (by simp [later]),
              List.idxOf_cons_ne _ same]
            congr 1
            omega
          · have notThere : axis ∉ first :: axis_order := by
              rw [List.mem_cons]
              exact fun isMember => isMember.elim (fun eq => same eq.symm) later
            rw [if_neg later, if_neg notThere, List.getElem?_set_ne same]

theorem permutationToDefaultOrder_ok {axis_order : List Nat} {rank : Nat}
    (isOrder : IsOrder axis_order rank) :
    permutationToDefaultOrder axis_order = .ok (inverse axis_order) := by
  have inside : Inside axis_order
      (List.replicate axis_order.length 0).length := by
    rw [List.length_replicate, isOrder.length]
    exact isOrder.inside
  obtain ⟨result, success, length, entries⟩ :=
    @writePlaces_ok _ _ 0 inside isOrder.nodup
  rw [List.length_replicate] at length
  rw [permutationToDefaultOrder, success]
  congr 1
  apply List.ext_getElem (length.trans (length_inverse _).symm)
  intro axis bound inverseBound
  have member : axis ∈ axis_order :=
    isOrder.mem (isOrder.length ▸ length ▸ bound)
  have here := entries axis
  rw [if_pos member, List.getElem?_eq_getElem bound, Option.some.injEq,
    Nat.zero_add] at here
  rw [here, getElem_inverse inverseBound]

namespace Heap

variable {heap : Heap} {node : Node} {id : Nat}

@[simp] theorem add_size : (heap.add node).size = heap.size + 1 := rfl

@[simp] theorem add_node_self : (heap.add node).node heap.size = node :=
  Function.update_self _ _ _

theorem add_node (below : id < heap.size) :
    (heap.add node).node id = heap.node id :=
  Function.update_of_ne (Nat.ne_of_lt below) _ _

theorem add_get_shape {output : Output} (below : output.node < heap.size) :
    (heap.add node).get_shape output = heap.get_shape output := by
  rw [get_shape, get_shape, add_node below]

@[simp] theorem set_node_self : (heap.set id node).node id = node :=
  Function.update_self _ _ _

theorem set_node_ne {other : Nat} (different : other ≠ id) :
    (heap.set id node).node other = heap.node other :=
  Function.update_of_ne different _ _

theorem make_ok {op : Op} {input_values : List Output}
    {output_shapes : List Shape}
    (inferred : infer (fun _ _ => none) op (input_values.map heap.get_shape) =
      some output_shapes) :
    heap.make op input_values =
      .ok (heap.size, heap.add ⟨op, input_values, output_shapes⟩) := by
  rw [make, inferred]

/-- A transpose of an argument. -/
def transposeOf (heap : Heap) (arg : Output) (order : List Nat) : Node :=
  ⟨.Transpose order, [arg], [permute order (heap.get_shape arg)]⟩

theorem makeTranspose_ok {arg : Output} {order : List Nat}
    (isOrder : IsOrder order (heap.get_shape arg).length) :
    makeTranspose heap arg order =
      .ok (heap.size, heap.add (heap.transposeOf arg order)) := by
  apply make_ok
  rw [List.map_cons, List.map_nil, infer, if_pos isOrder]

end Heap

end NGraphBridge.TransposeSinking
