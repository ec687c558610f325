import Mathlib.Algebra.GroupWithZero.Nat
import Mathlib.Data.List.Nodup
import Mathlib.Data.List.Perm.Basic
import NGraphBridge.Lib.StraightLine

/-!
# nGraph functions

A function as the executable sees it: nodes in the order of `get_ordered_ops`,
with the parameters and results among them.
-/

namespace NGraphBridge.NGraph

inductive ElementType where
  | boolean | bf16 | f16 | f32 | f64 | i8 | i16 | i32 | i64 | u1 | u8 | u16 | u32
  | u64
  deriving DecidableEq, Repr

def ElementType.get_type_name : ElementType → String
  | .boolean => "boolean" | .bf16 => "bf16" | .f16 => "f16" | .f32 =>
      "f32" | .f64 => "f64"
  | .i8 => "i8" | .i16 => "i16" | .i32 => "i32" | .i64 => "i64"
  | .u1 => "u1" | .u8 => "u8" | .u16 => "u16" | .u32 => "u32" | .u64 => "u64"

/-- `element::Type::size`, in bytes. -/
def ElementType.size : ElementType → Nat
  | .boolean | .i8 | .u1 | .u8 => 1
  | .bf16 | .f16 | .i16 | .u16 => 2
  | .f32 | .i32 | .u32 => 4
  | .f64 | .i64 | .u64 => 8

theorem ElementType.size_pos (element_type : ElementType) :
    0 < element_type.size := by
  cases element_type <;> decide

abbrev Shape := List Nat

def shape_size (shape : Shape) : Nat := shape.prod

/-- A shape that may still be open. -/
inductive PartialShape where
  | dynamic
  | static (shape : Shape)
  deriving DecidableEq, Repr

/-- `runtime::Tensor`: a buffer with room for every element. -/
structure Tensor where
  element_type : ElementType
  shape : Shape
  data : List UInt8
  full : data.length = shape_size shape * element_type.size
  deriving DecidableEq

def Tensor.fill (element_type : ElementType) (shape : Shape)
    (byte : UInt8) : Tensor :=
  ⟨element_type, shape, List.replicate (shape_size shape * element_type.size)
    byte, by simp⟩

instance : Inhabited Tensor := ⟨.fill .u8 [] 0⟩

theorem Tensor.ext_data {left right : Tensor}
    (type : left.element_type = right.element_type)
    (shape : left.shape = right.shape) (data : left.data = right.data) :
    left = right := by
  cases left
  cases right
  simp_all

structure OutputType where
  element_type : ElementType
  partial_shape : PartialShape
  deriving DecidableEq, Repr

def OutputType.Has (type : OutputType) (tensor : Tensor) : Prop :=
  tensor.element_type = type.element_type ∧
    ∀ shape, type.partial_shape = .static shape → tensor.shape = shape

/-- `Output<Node>`: one of the outputs of a node. -/
@[ext]
structure Output where
  node : Nat
  index : Nat
  deriving DecidableEq, Repr

inductive Op where
  | Parameter
  | Constant (value : Tensor)
  | Result
  | op (type_name : String)
  deriving DecidableEq

structure Node where
  id : Nat
  friendly_name : String
  op : Op
  input_values : List Output
  outputs : List OutputType
  deriving DecidableEq

namespace Node

instance : Inhabited Node := ⟨⟨0, "", .Parameter, [], []⟩⟩

def type_name (node : Node) : String :=
  match node.op with
  | .Parameter => "Parameter"
  | .Constant _ => "Constant"
  | .Result => "Result"
  | .op type_name => type_name

def get_name (node : Node) : String :=
  node.type_name ++ "_" ++ toString node.id

def is_parameter (node : Node) : Bool :=
  match node.op with
  | .Parameter => true
  | _ => false

def as_constant (node : Node) : Option Tensor :=
  match node.op with
  | .Constant value => some value
  | _ => none

/-- The default is never read: results and unary operations have an input. -/
def input_value (node : Node) (i : Nat) : Output :=
  node.input_values.getD i ⟨0, 0⟩

def get_output_type (node : Node) (i : Nat) : OutputType :=
  node.outputs.getD i ⟨.u8, .dynamic⟩

/-- `replace_node` for one reader: what it read of `source` it reads of
`target`. -/
def redirect (source target : Nat) (node : Node) : Node :=
  { node with input_values := node.input_values.map fun input =>
      if input.node == source then ⟨target, input.index⟩ else input }

end Node

structure Function where
  ops : List Node
  results : List Node
  parameters : List Node
  deriving DecidableEq

namespace Function

variable (func : Function)

def node (id : Nat) : Node :=
  (func.ops.find? (·.id == id)).getD default

def get_users (node : Node) : List Node :=
  func.ops.filter fun other => other.input_values.any (·.node == node.id)

def nextId : Nat :=
  (func.ops.map Node.id).foldl max 0 + 1

/-- `get_parameter_index`; none stands for -1. -/
def get_parameter_index (param : Node) : Option Nat :=
  func.parameters.findIdx? (·.id == param.id)

/-- What the operations compute: by node, from the values of its inputs, for
each of its outputs. -/
abbrev Interpretation := Nat → List Tensor → Nat → Tensor

def compute (interp : Interpretation) (argument : Nat → Tensor) (node : Node)
    (arguments : List Tensor) : Nat → Tensor :=
  match node.op with
  | .Parameter => fun _ => argument node.id
  | .Constant value => fun _ => value
  | .Result => fun _ => arguments.headD default
  | .op _ => interp node.id arguments

def meaning (interp : Interpretation) (argument : Nat → Tensor) :
    StraightLine.Meaning Node Nat (Nat → Tensor) where
  target := Node.id
  reads := fun node => node.input_values.map Output.node
  value := fun node env =>
    compute interp argument node
      (node.input_values.map fun input => env input.node input.index)

/-- The value of every output, given the values of the parameters. -/
def evaluate (interp : Interpretation) (argument : Nat → Tensor)
    (output : Output) : Tensor :=
  StraightLine.run (meaning interp argument) func.ops (fun _ _ => default)
    output.node output.index

/-- The parameters take the input tensors in order. -/
def argument (inputs : List Tensor) (id : Nat) : Tensor :=
  inputs.getD (func.parameters.findIdx (·.id == id)) default

/-- The value of a result. -/
def value (interp : Interpretation) (inputs : List Tensor)
    (result : Node) : Tensor :=
  func.evaluate interp (func.argument inputs) ⟨result.id, 0⟩

/-- Input tensors, one for each parameter in order. -/
def Accepts (inputs : List Tensor) : Prop :=
  List.Forall₂ (fun param tensor => (param.get_output_type 0).Has tensor)
    func.parameters inputs

/-- What the constructor of a function and shape inference ensure. -/
structure WF : Prop where
  ordered : StraightLine.Ordered
    (meaning (fun _ _ _ => default) fun _ => default) [] func.ops
  index : ∀ node ∈ func.ops, ∀ input ∈ node.input_values,
    input.index < (func.node input.node).outputs.length
  param : ∀ node ∈ func.parameters, node ∈ func.ops ∧ node.op = .Parameter
  declared : ∀ node ∈ func.ops, node.op = .Parameter → node ∈ func.parameters
  paramsNodup : func.parameters.Nodup
  paramInputs : ∀ node ∈ func.ops, node.op = .Parameter →
    node.input_values = [] ∧ node.outputs.length = 1
  constant : ∀ node ∈ func.ops, ∀ value ∈ node.as_constant,
    node.input_values = [] ∧
    node.outputs = [⟨value.element_type, .static value.shape⟩]
  results : ∀ node ∈ func.results, node ∈ func.ops ∧ node.op = .Result
  resultInput : ∀ node ∈ func.ops, node.op = .Result →
    node.input_values.length = 1 ∧
    node.outputs =
      [(func.node (node.input_value 0).node).get_output_type
        (node.input_value 0).index]

variable {func} {interp : Interpretation}

theorem node_of_mem (ids : (func.ops.map Node.id).Nodup) {node : Node}
    (member : node ∈ func.ops) : func.node node.id = node := by
  have found : (func.ops.find? (·.id == node.id)).isSome := by
    rw [List.find?_isSome]
    exact ⟨node, member, by simp⟩
  obtain ⟨other, isOther⟩ := Option.isSome_iff_exists.mp found
  have sameId : other.id = node.id := by simpa using List.find?_some isOther
  rw [Function.node, isOther, Option.getD_some]
  exact List.inj_on_of_nodup_map ids (List.mem_of_find?_eq_some isOther)
    member sameId

theorem meaning_local (argument : Nat → Tensor) :
    StraightLine.Local (meaning interp argument) := by
  intro node left right agree
  have same : (node.input_values.map fun input => left input.node input.index) =
      node.input_values.map fun input => right input.node input.index := by
    apply List.map_congr_left
    intro input member
    rw [agree input.node (List.mem_map_of_mem member)]
  simp only [meaning, same]

theorem ordered_meaning {known : List Nat} {nodes : List Node}
    {interp other : Interpretation} {argument otherArgument : Nat → Tensor}
    (ordered : StraightLine.Ordered (meaning interp argument) known nodes) :
    StraightLine.Ordered (meaning other otherArgument) known nodes :=
  ordered.congr (fun _ => rfl) (fun _ => rfl)

namespace WF

variable (wf : func.WF)
include wf

theorem params (node : Node) : node ∈ func.parameters ↔ node ∈ func.ops ∧
    node.op = .Parameter :=
  ⟨wf.param node, fun both => wf.declared node both.1 both.2⟩

theorem constants {node : Node} (member : node ∈ func.ops) {value : Tensor}
    (kind : node.op = .Constant value) :
    node.input_values = [] ∧
    node.outputs = [⟨value.element_type, .static value.shape⟩] :=
  wf.constant node member value (by simp [Node.as_constant, kind])

theorem resultInputs {node : Node} (member : node ∈ func.ops)
    (kind : node.op = .Result) :
    ∃ input, node.input_values = [input] ∧
      node.outputs = [(func.node input.node).get_output_type input.index] := by
  obtain ⟨oneInput, type⟩ := wf.resultInput node member kind
  obtain ⟨input, isInput⟩ := List.length_eq_one_iff.mp oneInput
  refine ⟨input, isInput, ?_⟩
  simpa [Node.input_value, isInput] using type

theorem ids : (func.ops.map Node.id).Nodup := wf.ordered.nodup

theorem id_injective {left right : Node} (leftOp : left ∈ func.ops)
    (rightOp : right ∈ func.ops) (same : left.id = right.id) : left = right :=
  List.inj_on_of_nodup_map wf.ids leftOp rightOp same

theorem node_eq {node : Node} (member : node ∈ func.ops) :
    func.node node.id = node :=
  node_of_mem wf.ids member

theorem source_mem {node : Node} (member : node ∈ func.ops) {input : Output}
    (isInput : input ∈ node.input_values) :
    func.node input.node ∈ func.ops ∧
    (func.node input.node).id = input.node := by
  cases wf.ordered.read_mem member (List.mem_map_of_mem isInput) with
  | inl impossible => simp at impossible
  | inr found =>
      obtain ⟨source, inOps, same⟩ := found
      change source.id = input.node at same
      rw [← same, wf.node_eq inOps]
      exact ⟨inOps, rfl⟩

theorem evaluate_node {node : Node} (member : node ∈ func.ops)
    (argument : Nat → Tensor) (index : Nat) :
    func.evaluate interp argument ⟨node.id, index⟩ =
      compute interp argument node
        (node.input_values.map (func.evaluate interp argument)) index :=
  congrFun (StraightLine.run_solves (meaning_local argument)
      (ordered_meaning wf.ordered) _ node member) index

/-- Values that satisfy the equations of the nodes are those of the function. -/
theorem evaluate_eq {argument : Nat → Tensor} {val : Output → Tensor}
    (solves : ∀ node ∈ func.ops, ∀ index, val ⟨node.id, index⟩ =
      compute interp argument node (node.input_values.map val) index)
    {node : Node} (member : node ∈ func.ops) (index : Nat) :
    func.evaluate interp argument ⟨node.id, index⟩ = val ⟨node.id, index⟩ := by
  have ordered : StraightLine.Ordered (meaning interp argument) [] func.ops :=
    ordered_meaning wf.ordered
  have isSolution : StraightLine.Solves (meaning interp argument) func.ops
      fun id index => val ⟨id, index⟩ :=
    fun node member => funext (solves node member)
  have unique :=
    StraightLine.run_unique (meaning_local argument) ordered isSolution
      (by simp : ∀ target ∈ [], (fun index => val ⟨target, index⟩) = fun _ =>
        default) node member
  exact (congrFun unique index).symm

theorem evaluate_constant {node : Node} (member : node ∈ func.ops)
    {value : Tensor} (isConstant : node.op = .Constant value)
    (argument : Nat → Tensor) (index : Nat) :
    func.evaluate interp argument ⟨node.id, index⟩ = value := by
  rw [wf.evaluate_node member, compute, isConstant]

theorem evaluate_result {result : Node} (member : result ∈ func.results)
    (argument : Nat → Tensor) : func.evaluate interp argument ⟨result.id, 0⟩ =
      func.evaluate interp argument (result.input_value 0) := by
  obtain ⟨inOps, isResult⟩ := wf.results result member
  obtain ⟨input, isInput, _⟩ := wf.resultInputs inOps isResult
  rw [wf.evaluate_node inOps, compute, isResult]
  simp [Node.input_value, isInput]

theorem findIdx_param {k : Nat} {param : Node}
    (atK : func.parameters[k]? = some param) :
    func.parameters.findIdx (·.id == param.id) = k := by
  obtain ⟨inside, rfl⟩ := List.getElem?_eq_some_iff.mp atK
  apply (List.findIdx_eq inside).mpr
  refine ⟨by simp, ?_⟩
  intro j before
  apply beq_eq_false_iff_ne.mpr
  intro same
  have jInside : j < func.parameters.length := by omega
  have opJ := ((wf.params _).mp (List.getElem_mem jInside)).1
  have opK := ((wf.params _).mp (List.getElem_mem inside)).1
  have index := (List.Nodup.getElem_inj_iff wf.paramsNodup).mp
    (wf.id_injective opJ opK same)
  omega

theorem evaluate_param {k : Nat} {param : Node}
    (atK : func.parameters[k]? = some param) {inputs : List Tensor}
    {tensor : Tensor} (given : inputs[k]? = some tensor) (index : Nat) :
    func.evaluate interp (func.argument inputs) ⟨param.id, index⟩ = tensor := by
  obtain ⟨inOps, isParam⟩ := (wf.params param).mp (List.mem_of_getElem? atK)
  rw [wf.evaluate_node inOps, compute, isParam]
  dsimp only
  rw [argument, wf.findIdx_param atK, List.getD_eq_getElem?_getD, given,
    Option.getD_some]

theorem argument_typed {inputs : List Tensor} (accepts : func.Accepts inputs)
    {k : Nat} {param : Node} (atK : func.parameters[k]? = some param) :
    (param.get_output_type 0).Has (func.argument inputs param.id) := by
  obtain ⟨inside, rfl⟩ := List.getElem?_eq_some_iff.mp atK
  have given : k < inputs.length := accepts.length_eq ▸ inside
  have has := accepts.get inside given
  rw [argument, wf.findIdx_param atK, List.getD_eq_getElem?_getD,
    List.getElem?_eq_getElem given]
  exact has

end WF

/-- The outputs of a node have values of their declared types. -/
def Declared (func : Function) (id : Nat) (value : Nat → Tensor) : Prop :=
  ∀ index < (func.node id).outputs.length,
    ((func.node id).get_output_type index).Has (value index)

/-- What shape inference promises of the operations: from inputs of the declared
types they compute outputs of the declared types. -/
def Typed (func : Function) (interp : Interpretation) : Prop :=
  ∀ node ∈ func.ops, ∀ type_name, node.op = .op type_name →
    ∀ values : Output → Tensor, (∀ input ∈ node.input_values,
      ((func.node input.node).get_output_type input.index).Has (values input)) →
    ∀ index < node.outputs.length,
      (node.get_output_type index).Has
        (interp node.id (node.input_values.map values) index)

/-- The values of a function have their declared types. -/
theorem WF.evaluate_typed (wf : func.WF) (typed : func.Typed interp)
    {inputs : List Tensor} (accepts : func.Accepts inputs) {node : Node}
    (member : node ∈ func.ops) {index : Nat}
    (inside : index < node.outputs.length) : (node.get_output_type index).Has
      (func.evaluate interp (func.argument inputs) ⟨node.id, index⟩) := by
  have ordered : StraightLine.Ordered (meaning interp (func.argument inputs)) []
      func.ops :=
    ordered_meaning wf.ordered
  have step : ∀ node ∈ func.ops, ∀ values : Nat → Nat → Tensor,
      (∀ read ∈ node.input_values.map Output.node,
        func.Declared read (values read)) →
      func.Declared node.id (compute interp (func.argument inputs) node
        (node.input_values.map fun input =>
          values input.node input.index)) := by
    intro node member values reads index inside
    rw [wf.node_eq member] at inside ⊢
    have inputTypes : ∀ input ∈ node.input_values,
        ((func.node input.node).get_output_type input.index).Has
          (values input.node input.index) := fun input isInput =>
      reads input.node (List.mem_map_of_mem isInput) input.index
        (wf.index node member input isInput)
    unfold compute
    cases kind : node.op with
    | Parameter =>
        have single := (wf.paramInputs node member kind).2
        obtain rfl : index = 0 := by omega
        obtain ⟨k, atK⟩ :=
          List.mem_iff_getElem?.mp ((wf.params node).mpr ⟨member, kind⟩)
        exact wf.argument_typed accepts atK
    | Constant value =>
        have single := (wf.constants member kind).2
        rw [single] at inside
        obtain rfl : index = 0 := by simpa using inside
        simp [Node.get_output_type, single, OutputType.Has]
    | Result =>
        obtain ⟨input, isInput, single⟩ := wf.resultInputs member kind
        rw [single] at inside
        obtain rfl : index = 0 := by simpa using inside
        have inputType := inputTypes input (by simp [isInput])
        simpa [Node.get_output_type, single, isInput] using inputType
    | op type_name =>
        exact typed node member type_name kind
          (fun input => values input.node input.index)
          inputTypes index inside
  have all := StraightLine.run_induction ordered (fun _ _ => default)
    (by simp) step node member
  change func.Declared node.id _ at all
  have here := all index (by rwa [wf.node_eq member])
  rwa [wf.node_eq member] at here

end Function

end NGraphBridge.NGraph
