import NGraphBridge.NGraph.Function

/-!
# Shape inference

The constructor of a function infers the types of all outputs anew. An operation
may know the shape of an output only if some operand is a Constant, as the axes
of a Squeeze or the lengths of a VariadicSplit, or only if some operand has a
static shape itself.
-/

namespace NGraphBridge.NGraph

/-- What an operation sees of an operand. -/
structure Operand where
  type : OutputType
  constant : Option Tensor

instance : Inhabited Operand := ⟨⟨⟨.u8, .dynamic⟩, none⟩⟩

/-- An operand of which as much is known as of another, or less. -/
structure Operand.Weaker (operand other : Operand) : Prop where
  element_type : operand.type.element_type = other.type.element_type
  shape : operand.type.partial_shape = other.type.partial_shape ∨
    operand.type.partial_shape = .dynamic
  constant : operand.constant = other.constant ∨ operand.constant = none

/-- How the operations infer types: by node, from its operands, for each of its
outputs. `needsConstant` and `needsShape` tell by node, output and operand
whether the shape of the output takes the value or the shape of the operand. -/
structure ShapeInference where
  validate_and_infer_types : Nat → List Operand → Nat → OutputType
  needsConstant : Nat → Nat → Nat → Bool
  needsShape : Nat → Nat → Nat → Bool

namespace Function

def operand (func : Function) (input : Output) : Operand :=
  ⟨(func.node input.node).get_output_type input.index,
    (func.node input.node).as_constant⟩

def operands (func : Function) (node : Node) : List Operand :=
  node.input_values.map func.operand

end Function

namespace ShapeInference

open NGraph.Function

variable (shapes : ShapeInference)

/-- What a node makes known of its outputs. -/
def infer (node : Node) (operands : List Operand) : Nat → Operand :=
  match node.op with
  | .Parameter => fun index => ⟨node.get_output_type index, none⟩
  | .Constant value => fun _ =>
      ⟨⟨value.element_type, .static value.shape⟩, some value⟩
  | .Result => fun _ => ⟨(operands.headD default).type, none⟩
  | .op _ => fun index =>
      ⟨shapes.validate_and_infer_types node.id operands index, none⟩

def inference : StraightLine.Meaning Node Nat (Nat → Operand) where
  target := Node.id
  reads := fun node => node.input_values.map Output.node
  value := fun node env =>
    shapes.infer node
      (node.input_values.map fun input => env input.node input.index)

/-- What is known of an output once the types of a function are inferred. -/
def inferred (func : Function) (output : Output) : Operand :=
  StraightLine.run shapes.inference func.ops (fun _ _ => default) output.node
    output.index

def retype (func : Function) (node : Node) : Node :=
  { node with
    outputs := (List.range node.outputs.length).map fun index =>
      (shapes.inferred func ⟨node.id, index⟩).type }

/-- `validate_nodes_and_infer_types`, in the constructor of a function. -/
def validate (func : Function) : Function where
  ops := func.ops.map (shapes.retype func)
  results := func.results.map (shapes.retype func)
  parameters := func.parameters.map (shapes.retype func)

/-- What the operations of a function document. The types of the function are
those that they infer; where less is known of the operands they infer the same
as long as nothing is missing that they need, and otherwise leave the shape
open. -/
structure Documented (func : Function) : Prop where
  known : ∀ node ∈ func.ops, ∀ type_name, node.op = .op type_name → ∀ operands,
    List.Forall₂ Operand.Weaker operands (func.operands node) →
    ∀ index < node.outputs.length,
    (∀ (k : Nat) operand other, operands[k]? = some operand →
      (func.operands node)[k]? = some other →
      (shapes.needsConstant node.id index k = true →
        operand.constant = other.constant) ∧
      (shapes.needsShape node.id index k = true →
        operand.type.partial_shape = other.type.partial_shape)) →
    shapes.validate_and_infer_types node.id operands index =
      node.get_output_type index
  value : ∀ node ∈ func.ops, ∀ type_name, node.op = .op type_name → ∀ operands,
    List.Forall₂ Operand.Weaker operands (func.operands node) →
    ∀ index < node.outputs.length, ∀ (k : Nat) operand,
    operands[k]? = some operand →
      shapes.needsConstant node.id index k = true → operand.constant = none →
      shapes.validate_and_infer_types node.id operands index =
        ⟨(node.get_output_type index).element_type, .dynamic⟩
  shape : ∀ node ∈ func.ops, ∀ type_name, node.op = .op type_name → ∀ operands,
    List.Forall₂ Operand.Weaker operands (func.operands node) →
    ∀ index < node.outputs.length, ∀ (k : Nat) operand,
    operands[k]? = some operand →
      shapes.needsShape node.id index k = true →
      operand.type.partial_shape = .dynamic →
      shapes.validate_and_infer_types node.id operands index =
        ⟨(node.get_output_type index).element_type, .dynamic⟩

/-- The outputs whose shapes are not known without the value of a constant. -/
inductive Loses (func : Function) (constant : Nat) : Output → Prop
  | value {node : Node} {type_name : String} {k index i : Nat}
  (member : node ∈ func.ops)
      (kind : node.op = .op type_name)
      (reads : node.input_values[k]? = some ⟨constant, i⟩)
      (needs : shapes.needsConstant node.id index k = true) :
      Loses func constant ⟨node.id, index⟩
  | shape {node : Node} {type_name : String} {k index : Nat} {input : Output}
      (member : node ∈ func.ops) (kind : node.op = .op type_name)
      (reads : node.input_values[k]? = some input)
      (needs : shapes.needsShape node.id index k = true)
      (lost : Loses func constant input) :
      Loses func constant ⟨node.id, index⟩
  | result {node : Node} {index : Nat} {input : Output}
    (member : node ∈ func.ops)
      (kind : node.op = .Result) (reads : node.input_values = [input])
      (lost : Loses func constant input) : Loses func constant ⟨node.id, index⟩

variable {shapes} {func : Function}

theorem retype_get_output_type {node : Node} {index : Nat}
    (inside : index < node.outputs.length) :
    (shapes.retype func node).get_output_type index =
      (shapes.inferred func ⟨node.id, index⟩).type := by
  simp [retype, Node.get_output_type, inside]

theorem inference_ordered (wf : func.WF) :
    StraightLine.Ordered shapes.inference [] func.ops :=
  wf.ordered.congr (fun _ => rfl) (fun _ => rfl)

/-- Validation changes no values. -/
theorem validate_evaluate {interp : Interpretation} (argument : Nat → Tensor)
    (output : Output) :
    (shapes.validate func).evaluate interp argument output =
      func.evaluate interp argument output := by
  have target : ∀ node,
      (meaning interp argument).target (shapes.retype func node) =
      (meaning interp argument).target node := fun _ => rfl
  have value : ∀ node,
      (meaning interp argument).value (shapes.retype func node) =
      (meaning interp argument).value node := fun _ => rfl
  change StraightLine.run (meaning interp argument)
    (func.ops.map (shapes.retype func))
    (fun _ _ => default) output.node output.index = _
  rw [StraightLine.run_map target value]
  rfl

theorem validate_argument (inputs : List Tensor) :
    (shapes.validate func).argument inputs = func.argument inputs := by
  funext id
  have same : (func.parameters.map (shapes.retype func)).findIdx (·.id == id) =
      func.parameters.findIdx (·.id == id) := by
    rw [List.findIdx_map]
    rfl
  rw [argument, argument, validate, same]

theorem validate_value {interp : Interpretation} (inputs : List Tensor)
    (result : Node) :
    (shapes.validate func).value interp inputs (shapes.retype func result) =
      func.value interp inputs result := by
  rw [Function.value, Function.value, validate_argument, validate_evaluate]
  rfl

/-- How an output of a node can lose its shape. -/
theorem Loses.of_node (wf : func.WF) {constant : Nat} {node : Node}
    {index : Nat} (member : node ∈ func.ops)
    (loses : shapes.Loses func constant ⟨node.id, index⟩) :
    (∃ type_name, node.op = .op type_name ∧ ∃ (k : Nat) (input : Output),
      node.input_values[k]? = some input ∧
      ((input.node = constant ∧ shapes.needsConstant node.id index k = true) ∨
        (shapes.Loses func constant input ∧
          shapes.needsShape node.id index k = true))) ∨
    (node.op = .Result ∧ ∃ input, node.input_values = [input] ∧
      shapes.Loses func constant input) := by
  generalize isOutput : (⟨node.id, index⟩ : Output) = output at loses
  cases loses with
  | value otherMember kind reads needs =>
      obtain ⟨sameId, rfl⟩ := Output.mk.inj isOutput
      obtain rfl := wf.id_injective member otherMember sameId
      exact .inl ⟨_, kind, _, _, reads, .inl ⟨rfl, needs⟩⟩
  | shape otherMember kind reads needs lost =>
      obtain ⟨sameId, rfl⟩ := Output.mk.inj isOutput
      obtain rfl := wf.id_injective member otherMember sameId
      exact .inl ⟨_, kind, _, _, reads, .inr ⟨lost, needs⟩⟩
  | result otherMember kind reads lost =>
      obtain ⟨sameId, rfl⟩ := Output.mk.inj isOutput
      obtain rfl := wf.id_injective member otherMember sameId
      exact .inr ⟨kind, _, reads, lost⟩

theorem Loses.mono {other : Function}
    (kept : ∀ node ∈ func.ops, node.op ≠ .Parameter →
    node ∈ other.ops) {constant : Nat} {output : Output}
    (loses : shapes.Loses func constant output) :
    shapes.Loses other constant output := by
  induction loses with
  | value member kind reads needs =>
      exact .value (kept _ member (by simp [kind])) kind reads needs
  | shape member kind reads needs _ ih =>
      exact .shape (kept _ member (by simp [kind])) kind reads needs ih
  | result member kind reads _ ih =>
      exact .result (kept _ member (by simp [kind])) kind reads ih

theorem Loses.not_source (wf : func.WF) {constant : Nat} {node : Node}
    {index : Nat} (member : node ∈ func.ops)
    (noOp : ∀ type_name, node.op ≠ .op type_name)
    (noResult : node.op ≠ .Result) :
    ¬ shapes.Loses func constant ⟨node.id, index⟩ := by
  intro loses
  cases Loses.of_node wf member loses with
  | inl isOp =>
      obtain ⟨type_name, kind, _⟩ := isOp
      exact noOp type_name kind
  | inr isResult => exact noResult isResult.1

theorem Loses.result_iff (wf : func.WF) {constant : Nat} {node : Node}
    {index : Nat} {input : Output} (member : node ∈ func.ops)
    (kind : node.op = .Result) (reads : node.input_values = [input]) :
    shapes.Loses func constant ⟨node.id, index⟩ ↔
    shapes.Loses func constant input := by
  constructor
  · intro loses
    cases Loses.of_node wf member loses with
    | inl isOp =>
        obtain ⟨type_name, otherKind, _⟩ := isOp
        rw [kind] at otherKind
        simp at otherKind
    | inr isResult =>
        obtain ⟨_, other, otherReads, lost⟩ := isResult
        rw [reads] at otherReads
        exact (List.cons.inj otherReads).1 ▸ lost
  · exact fun lost => .result member kind reads lost

end ShapeInference

end NGraphBridge.NGraph
