import Mathlib.Data.List.Forall2
import NGraphBridge.TF.GraphEdit
import NGraphBridge.TF.GraphDef

/-!
# What a graph computes

The values on the tensors of a graph whose ops are pure: the outputs of a node
are a function of its inputs, which its name, its op and its attributes pick.
-/

namespace NGraphBridge.TF

variable {V : Type*}

/-- The outputs of a node, from its name, op, attributes and inputs. -/
abbrev Interpretation (V : Type*) :=
  String → String → AttrMap → List V → Int → V

namespace Graph

/-- A data edge between two nodes. -/
def DataEdge (graph : Graph) (u v : Nat) : Prop := ∃ a b, graph.Feeds u a v b

/-- The value at one input of a node. -/
def InputValue (graph : Graph) (val : Nat × Int → V) (id input : Nat)
    (value : V) : Prop :=
  ∃ tensor : Nat × Int, graph.Feeds tensor.1 tensor.2 id input ∧
    value = val tensor

/-- The values at the inputs of a node. -/
def Reads (graph : Graph) (val : Nat × Int → V) (id num_inputs : Nat)
    (values : List V) : Prop :=
  List.Forall₂ (graph.InputValue val id) (List.range num_inputs) values

def Computes (graph : Graph) (interp : Interpretation V) (val : Nat × Int → V)
    (node : Node) : Prop :=
  ∃ values, graph.Reads val node.id node.num_inputs values ∧
    ∀ slot, val (node.id, slot) = interp node.name node.type_string node.attrs
      values slot

/-- An evaluation of the graph. -/
def Evaluates (graph : Graph) (interp : Interpretation V)
    (val : Nat × Int → V) : Prop :=
  ∀ node ∈ graph.op_nodes, graph.Computes interp val node

end Graph

/-- The inputs that are not control inputs. -/
def NodeDef.dataInputs (node_def : NodeDef) : List String :=
  node_def.input.filter fun input => (parseTensorName input).2 != kControlSlot

def NodeDef.inputValues (node_def : NodeDef)
    (val : String × Int → V) : List V :=
  node_def.dataInputs.map fun input => val (parseTensorName input)

namespace GraphDef

/-- An evaluation of a `GraphDef` whose arguments have values. -/
structure Evaluates (gdef : GraphDef) (interp : Interpretation V)
    (args : List V) (val : String × Int → V) : Prop where
  arg : ∀ node_def ∈ gdef.node, node_def.op = "_Arg" → ∃ index : Nat,
    getNodeAttrInt node_def.attr "index" = .ok index ∧
      args[index]? = some (val (node_def.name, 0))
  op : ∀ node_def ∈ gdef.node, node_def.op ≠ "_Arg" → node_def.op ≠ "_Retval" →
    ∀ slot, val (node_def.name, slot) =
      interp node_def.name node_def.op node_def.attr
        (node_def.inputValues val) slot

/-- The value of one result. -/
def Returns (gdef : GraphDef) (val : String × Int → V) (index : Nat)
    (value : V) : Prop :=
  ∃ node_def ∈ gdef.node, node_def.op = "_Retval" ∧
    getNodeAttrInt node_def.attr "index" = .ok index ∧
    node_def.inputValues val = [value]

end GraphDef

section Inputs

variable {α β γ : Type*}

theorem forall₂_eq_map {P : α → β → Prop} {Q : α → γ → Prop} {f : β → γ}
    {indices : List α} {left : List β} {right : List γ}
    (atLeft : List.Forall₂ P indices left)
    (atRight : List.Forall₂ Q indices right)
    (agree : ∀ index ∈ indices, ∀ x y, P index x → Q index y → y = f x) :
    right = left.map f := by
  induction atLeft generalizing right with
  | nil =>
      cases atRight
      rfl
  | cons head tail ih =>
      cases atRight with
      | cons rightHead rightTail =>
          rw [List.map_cons, agree _ (by simp) _ _ head rightHead,
            ih rightTail (fun index member => agree index (by simp [member]))]

theorem forall₂_of_forall {P : α → β → Prop} {indices : List α}
    (each : ∀ index ∈ indices, ∃ x, P index x) :
    ∃ list, List.Forall₂ P indices list := by
  induction indices with
  | nil => exact ⟨[], .nil⟩
  | cons index indices ih =>
      obtain ⟨x, here⟩ := each index (by simp)
      obtain ⟨list, rest⟩ :=
        ih (fun other member => each other (by simp [member]))
      exact ⟨x :: list, .cons here rest⟩

theorem forall₂_flatMap {P : α → β → Prop} {f : α → List β} {indices : List α}
    (each : ∀ index ∈ indices, ∃ x, f index = [x] ∧ P index x) :
    List.Forall₂ P indices (indices.flatMap f) := by
  induction indices with
  | nil => exact .nil
  | cons index indices ih =>
      obtain ⟨x, single, here⟩ := each index (by simp)
      rw [List.flatMap_cons, single]
      exact .cons here (ih fun other member => each other (by simp [member]))

end Inputs

section Reads

variable {graph : Graph} {val : Nat × Int → V} {id num_inputs : Nat}
  {values : List V}

theorem Graph.Reads.length (reads : graph.Reads val id num_inputs values) :
    values.length = num_inputs := by
  rw [← reads.length_eq, List.length_range]

theorem Graph.Reads.input (reads : graph.Reads val id num_inputs values)
    {input : Nat} (inside : input < num_inputs) :
    ∃ tensor : Nat × Int, graph.Feeds tensor.1 tensor.2 id input ∧
      values[input]? = some (val tensor) := by
  have bound : input < values.length := reads.length.symm ▸ inside
  obtain ⟨tensor, feeds, same⟩ := reads.get (by simpa using inside) bound
  refine ⟨tensor, by simpa using feeds, ?_⟩
  rw [List.getElem?_eq_getElem bound]
  exact congrArg some same

end Reads

end NGraphBridge.TF
