import NGraphBridge.Lib.StraightLine
import NGraphBridge.NGraphBuilder.Slice
import NGraphBridge.NGraphBuilder.TranslateGraph

/-!
# What a translated graph computes

A graph gives a list of tensors to each of its nodes. If every translator keeps
what its op means, the function that `TranslateGraph` builds gives back the
tensors that the graph returns; and if the nodes come after what they read, it
is built.
-/

namespace NGraphBridge.NGraphBuilder

open NGraph (Shape ElementType)
open TF

/-- What an op makes of its inputs; nothing if it is not defined for them. -/
abbrev Meaning (V : Type) := OpNode → List (Tensor V) → Option (List (Tensor V))

/-- The outputs of each node, by its name. -/
abbrev NodeValues (V : Type) := String → List (Tensor V)

section Meaning

variable {V : Type} [Inhabited V]

def OpNode.inputValues (val : NodeValues V) (op : OpNode) :
    Option (List (Tensor V)) :=
  op.inputs.mapM fun input => (val input.1.name)[input.2]?

/-- The values of a graph whose arguments are given. -/
structure EvaluatesParts (meaning : Meaning V) (arguments : List (Tensor V))
    (val : NodeValues V) (parts : Parts) : Prop where
  arg : ∀ parm ∈ parts.tf_params, ∀ index : Nat,
    getNodeAttrInt parm.attrs "index" = .ok (index : Int) →
    ∃ argument, arguments[index]? = some argument ∧ val parm.name = [argument]
  op : ∀ op ∈ parts.tf_ops, ∃ values, op.inputValues val = some values ∧
    meaning op values = some (val op.name)

/-- A static input has the elements that the translator finds. -/
def StaticsCurrent (toIndex : V → Int) (val : NodeValues V)
    (static_input_map : StaticInputMap) (op : OpNode) : Prop :=
  ∀ input slot tensor (value : Tensor V), (input, slot) ∈ op.inputs →
    getStaticNodeTensor input static_input_map = .ok tensor →
    (val input.name)[slot]? = some value →
    tensor.values = value.data.map toIndex

omit [Inhabited V] in
theorem inputValues_getElem? {val : NodeValues V} {op : OpNode}
    {values : List (Tensor V)} (evaluated : op.inputValues val = some values)
    {i : Nat} {input : InputNode} {slot : Nat}
    (atInput : op.inputs[i]? = some (input, slot)) :
    values[i]? = (val input.name)[slot]? ∧
    ∃ value, values[i]? = some value := by
  have each := Slots.mapM_iff.mp evaluated
  obtain ⟨inside, atIndex⟩ := List.getElem?_eq_some_iff.mp atInput
  have insideValues : i < values.length :=
    Nat.lt_of_lt_of_eq inside each.length_eq
  have here := List.forall₂_iff_get.mp each |>.2 i inside insideValues
  rw [List.get_eq_getElem, List.get_eq_getElem, atIndex] at here
  refine ⟨?_, values[i], List.getElem?_eq_getElem insideValues⟩
  rw [List.getElem?_eq_getElem insideValues]
  exact here.symm

end Meaning

section Contracts

variable {V : Type} [Inhabited V] {opset : Opset}

/-- Nodes that stand for tensors, one by one. -/
def StandFor (library : Library V opset) (args : Nat → Tensor V)
    (nodes : List Ng) (values : List (Tensor V)) : Prop :=
  List.Forall₂ (fun node value => node.eval library args = some value)
    nodes values

/-- The inputs that are found stand for the values, as do the tensors of static
inputs. -/
structure Supplied (library : Library V opset) (args : Nat → Tensor V)
    (static_input_map : StaticInputMap) (op : OpNode) (ng_op_map : OpMap)
    (values : List (Tensor V)) : Prop where
  length : values.length = op.inputs.length
  node : ∀ i node, getInputNode ng_op_map op i = .ok node →
    ∃ value, values[i]? = some value ∧ node.eval library args = some value
  static : ∀ (i : Nat) input slot tensor (value : Tensor V),
    op.inputs[i]? = some (input, slot) →
    getStaticNodeTensor input static_input_map = .ok tensor →
    values[i]? = some value →
    tensor.values = value.data.map library.toIndex

/-- What a translator stores stands for what the op makes of its inputs. -/
def SoundTranslator (library : Library V opset) (args : Nat → Tensor V)
    (meaning : Meaning V) (static_input_map : StaticInputMap) (op : OpNode)
    (op_fun : Translator) : Prop :=
  ∀ ng_op_map after values outs,
    Supplied library args static_input_map op ng_op_map values →
    meaning op values = some outs →
    op_fun op static_input_map ng_op_map = .ok after →
    ∃ nodes, after = nodes.foldl (saveNgOp · op.name) ng_op_map ∧
    StandFor library args nodes outs

/-- All of the inputs are in the op map. -/
def InputsStored (op : OpNode) (ng_op_map : OpMap) : Prop :=
  ∀ i < op.inputs.length, ∃ node, getInputNode ng_op_map op i = .ok node

/-- A translator succeeds where the op has a meaning and its inputs are
stored. -/
def TotalTranslator (library : Library V opset) (args : Nat → Tensor V)
    (meaning : Meaning V) (static_input_map : StaticInputMap) (op : OpNode)
    (op_fun : Translator) : Prop :=
  ∀ ng_op_map values outs,
    Supplied library args static_input_map op ng_op_map values →
    InputsStored op ng_op_map → meaning op values = some outs →
    ∃ after, op_fun op static_input_map ng_op_map = .ok after

end Contracts

section Inputs

variable {ng_op_map : OpMap} {op : OpNode} {count index : Nat}
  {nodes : Fin count → Ng}

theorem getInputNodesFrom_inv
    (success : getInputNodesFrom ng_op_map op index count = .ok nodes) :
    ∀ i : Fin count, getInputNode ng_op_map op (index + i) = .ok (nodes i) := by
  induction count generalizing index with
  | zero => exact fun i => i.elim0
  | succ count ih =>
      obtain ⟨first, atFirst, success⟩ := bind_ok success
      obtain ⟨rest, atRest, success⟩ := bind_ok success
      obtain rfl := Except.ok.inj success
      intro i
      cases i using Fin.cases with
      | zero => exact atFirst
      | succ i =>
          have here := ih atRest i
          rw [Nat.add_assoc, Nat.add_comm 1] at here
          exact here

theorem getInputNodes_iff : getInputNodes ng_op_map op count = .ok nodes ↔
    op.inputs.length = count ∧
    ∀ i : Fin count, getInputNode ng_op_map op i = .ok (nodes i) := by
  constructor
  · intro success
    obtain ⟨_, enough, success⟩ := bind_ok success
    unfold validateInputCount at enough
    split at enough
    next => exact absurd enough (by simp)
    next isCount =>
      refine ⟨not_not.mp isCount, fun i => ?_⟩
      have here := getInputNodesFrom_inv success i
      rw [Nat.zero_add] at here
      exact here
  · exact fun both => getInputNodes_ok both.1 both.2

theorem exists_nodes (stored : InputsStored op ng_op_map) :
    ∃ nodes : Fin op.inputs.length → Ng,
      ∀ i : Fin op.inputs.length, getInputNode ng_op_map op i = .ok (nodes i) :=
  ⟨fun i => (stored i i.isLt).choose, fun i => (stored i i.isLt).choose_spec⟩

variable {V : Type} [Inhabited V] {opset : Opset} {library : Library V opset}
  {args : Nat → Tensor V} {static_input_map : StaticInputMap}
  {values : List (Tensor V)}

theorem Supplied.standFor
    (supplied : Supplied library args static_input_map op ng_op_map values)
    (isCount : op.inputs.length = count)
    (found : ∀ i : Fin count, getInputNode ng_op_map op i = .ok (nodes i)) :
    StandFor library args (List.ofFn nodes) values := by
  refine List.forall₂_iff_get.mpr ⟨?_, ?_⟩
  · rw [List.length_ofFn, supplied.length, isCount]
  · intro i inside insideValues
    rw [List.length_ofFn] at inside
    obtain ⟨value, isValue, evaluates⟩ := supplied.node i _ (found ⟨i, inside⟩)
    rw [List.getElem?_eq_getElem insideValues] at isValue
    rw [List.get_eq_getElem, List.get_eq_getElem, List.getElem_ofFn,
      Option.some.inj isValue]
    exact evaluates

theorem standFor_one {nodes : Fin 1 → Ng} {values : List (Tensor V)}
    (standFor : StandFor library args (List.ofFn nodes) values) :
    ∃ x, values = [x] ∧ (nodes 0).eval library args = some x := by
  cases standFor with
  | cons atFirst rest =>
      cases rest
      exact ⟨_, rfl, atFirst⟩

end Inputs

def translateIdentityOp (op : OpNode) (_static_input_map : StaticInputMap)
    (ng_op_map : OpMap) : Translates OpMap := do
  let inputs ← getInputNodes ng_op_map op 1
  .ok (saveNgOp ng_op_map op.name (inputs 0))

section Identity

variable {V : Type}

def unaryMeaning (f : Tensor V → Tensor V) : Meaning V
  | _, [x] => some [f x]
  | _, _ => none

variable [Inhabited V] {opset : Opset} {library : Library V opset}
  {args : Nat → Tensor V} {static_input_map : StaticInputMap} {op : OpNode}

theorem sound_identity :
    SoundTranslator library args (unaryMeaning id) static_input_map op
    translateIdentityOp := by
  intro ng_op_map after values outs supplied means success
  obtain ⟨nodes, inputs, success⟩ := bind_ok success
  obtain rfl := Except.ok.inj success
  obtain ⟨isCount, found⟩ := getInputNodes_iff.mp inputs
  obtain ⟨x, rfl, atFirst⟩ := standFor_one (supplied.standFor isCount found)
  obtain rfl := Option.some.inj means
  exact ⟨[nodes 0], rfl, .cons atFirst .nil⟩

end Identity

section Run

variable {V : Type} [Inhabited V] {opset : Opset} {library : Library V opset}
  {args : Nat → Tensor V} {val : NodeValues V} {done : List String}
  {ng_op_map after : OpMap}

/-- The nodes that are done are stored with their values, and no others. -/
structure Stored (library : Library V opset) (args : Nat → Tensor V)
    (val : NodeValues V) (done : List String) (ng_op_map : OpMap) : Prop where
  values : ∀ name ∈ done,
    StandFor library args (ng_op_map.outputs name) (val name)
  nothing : ∀ name, name ∉ done → ng_op_map.outputs name = []

theorem stored_nil : Stored library args val [] [] where
  values := fun _ member => absurd member List.not_mem_nil
  nothing := fun _ _ => rfl

theorem Stored.save (stored : Stored library args val done ng_op_map)
    {name : String} (fresh : name ∉ done) {nodes : List Ng}
    (standFor : StandFor library args nodes (val name)) :
    Stored library args val (name :: done)
      (nodes.foldl (saveNgOp · name) ng_op_map) := by
  constructor
  · intro other member
    by_cases same : other = name
    · subst same
      rw [outputs_saved_self, stored.nothing other fresh, List.nil_append]
      exact standFor
    · rw [outputs_saved_ne nodes ng_op_map same]
      exact stored.values other ((List.mem_cons.mp member).resolve_left same)
  · intro other outside
    rw [List.mem_cons, not_or] at outside
    rw [outputs_saved_ne nodes ng_op_map outside.1]
    exact stored.nothing other outside.2

theorem Stored.congr (stored : Stored library args val done ng_op_map)
    {others : List String} (same : ∀ name, name ∈ others ↔ name ∈ done) :
    Stored library args val others ng_op_map where
  values := fun name member => stored.values name ((same name).mp member)
  nothing := fun name outside => stored.nothing name fun member =>
    outside ((same name).mpr member)

theorem Stored.value (stored : Stored library args val done ng_op_map)
    {name : String} {slot : Nat} {node : Ng}
    (found : (ng_op_map.outputs name)[slot]? = some node) :
    ∃ value, (val name)[slot]? = some value ∧
    node.eval library args = some value := by
  have isDone : name ∈ done := by
    by_contra outside
    rw [stored.nothing name outside] at found
    exact absurd found (by simp)
  have each := stored.values name isDone
  obtain ⟨inside, atSlot⟩ := List.getElem?_eq_some_iff.mp found
  have insideValues : slot < (val name).length := each.length_eq ▸ inside
  have here := (List.forall₂_iff_get.mp each).2 slot inside insideValues
  rw [List.get_eq_getElem, List.get_eq_getElem, atSlot] at here
  exact ⟨_, List.getElem?_eq_getElem insideValues, here⟩

theorem Stored.node (stored : Stored library args val done ng_op_map)
    {name : String} (isDone : name ∈ done) {slot : Nat} {value : Tensor V}
    (atSlot : (val name)[slot]? = some value) :
    ∃ node, (ng_op_map.outputs name)[slot]? = some node := by
  have each := stored.values name isDone
  obtain ⟨inside, _⟩ := List.getElem?_eq_some_iff.mp atSlot
  have insideNodes : slot < (ng_op_map.outputs name).length :=
    each.length_eq.symm ▸ inside
  exact ⟨_, List.getElem?_eq_getElem insideNodes⟩

theorem Stored.supplied (stored : Stored library args val done ng_op_map)
    {op : OpNode} {static_input_map : StaticInputMap}
    (current : StaticsCurrent library.toIndex val static_input_map op)
    {values : List (Tensor V)} (evaluated : op.inputValues val = some values) :
    Supplied library args static_input_map op ng_op_map values := by
  constructor
  · exact (Slots.mapM_iff.mp evaluated).length_eq.symm
  · intro i node found
    obtain ⟨input, slot, atInput, atSlot⟩ := getInputNode_iff.mp found
    obtain ⟨value, isValue, evaluates⟩ := stored.value atSlot
    obtain ⟨same, _⟩ := inputValues_getElem? evaluated atInput
    exact ⟨value, same.trans isValue, evaluates⟩
  · intro i input slot tensor value atInput found isValue
    obtain ⟨same, _⟩ := inputValues_getElem? evaluated atInput
    exact current input slot tensor value (List.mem_of_getElem? atInput) found
      (same ▸ isValue)

theorem Stored.inputsStored (stored : Stored library args val done ng_op_map)
    {op : OpNode} (before : ∀ input ∈ op.inputs, input.1.name ∈ done)
    {values : List (Tensor V)} (evaluated : op.inputValues val = some values) :
    InputsStored op ng_op_map := by
  intro i inside
  have atInput := List.getElem?_eq_getElem inside
  obtain ⟨same, value, isValue⟩ := inputValues_getElem? evaluated atInput
  obtain ⟨node, found⟩ :=
    stored.node (before _ (List.getElem_mem inside)) (same ▸ isValue)
  exact ⟨node, getInputNode_iff.mpr ⟨_, _, atInput, found⟩⟩

/-- The parameters are stored under the names of the arguments. -/
theorem Stored.params (stored : Stored library args val done ng_op_map)
    {reads : List (OpNode × Nat × Parameter)}
    (fresh : ∀ read ∈ reads, read.1.name ∉ done)
    (distinct : (reads.map fun read => read.1.name).Nodup)
    (values : ∀ read ∈ reads, val read.1.name = [args read.2.1] ∧
      (args read.2.1).shape = read.2.2.shape) :
    Stored library args val
      ((reads.map fun read => read.1.name).reverse ++ done)
      (saveParams ng_op_map reads) := by
  induction reads generalizing done ng_op_map with
  | nil => exact stored
  | cons read reads ih =>
      rw [List.map_cons, List.nodup_cons] at distinct
      obtain ⟨isValue, isShape⟩ := values read List.mem_cons_self
      have evaluates :
          (Ng.Parameter read.2.1 read.2.2.shape).eval library args =
          some (args read.2.1) := by
        rw [Ng.eval, if_pos isShape]
      have standFor : StandFor library args [.Parameter read.2.1 read.2.2.shape]
          (val read.1.name) := by
        rw [isValue]
        exact .cons evaluates .nil
      have next := stored.save (fresh read List.mem_cons_self) standFor
      have rest := ih next (by
        intro other member
        rw [List.mem_cons, not_or]
        refine ⟨fun same => distinct.1 ?_,
          fresh other (List.mem_cons_of_mem _ member)⟩
        rw [← same]
        exact List.mem_map_of_mem member) distinct.2
        (fun other member => values other (List.mem_cons_of_mem _ member))
      rw [List.map_cons, List.reverse_cons, List.append_assoc]
      exact rest

end Run

section Steps

variable {V : Type} [Inhabited V] {opset : Opset} {library : Library V opset}
  {args : Nat → Tensor V} {val : NodeValues V} {meaning : Meaning V}
  {texts : DebugStrings} {table : TranslateOpMap}
  {static_input_map : StaticInputMap} {done : List String}
  {ng_op_map after : OpMap}

theorem translateOp_ok_iff {op : OpNode} :
    translateOp texts table static_input_map op ng_op_map = .ok after ↔
      ∃ op_fun, table op.type_string = some op_fun ∧
        op_fun op static_input_map ng_op_map = .ok after := by
  unfold translateOp
  cases handler : table op.type_string with
  | none => simp
  | some op_fun =>
      dsimp only
      constructor
      · intro success
        refine ⟨op_fun, rfl, ?_⟩
        split at success
        next => exact absurd success (by simp)
        next => exact success
      · intro ⟨other, same, success⟩
        obtain rfl := Option.some.inj same
        rw [success]

/-- What is needed of the ops: they have values, what is static is current, and
the handlers that are registered for them keep what they mean. -/
structure Translatable (library : Library V opset) (args : Nat → Tensor V)
    (meaning : Meaning V) (val : NodeValues V) (table : TranslateOpMap)
    (static_input_map : StaticInputMap) (op : OpNode) : Prop where
  evaluated : ∃ values, op.inputValues val = some values ∧
    meaning op values = some (val op.name)
  current : StaticsCurrent library.toIndex val static_input_map op
  sound : ∀ op_fun, table op.type_string = some op_fun →
    SoundTranslator library args meaning static_input_map op op_fun

theorem Stored.step (stored : Stored library args val done ng_op_map)
    {op : OpNode} (fresh : op.name ∉ done)
    (translatable :
      Translatable library args meaning val table static_input_map op)
    (success : translateOp texts table static_input_map op ng_op_map =
      .ok after) :
    Stored library args val (op.name :: done) after := by
  obtain ⟨op_fun, handler, success⟩ := translateOp_ok_iff.mp success
  obtain ⟨values, evaluated, means⟩ := translatable.evaluated
  have supplied := stored.supplied translatable.current evaluated
  obtain ⟨nodes, rfl, standFor⟩ :=
    translatable.sound op_fun handler ng_op_map after values _ supplied
      means success
  exact stored.save fresh standFor

theorem Stored.run {tf_ops : List OpNode}
    (stored : Stored library args val done ng_op_map)
    (fresh : ∀ op ∈ tf_ops, op.name ∉ done)
    (distinct : (tf_ops.map OpNode.name).Nodup) (translatable : ∀ op ∈ tf_ops,
      Translatable library args meaning val table static_input_map op)
    (success : constructOps texts table static_input_map tf_ops ng_op_map =
      .ok after) :
    Stored library args val ((tf_ops.map OpNode.name).reverse ++ done)
      after := by
  induction tf_ops generalizing done ng_op_map with
  | nil =>
      obtain rfl := Except.ok.inj success
      exact stored
  | cons op tf_ops ih =>
      obtain ⟨next, here, success⟩ := bind_ok success
      rw [List.map_cons, List.nodup_cons] at distinct
      have step := stored.step (fresh op List.mem_cons_self)
        (translatable op List.mem_cons_self) here
      have later : ∀ other ∈ tf_ops, other.name ∉ op.name :: done := by
        intro other member
        rw [List.mem_cons, not_or]
        refine ⟨fun same => distinct.1 ?_,
          fresh other (List.mem_cons_of_mem _ member)⟩
        rw [← same]
        exact List.mem_map_of_mem member
      have rest := ih step later distinct.2
        (fun other member => translatable other (List.mem_cons_of_mem _ member))
        success
      rw [List.map_cons, List.reverse_cons, List.append_assoc]
      exact rest

/-- What an op writes and reads. -/
def visits : StraightLine.Meaning OpNode String Unit where
  target := OpNode.name
  reads := fun op => op.inputs.map fun input => input.1.name
  value := fun _ _ => ()

/-- The handler of an op succeeds where the op has a meaning. -/
def Handled (library : Library V opset) (args : Nat → Tensor V)
    (meaning : Meaning V) (table : TranslateOpMap)
    (static_input_map : StaticInputMap) (op : OpNode) : Prop :=
  ∃ op_fun, table op.type_string = some op_fun ∧
    TotalTranslator library args meaning static_input_map op op_fun

theorem Stored.step_total (stored : Stored library args val done ng_op_map)
    {op : OpNode} (before : ∀ input ∈ op.inputs, input.1.name ∈ done)
    (translatable :
      Translatable library args meaning val table static_input_map op)
    (handled : Handled library args meaning table static_input_map op) :
    ∃ after, translateOp texts table static_input_map op ng_op_map =
      .ok after := by
  obtain ⟨op_fun, handler, total⟩ := handled
  obtain ⟨values, evaluated, means⟩ := translatable.evaluated
  obtain ⟨after, success⟩ :=
    total ng_op_map values _ (stored.supplied translatable.current evaluated)
      (stored.inputsStored before evaluated) means
  exact ⟨after, translateOp_ok_iff.mpr ⟨op_fun, handler, success⟩⟩

/-- Ops that come after what they read are translated. -/
theorem Stored.run_total {tf_ops : List OpNode}
    (stored : Stored library args val done ng_op_map)
    (ordered : StraightLine.Ordered visits done tf_ops)
    (translatable : ∀ op ∈ tf_ops,
      Translatable library args meaning val table static_input_map op)
    (handled : ∀ op ∈ tf_ops,
      Handled library args meaning table static_input_map op) :
    ∃ after, constructOps texts table static_input_map tf_ops ng_op_map =
      .ok after := by
  induction tf_ops generalizing done ng_op_map with
  | nil => exact ⟨ng_op_map, rfl⟩
  | cons op tf_ops ih =>
      have before : ∀ input ∈ op.inputs, input.1.name ∈ done := by
        intro input member
        exact ordered.2.1 _ (List.mem_map_of_mem member)
      have here := translatable op List.mem_cons_self
      obtain ⟨next, success⟩ :
          ∃ next, translateOp texts table static_input_map op ng_op_map =
            .ok next :=
        stored.step_total before here (handled op List.mem_cons_self)
      obtain ⟨after, rest⟩ :=
        ih (stored.step ordered.1 here success) ordered.2.2
          (fun other member =>
            translatable other (List.mem_cons_of_mem _ member))
          (fun other member => handled other (List.mem_cons_of_mem _ member))
      refine ⟨after, ?_⟩
      rw [constructOps]
      simp only [bind, Except.bind, success, rest]

end Steps

section Graph

variable {V : Type} [Inhabited V] {opset : Opset}

/-- The tensors that the parameters of a function are bound to. -/
def argumentAt (arguments : List (Tensor V)) (index : Nat) : Tensor V :=
  arguments[index]?.getD (Tensor.ofFn [] fun _ => default)

/-- `TensorShape`s of tensors. -/
def shapesOf (arguments : List (Tensor V)) : List (List Int) :=
  arguments.map fun argument => argument.shape.map Int.ofNat

/-- The function gives back what the graph returns, each tensor at its index,
and takes the arguments at theirs. -/
structure ReturnsValues (library : Library V opset)
    (arguments : List (Tensor V)) (val : NodeValues V) (parts : Parts)
    (func : Function) : Prop where
  parametersLength : func.parameters.length = parts.tf_params.length
  parameter : ∀ parm ∈ parts.tf_params, ∃ (index : Nat) (parameter : Parameter)
    (argument : Tensor V), getNodeAttrInt parm.attrs "index" =
    .ok (index : Int) ∧
    func.parameters[index]? = some parameter ∧
    arguments[index]? = some argument ∧
    parameter.shape = argument.shape
  resultsLength : func.results.length = parts.tf_ret_vals.length
  result : ∀ n ∈ parts.tf_ret_vals,
    ∃ (index : Nat) (input : InputNode) (slot : Nat)
    (result : Result) (value : Tensor V), getNodeAttrInt n.attrs "index" =
    .ok (index : Int) ∧
    n.inputs = [(input, slot)] ∧ func.results[index]? = some result ∧
    (val input.name)[slot]? = some value ∧
    result.value.eval library (argumentAt arguments) = some value
  returned : ∀ index < func.results.length, ∃ n ∈ parts.tf_ret_vals,
    getNodeAttrInt n.attrs "index" = .ok (index : Int)

variable {library : Library V opset} {arguments : List (Tensor V)}
  {val : NodeValues V} {meaning : Meaning V} {texts : DebugStrings}
  {table : TranslateOpMap} {static_input_map : StaticInputMap}
  {ordered : List GraphNode} {name : String} {func : Function}

theorem getNodeAttrOr_iff {α : Type} {attr : StatusOr α} {message : String}
    {value : α} :
    getNodeAttrOr attr message = .ok value ↔ attr = .ok value := by
  cases attr with
  | error error => simp [getNodeAttrOr]
  | ok other => simp [getNodeAttrOr]

theorem returnIfError_iff {α : Type} {status : StatusOr α} {value : α} :
    returnIfError status = .ok value ↔ status = .ok value := by
  cases status with
  | error error => simp [returnIfError]
  | ok other => simp [returnIfError]

theorem readEntry_iff {α : Type} {entries : List α} {index : Int} {value : α} :
    readEntry entries index = .ok value ↔
      ∃ place : Nat, index = place ∧ entries[place]? = some value := by
  unfold readEntry
  constructor
  · intro success
    split at success
    next => exact absurd success (by simp)
    next nonnegative =>
      split at success
      next => exact absurd success (by simp)
      next found =>
        obtain rfl := Except.ok.inj success
        exact ⟨index.toNat,
          (Int.toNat_of_nonneg (Int.not_lt.mp nonnegative)).symm, found⟩
  · intro ⟨place, isPlace, found⟩
    subst isPlace
    rw [if_neg (Int.not_lt.mpr (Int.natCast_nonneg _)),
      Int.toNat_natCast, found]

omit [Inhabited V] in
/-- A parameter has the shape of its argument. -/
theorem readParam_iff {parm : OpNode} {index : Nat} {parameter : Parameter} :
    readParam (shapesOf arguments) parm = .ok ((index : Int), parameter) ↔
      ∃ dtype argument, getNodeAttrType parm.attrs "T" = .ok dtype ∧
        getNodeAttrInt parm.attrs "index" = .ok (index : Int) ∧
        tfDataTypeToNGraphElementType dtype = .ok parameter.element_type ∧
        arguments[index]? = some argument ∧
        parameter.shape = argument.shape := by
  unfold readParam
  constructor
  · intro success
    obtain ⟨dtype, hasType, success⟩ := bind_ok success
    obtain ⟨found, hasIndex, success⟩ := bind_ok success
    obtain ⟨ng_et, converted, success⟩ := bind_ok success
    obtain ⟨input, atIndex, success⟩ := bind_ok success
    obtain ⟨ng_shape, isShape, success⟩ := bind_ok success
    obtain ⟨rfl, rfl⟩ := Prod.mk.inj (Except.ok.inj success)
    obtain ⟨place, same, atPlace⟩ := readEntry_iff.mp atIndex
    obtain rfl := Int.ofNat_inj.mp same
    rw [shapesOf, List.getElem?_map] at atPlace
    obtain ⟨argument, isArgument, rfl⟩ := Option.map_eq_some_iff.mp atPlace
    rw [returnIfError_iff, tfTensorShapeToNGraphShape_cast] at isShape
    exact ⟨dtype, argument, getNodeAttrOr_iff.mp hasType,
      getNodeAttrOr_iff.mp hasIndex, returnIfError_iff.mp converted, isArgument,
      (Except.ok.inj isShape).symm⟩
  · intro ⟨dtype, argument, hasType, hasIndex, converted, isArgument, isShape⟩
    have hasType :=
      (@getNodeAttrOr_iff _ _ "No data type defined for _Arg" _).mpr hasType
    have hasIndex :=
      (@getNodeAttrOr_iff _ _ "No index defined for _Arg" _).mpr hasIndex
    have converted := returnIfError_iff.mpr converted
    have atIndex :
        readEntry (shapesOf arguments) index =
          .ok (argument.shape.map Int.ofNat) := by
      refine readEntry_iff.mpr ⟨index, rfl, ?_⟩
      rw [shapesOf, List.getElem?_map, isArgument, Option.map_some]
    have shape := returnIfError_iff.mpr
      (tfTensorShapeToNGraphShape_cast argument.shape)
    rw [← isShape] at shape
    simp only [bind, Except.bind, hasType, hasIndex, converted, atIndex,
      ← isShape, shape]

theorem readResult_iff {ng_op_map : OpMap} {n : OpNode} {index : Nat}
    {result : Result} :
    readResult ng_op_map n = .ok ((index : Int), result) ↔
      ∃ input slot node, n.inputs = [(input, slot)] ∧
        getNodeAttrInt n.attrs "index" = .ok (index : Int) ∧
        (ng_op_map.outputs input.name)[slot]? = some node ∧
        result = ⟨node, false⟩ := by
  unfold readResult
  constructor
  · intro success
    split at success
    next => exact absurd success (by simp)
    next single =>
      obtain ⟨⟨input, slot⟩, inputs⟩ :=
        List.length_eq_one_iff.mp (not_not.mp single)
      obtain ⟨found, hasIndex, success⟩ := bind_ok success
      obtain ⟨node, atInput, success⟩ := bind_ok success
      obtain ⟨rfl, rfl⟩ := Prod.mk.inj (Except.ok.inj success)
      obtain ⟨other, place, same, stored⟩ := getInputNode_iff.mp atInput
      rw [inputs] at same
      obtain ⟨rfl, rfl⟩ := Prod.mk.inj (Option.some.inj same)
      exact ⟨input, slot, node, inputs, getNodeAttrOr_iff.mp hasIndex,
        stored, rfl⟩
  · intro ⟨input, slot, node, inputs, hasIndex, stored, isResult⟩
    have single : ¬n.inputs.length ≠ 1 := by
      rw [inputs]
      exact not_not_intro rfl
    have hasIndex :=
      (@getNodeAttrOr_iff _ _ "No index defined for _Retval" _).mpr hasIndex
    have atInput : getInputNode ng_op_map n 0 = .ok node := by
      refine getInputNode_iff.mpr ⟨input, slot, ?_, stored⟩
      rw [inputs, List.getElem?_cons_zero]
    rw [if_neg single, isResult]
    simp only [bind, Except.bind, hasIndex, atInput]

/-- The values of the parameters of a graph. -/
theorem params_values {tf_params : List OpNode}
    {params : List (Nat × Parameter)}
    (readParams : List.Forall₂ (fun parm (read : Nat × Parameter) =>
      readParam (shapesOf arguments) parm = .ok ((read.1 : Int), read.2))
      tf_params params)
    (arg : ∀ parm ∈ tf_params, ∀ index : Nat,
      getNodeAttrInt parm.attrs "index" = .ok (index : Int) →
      ∃ argument, arguments[index]? = some argument ∧
      val parm.name = [argument]) :
    ∀ read ∈ tf_params.zip params,
      val read.1.name = [argumentAt arguments read.2.1] ∧
      (argumentAt arguments read.2.1).shape = read.2.2.shape := by
  intro ⟨parm, index, parameter⟩ member
  have read := (List.forall₂_iff_zip.mp readParams).2 member
  obtain ⟨dtype, argument, _, hasIndex, _, isArgument, isShape⟩ :=
    readParam_iff.mp read
  obtain ⟨other, isOther, isValue⟩ :=
    arg parm (List.of_mem_zip member).1 index hasIndex
  rw [isArgument] at isOther
  obtain rfl := Option.some.inj isOther
  have same : argumentAt arguments index = argument := by
    rw [argumentAt, isArgument, Option.getD_some]
  dsimp only
  rw [same, isShape]
  exact ⟨isValue, rfl⟩

theorem partsOf_mem {op : OpNode} :
    (op ∈ (partsOf ordered).tf_params ↔
      ∃ n ∈ ordered, n.visited = true ∧ n.isArg = true ∧ n.op = op) ∧
    (op ∈ (partsOf ordered).tf_ops ↔
      ∃ n ∈ ordered, n.visited = true ∧ n.isArg = false ∧ n.isRetval = false ∧
      n.op = op) ∧
    (op ∈ (partsOf ordered).tf_ret_vals ↔
      ∃ n ∈ ordered, n.visited = true ∧ n.isArg = false ∧ n.isRetval = true ∧
      n.op = op) := by
  refine ⟨?_, ?_, ?_⟩ <;> simp [partsOf, and_assoc]

/-- Arguments and ops have names of their own. -/
theorem partsOf_distinct (distinct : (ordered.map fun n => n.op.name).Nodup) :
    ((partsOf ordered).tf_params.map OpNode.name).Nodup ∧
      ((partsOf ordered).tf_ops.map OpNode.name).Nodup ∧
      ∀ op ∈ (partsOf ordered).tf_ops,
        op.name ∉ (partsOf ordered).tf_params.map OpNode.name := by
  have filtered : ∀ p : GraphNode → Bool,
      (((ordered.filter p).map GraphNode.op).map OpNode.name).Nodup := by
    intro p
    rw [List.map_map]
    exact distinct.sublist (List.filter_sublist.map _)
  refine ⟨filtered _, filtered _, ?_⟩
  intro op isOp again
  obtain ⟨parm, isParm, same⟩ := List.mem_map.mp again
  obtain ⟨n, inOrdered, _, notArg, _, rfl⟩ := partsOf_mem.2.1.mp isOp
  obtain ⟨m, alsoInOrdered, _, isArg, rfl⟩ := partsOf_mem.1.mp isParm
  rw [List.inj_on_of_nodup_map distinct alsoInOrdered inOrdered same,
    notArg] at isArg
  exact Bool.false_ne_true isArg

theorem map_zip_left {α β γ : Type} {f : α → γ} {left : List α} {right : List β}
    (lengths : left.length = right.length) :
    (left.zip right).map (fun pair => f pair.1) = left.map f := by
  have firsts := congrArg (List.map f) (List.map_fst_zip (Nat.le_of_eq lengths))
  rw [List.map_map] at firsts
  exact firsts

theorem stored_saveParams (distinct : (ordered.map fun n => n.op.name).Nodup)
    {params : List (Nat × Parameter)}
    (readParams : List.Forall₂ (fun parm (read : Nat × Parameter) =>
      readParam (shapesOf arguments) parm = .ok ((read.1 : Int), read.2))
      (partsOf ordered).tf_params params)
    (evaluates : EvaluatesParts meaning arguments val (partsOf ordered)) :
    Stored library (argumentAt arguments) val
      ((partsOf ordered).tf_params.map OpNode.name)
      (saveParams [] ((partsOf ordered).tf_params.zip params)) := by
  have names := @map_zip_left _ _ _ OpNode.name _ _ readParams.length_eq
  have nothing : Stored library (argumentAt arguments) val [] [] := stored_nil
  have stored :=
    nothing.params (fun _ _ => List.not_mem_nil)
      (names.symm ▸ (partsOf_distinct distinct).1)
    (params_values readParams evaluates.arg)
  rw [names, List.append_nil] at stored
  exact stored.congr fun _ => List.mem_reverse.symm

/-- What the handlers and the static inputs have to fulfil. -/
structure HandledSoundly (library : Library V opset)
    (arguments : List (Tensor V)) (meaning : Meaning V) (val : NodeValues V)
    (table : TranslateOpMap) (static_input_map : StaticInputMap) (op : OpNode) :
    Prop where
  current : StaticsCurrent library.toIndex val static_input_map op
  sound : ∀ op_fun, table op.type_string = some op_fun →
    SoundTranslator library (argumentAt arguments) meaning
      static_input_map op op_fun

theorem HandledSoundly.translatable {op : OpNode}
    (handled : HandledSoundly library arguments meaning val table
      static_input_map op)
    (evaluates : EvaluatesParts meaning arguments val (partsOf ordered))
    (member : op ∈ (partsOf ordered).tf_ops) :
    Translatable library (argumentAt arguments) meaning val table
      static_input_map op :=
  ⟨evaluates.op op member, handled.current, handled.sound⟩

/-- What a translation that succeeds has built. -/
theorem Built.returnsValues {params : List (Nat × Parameter)}
    {ng_op_map : OpMap} {results : List (Nat × Result)}
    (distinct : (ordered.map fun n => n.op.name).Nodup)
    (evaluates : EvaluatesParts meaning arguments val (partsOf ordered))
    (handled : ∀ op ∈ (partsOf ordered).tf_ops,
      HandledSoundly library arguments meaning val table static_input_map op)
    (built : Built texts table (shapesOf arguments) static_input_map ordered
      name func params ng_op_map results) :
    ReturnsValues library arguments val (partsOf ordered) func := by
  obtain ⟨_, opsDistinct, apart⟩ := partsOf_distinct distinct
  have stored := (stored_saveParams distinct built.readParams evaluates).run
    apart opsDistinct
    (fun op member => (handled op member).translatable evaluates member)
    built.ops
  constructor
  · rw [built.parametersLength, built.readParams.length_eq]
  · intro parm member
    obtain ⟨read, isRead, readable⟩ :=
      Slots.exists_right built.readParams member
    obtain ⟨_, argument, _, hasIndex, _, isArgument, isShape⟩ :=
      readParam_iff.mp readable
    exact ⟨read.1, read.2, argument, hasIndex, built.parameters read isRead,
      isArgument, isShape⟩
  · rw [built.resultsLength, built.readResults.length_eq]
  · intro n member
    obtain ⟨read, isRead, readable⟩ :=
      Slots.exists_right built.readResults member
    obtain ⟨input, slot, node, inputs, hasIndex, found, isResult⟩ :=
      readResult_iff.mp readable
    obtain ⟨value, isValue, evaluatesTo⟩ := stored.value found
    refine ⟨read.1, input, slot, read.2, value, hasIndex, inputs,
      built.results read isRead, isValue, ?_⟩
    rw [isResult]
    exact evaluatesTo
  · intro index inside
    rw [built.resultsLength] at inside
    have written := built.resultIndices.mem_iff.mpr (List.mem_range.mpr inside)
    obtain ⟨read, isRead, rfl⟩ := List.mem_map.mp written
    obtain ⟨n, member, readable⟩ := Slots.exists_left built.readResults isRead
    obtain ⟨_, _, _, _, hasIndex, _⟩ := readResult_iff.mp readable
    exact ⟨n, member, hasIndex⟩

omit [Inhabited V] in
theorem staticsCurrent_of_unknown {toIndex : V → Int} {op : OpNode}
    (unknown : ∀ input ∈ op.inputs,
      (getStaticNodeTensor input.1 static_input_map).toOption = none) :
    StaticsCurrent toIndex val static_input_map op := by
  intro input slot tensor value isInput found
  have nothing := unknown (input, slot) isInput
  rw [found] at nothing
  exact absurd nothing (by simp [Except.toOption])

end Graph

def argNode (name : String) (index : Int) : OpNode where
  name := name
  type_string := "_Arg"
  attrs := [("T", .type .DT_INT32), ("index", .i index)]
  listAttrs := []
  floatAttrs := []
  inputs := []

def retvalNode (name : String) (index : Int) (input : InputNode) : OpNode where
  name := name
  type_string := "_Retval"
  attrs := [("T", .type .DT_INT32), ("index", .i index)]
  listAttrs := []
  floatAttrs := []
  inputs := [(input, 0)]

def plainNode (name type_string : String) (inputs : List InputNode) :
    OpNode where
  name := name
  type_string := type_string
  attrs := []
  listAttrs := []
  floatAttrs := []
  inputs := inputs.map fun input => (input, 0)

def inputNode (name type_string : String) : InputNode :=
  ⟨name, type_string, [], none⟩

def vector (entries : List Int) : Tensor Int :=
  ⟨[entries.length], entries, by simp⟩

def noTexts : DebugStrings := ⟨fun _ => "", fun _ => "", fun _ => ""⟩

section Graph

variable {V : Type} [Inhabited V] {opset : Opset} {library : Library V opset}
  {arguments : List (Tensor V)} {val : NodeValues V} {meaning : Meaning V}
  {texts : DebugStrings} {table : TranslateOpMap}
  {static_input_map : StaticInputMap} {ordered : List GraphNode} {name : String}

/-- The indices of arguments or of results are those of a list. -/
def Indexed (ops : List OpNode) : Prop :=
  ∃ indices : List Nat, List.Forall₂ (fun op (index : Nat) =>
      getNodeAttrInt op.attrs "index" = .ok (index : Int)) ops indices ∧
    indices.Perm (List.range indices.length)

/-- What `TranslateGraph` demands of the arguments and of the returned
tensors. -/
structure WellFormedParts (val : NodeValues V) (parts : Parts) : Prop where
  params : Indexed parts.tf_params
  types : ∀ parm ∈ parts.tf_params, ∃ dtype ng_et,
    getNodeAttrType parm.attrs "T" = .ok dtype ∧
    tfDataTypeToNGraphElementType dtype = .ok ng_et
  results : Indexed parts.tf_ret_vals
  returned : ∀ n ∈ parts.tf_ret_vals, ∃ input slot value,
    n.inputs = [(input, slot)] ∧
    (input.name ∈ parts.tf_params.map OpNode.name ∨
      input.name ∈ parts.tf_ops.map OpNode.name) ∧
    (val input.name)[slot]? = some value

theorem indexed_of_reads {α : Type} {ops : List OpNode} {reads : List (Nat × α)}
    {Read : OpNode → Nat × α → Prop} (each : List.Forall₂ Read ops reads)
    (index : ∀ op read, Read op read →
      getNodeAttrInt op.attrs "index" = .ok (read.1 : Int))
    (indices : (reads.map Prod.fst).Perm (List.range reads.length)) :
    Indexed ops := by
  refine ⟨reads.map Prod.fst, ?_, ?_⟩
  · rw [List.forall₂_map_right_iff]
    exact each.imp index
  · rw [List.length_map]
    exact indices

theorem Indexed.reads {α : Type} {ops : List OpNode} (indexed : Indexed ops)
    {Read : OpNode → Nat → α → Prop}
    (readable : ∀ op ∈ ops, ∀ index : Nat, getNodeAttrInt op.attrs "index" =
      .ok (index : Int) →
      ∃ value, Read op index value) :
    ∃ reads : List (Nat × α),
      List.Forall₂ (fun op read => Read op read.1 read.2) ops reads ∧
      (reads.map Prod.fst).Perm (List.range reads.length) := by
  obtain ⟨indices, each, perm⟩ := indexed
  have values : List.Forall₂ (fun op index => ∃ value, Read op index value) ops
      indices :=
    ((List.forall₂_and_left _ _).mpr ⟨readable, each⟩).imp
      fun op index both => both.1 index both.2
  obtain ⟨reads, related, same⟩ := Slots.exists_pairs values
  refine ⟨reads, related, ?_⟩
  rw [same, ← List.length_map (f := Prod.fst), same]
  exact perm

/-- If the ops come after what they read, and the handlers keep what the ops
mean and succeed where they mean something, then the graphs that are translated
are those that are well formed. -/
theorem translateNodes_ok_iff
    (distinct : (ordered.map fun n => n.op.name).Nodup)
    (evaluates : EvaluatesParts meaning arguments val (partsOf ordered))
    (sound : ∀ op ∈ (partsOf ordered).tf_ops,
      HandledSoundly library arguments meaning val table static_input_map op)
    (total : ∀ op ∈ (partsOf ordered).tf_ops,
      Handled library (argumentAt arguments) meaning table static_input_map op)
    (before : StraightLine.Ordered visits
      ((partsOf ordered).tf_params.map OpNode.name)
      (partsOf ordered).tf_ops) :
    (∃ func, translateNodes texts table (shapesOf arguments) static_input_map
      ordered name =
      .ok func) ↔ NoControlFlow ordered ∧
    WellFormedParts val (partsOf ordered) := by
  obtain ⟨_, opsDistinct, apart⟩ := partsOf_distinct distinct
  have translatable :=
    fun op member => (sound op member).translatable evaluates member
  have inDone : ∀ input : String,
      input ∈ ((partsOf ordered).tf_ops.map OpNode.name).reverse ++
        (partsOf ordered).tf_params.map OpNode.name ↔
      input ∈ (partsOf ordered).tf_params.map OpNode.name ∨
        input ∈ (partsOf ordered).tf_ops.map OpNode.name := by
    intro input
    rw [List.mem_append, List.mem_reverse, or_comm]
  constructor
  · intro ⟨func, success⟩
    obtain ⟨params, ng_op_map, results, built⟩ := translateNodes_iff.mp success
    have stored :=
      (stored_saveParams distinct built.readParams evaluates).run apart
        opsDistinct translatable built.ops
    refine ⟨built.noControlFlow, ?_, ?_, ?_, ?_⟩
    · apply indexed_of_reads built.readParams _ built.paramIndices
      intro parm read readable
      obtain ⟨_, _, _, hasIndex, _⟩ := readParam_iff.mp readable
      exact hasIndex
    · intro parm member
      obtain ⟨read, _, readable⟩ := Slots.exists_right built.readParams member
      obtain ⟨dtype, _, hasType, _, converted, _⟩ := readParam_iff.mp readable
      exact ⟨dtype, _, hasType, converted⟩
    · apply indexed_of_reads built.readResults _ built.resultIndices
      intro n read readable
      obtain ⟨_, _, _, _, hasIndex, _⟩ := readResult_iff.mp readable
      exact hasIndex
    · intro n member
      obtain ⟨read, _, readable⟩ := Slots.exists_right built.readResults member
      obtain ⟨input, slot, node, inputs, _, found, _⟩ :=
        readResult_iff.mp readable
      obtain ⟨value, isValue, _⟩ := stored.value found
      refine ⟨input, slot, value, inputs, (inDone _).mp ?_, isValue⟩
      by_contra outside
      rw [stored.nothing _ outside] at found
      exact absurd found (by simp)
  · intro ⟨noControlFlow, wellFormed⟩
    have readable : ∀ parm ∈ (partsOf ordered).tf_params, ∀ index : Nat,
        getNodeAttrInt parm.attrs "index" = .ok (index : Int) →
        ∃ parameter, readParam (shapesOf arguments) parm =
          .ok ((index : Int), parameter) := by
      intro parm member index hasIndex
      obtain ⟨dtype, ng_et, hasType, converted⟩ := wellFormed.types parm member
      obtain ⟨argument, isArgument, _⟩ :=
        evaluates.arg parm member index hasIndex
      exact ⟨⟨ng_et, argument.shape⟩, readParam_iff.mpr
        ⟨dtype, argument, hasType, hasIndex, converted, isArgument, rfl⟩⟩
    obtain ⟨params, readParams, paramIndices⟩ :=
      wellFormed.params.reads readable
    have atParams : Stored library (argumentAt arguments) val _ _ :=
      stored_saveParams distinct readParams evaluates
    obtain ⟨ng_op_map, ops⟩ : ∃ after, constructOps texts table static_input_map
        (partsOf ordered).tf_ops
        (saveParams [] ((partsOf ordered).tf_params.zip params)) =
          .ok after :=
      atParams.run_total before translatable total
    have stored := atParams.run apart opsDistinct translatable ops
    have found : ∀ n ∈ (partsOf ordered).tf_ret_vals, ∀ index : Nat,
        getNodeAttrInt n.attrs "index" = .ok (index : Int) →
        ∃ result, readResult ng_op_map n = .ok ((index : Int), result) := by
      intro n member index hasIndex
      obtain ⟨input, slot, value, inputs, known, isValue⟩ :=
        wellFormed.returned n member
      obtain ⟨node, found⟩ := stored.node ((inDone _).mpr known) isValue
      exact ⟨⟨node, false⟩,
        readResult_iff.mpr ⟨input, slot, node, inputs, hasIndex, found, rfl⟩⟩
    obtain ⟨results, readResults, resultIndices⟩ :=
      wellFormed.results.reads found
    obtain ⟨parameters, parametersLength, atParameters⟩ :=
      Slots.exists_of_perm paramIndices
    obtain ⟨returned, returnedLength, atReturned⟩ :=
      Slots.exists_of_perm resultIndices
    exact ⟨⟨returned, parameters, name⟩,
      translateNodes_iff.mpr
        ⟨params, ng_op_map, results, noControlFlow, readParams, paramIndices,
          ops, readResults, resultIndices, parametersLength,
          atParameters, returnedLength, atReturned, rfl⟩⟩

end Graph

end NGraphBridge.NGraphBuilder
