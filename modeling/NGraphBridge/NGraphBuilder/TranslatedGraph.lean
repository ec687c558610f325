import NGraphBridge.NGraphBuilder.MaxPool
import NGraphBridge.NGraphBuilder.Passes

/-!
# What a graph is translated to

The function that `TranslateGraph` leaves after its passes returns the
tensors of the graph, if constants are not folded and no step of the pass
that sinks transposes goes wrong.
-/

namespace NGraphBridge.NGraphBuilder

open NGraph (Shape Output)
open TF

section Translated

variable {V : Type} [Inhabited V] {passes : Passes}
  {library : Library V passes.opset} {getEnv : String → String}
  {func : Function}

/-- Each parameter has the shape of its argument. -/
theorem Built.fits {texts : DebugStrings} {table : TranslateOpMap}
    {arguments : List (Tensor V)} {static_input_map : StaticInputMap}
    {ordered : List GraphNode} {name : String}
    {params : List (Nat × Parameter)} {ng_op_map : OpMap}
    {results : List (Nat × Result)}
    (built : Built texts table (shapesOf arguments) static_input_map ordered
      name func params ng_op_map results) :
    Fits (argumentAt arguments) func := by
  intro k parameter atK
  have inside : k < params.length :=
    built.parametersLength ▸ (List.getElem?_eq_some_iff.mp atK).1
  have written := built.paramIndices.mem_iff.mpr (List.mem_range.mpr inside)
  obtain ⟨read, isRead, rfl⟩ := List.mem_map.mp written
  obtain rfl := Option.some.inj ((built.parameters read isRead).symm.trans atK)
  obtain ⟨parm, _, readable⟩ := Slots.exists_left built.readParams isRead
  obtain ⟨_, argument, _, _, _, isArgument, sameShape⟩ :=
    readParam_iff.mp readable
  rw [argumentAt, isArgument, Option.getD_some, sameShape]

section Translate

variable {texts : DebugStrings} {table : TranslateOpMap}
  {arguments : List (Tensor V)} {static_input_map : StaticInputMap}
  {ordered : List GraphNode} {name : String} {ng_function : NodeFunction}

theorem Passes.Ready.translateGraph (library : Library V passes.opset)
    (ready : passes.Ready getEnv func)
    (built : translateNodes texts table (shapesOf arguments) static_input_map
      ordered name = .ok func) : ∃ after,
    translateGraph texts table passes getEnv (shapesOf arguments)
        static_input_map ordered name = .ok after ∧
      Keeps passes library (argumentAt arguments) func after := by
  obtain ⟨params, ng_op_map, results, isBuilt⟩ := translateNodes_iff.mp built
  obtain ⟨after, run, keeps⟩ := ready.run library isBuilt.fits
  refine ⟨setDefaultLayout after, ?_, keeps⟩
  rw [NGraphBuilder.translateGraph]
  simp only [bind, Except.bind, built, run]

omit [Inhabited V] in
theorem translateGraph_inv
    (success : translateGraph texts table passes getEnv (shapesOf arguments)
      static_input_map ordered name = .ok ng_function) : ∃ func,
    translateNodes texts table (shapesOf arguments) static_input_map ordered
      name = .ok func := by
  obtain ⟨func, built, _⟩ := bind_ok success
  exact ⟨func, built⟩

/-- What the passes find, whatever is built from the nodes. -/
def ReadyFor (passes : Passes) (getEnv : String → String)
    (texts : DebugStrings) (table : TranslateOpMap)
    (inputs : List (List Int)) (static_input_map : StaticInputMap)
    (ordered : List GraphNode) (name : String) : Prop :=
  ∀ func, translateNodes texts table inputs static_input_map ordered name =
    .ok func → passes.Ready getEnv func

theorem ReadyFor.keeps (library : Library V passes.opset)
    (ready : ReadyFor passes getEnv texts table (shapesOf arguments)
      static_input_map ordered name)
    (success : translateGraph texts table passes getEnv (shapesOf arguments)
      static_input_map ordered name = .ok ng_function) : ∃ func,
    translateNodes texts table (shapesOf arguments) static_input_map ordered
      name = .ok func ∧
    Keeps passes library (argumentAt arguments) func ng_function := by
  obtain ⟨func, built⟩ := translateGraph_inv success
  obtain ⟨after, translated, keeps⟩ :=
    (ready func built).translateGraph library built
  rw [translated] at success
  obtain rfl := Except.ok.inj success
  exact ⟨func, built, keeps⟩

/-- The passes do not decide whether a graph is translated. -/
theorem ReadyFor.translates_iff (library : Library V passes.opset)
    (ready : ReadyFor passes getEnv texts table (shapesOf arguments)
      static_input_map ordered name) :
    (∃ ng_function, translateGraph texts table passes getEnv
        (shapesOf arguments) static_input_map ordered name =
      .ok ng_function) ↔
      ∃ func, translateNodes texts table (shapesOf arguments)
        static_input_map ordered name = .ok func := by
  constructor
  · exact fun ⟨_, success⟩ => translateGraph_inv success
  · intro ⟨func, built⟩
    obtain ⟨after, translated, _⟩ :=
      (ready func built).translateGraph library built
    exact ⟨after, translated⟩

/-- The function gives back what the graph returns, each tensor at its index
and in row-major layout, and takes the arguments at theirs. -/
structure ReturnsTensors {opset : Opset} (named : OpNames)
    (library : Library V opset) (arguments : List (Tensor V))
    (val : NodeValues V) (parts : Parts) (ng_function : NodeFunction) :
    Prop where
  parametersLength :
    ng_function.parameters.length = parts.tf_params.length
  parameter : ∀ parm ∈ parts.tf_params, ∃ (index id : Nat)
    (argument : Tensor V),
    getNodeAttrInt parm.attrs "index" = .ok (index : Int) ∧
    ng_function.parameters[index]? = some id ∧
    arguments[index]? = some argument ∧
    (ng_function.heap.node id).op = .Parameter argument.shape
  resultsLength : ng_function.results.length = parts.tf_ret_vals.length
  result : ∀ n ∈ parts.tf_ret_vals, ∃ (index : Nat) (input : InputNode)
    (slot id : Nat) (value : Tensor V),
    getNodeAttrInt n.attrs "index" = .ok (index : Int) ∧
    n.inputs = [(input, slot)] ∧ ng_function.results[index]? = some id ∧
    (val input.name)[slot]? = some value ∧
    ng_function.needs_default_layout id = true ∧
    ng_function.Computes named library (argumentAt arguments) ⟨id, 0⟩ value
  returned : ∀ index < ng_function.results.length, ∃ n ∈ parts.tf_ret_vals,
    getNodeAttrInt n.attrs "index" = .ok (index : Int)

omit [Inhabited V] in
theorem forall₂_getElem? {α β : Type} {R : α → β → Prop} {left : List α}
    {right : List β} (each : List.Forall₂ R left right) {k : Nat} {image : β}
    (atK : right[k]? = some image) :
    ∃ item, left[k]? = some item ∧ R item image := by
  obtain ⟨inside, rfl⟩ := List.getElem?_eq_some_iff.mp atK
  have insideLeft : k < left.length := each.length_eq.symm ▸ inside
  exact ⟨_, List.getElem?_eq_getElem insideLeft,
    (List.forall₂_iff_get.mp each).2 k insideLeft inside⟩

/-- What the passes keep, they keep for the graph. -/
theorem Keeps.returns {val : NodeValues V} {parts : Parts}
    (keeps : Keeps passes library (argumentAt arguments) func ng_function)
    (returns : ReturnsValues library arguments val parts func) :
    ReturnsTensors passes.named library arguments val parts ng_function := by
  constructor
  · exact keeps.parameters.length_eq.trans returns.parametersLength
  · intro parm member
    obtain ⟨index, parameter, argument, hasIndex, atIndex, isArgument,
      sameShape⟩ := returns.parameter parm member
    obtain ⟨id, atId, op⟩ := forall₂_getElem? keeps.parameters atIndex
    exact ⟨index, id, argument, hasIndex, atId, isArgument, sameShape ▸ op⟩
  · exact keeps.results.length_eq.trans returns.resultsLength
  · intro n member
    obtain ⟨index, input, slot, result, value, hasIndex, inputs, atIndex,
      isValue, evaluates⟩ := returns.result n member
    obtain ⟨id, atId, layout, computes⟩ :=
      forall₂_getElem? keeps.results atIndex
    exact ⟨index, input, slot, id, value, hasIndex, inputs, atId, isValue,
      layout, computes value evaluates⟩
  · intro index inside
    rw [keeps.results.length_eq] at inside
    exact returns.returned index inside

end Translate

end Translated

/-- A graph of ops with a known meaning is translated if and only if it is
well formed, and the function returns the tensors of the graph. -/
theorem translateGraph_known {V : Type} [Inhabited V] {passes : Passes}
    {library : Library V passes.opset} {getEnv : String → String}
    {others : String → Translator} {texts : DebugStrings}
    {arguments : List (Tensor V)} {val : NodeValues V}
    {static_input_map : StaticInputMap} {ordered : List GraphNode}
    {name : String} (distinct : (ordered.map fun n => n.op.name).Nodup)
    (evaluates : EvaluatesParts (knownMeaning library) arguments val
      (partsOf ordered))
    (current : ∀ op ∈ (partsOf ordered).tf_ops,
      StaticsCurrent library.toIndex val static_input_map op)
    (front : ∀ op ∈ (partsOf ordered).tf_ops, AxisInFront op)
    (before : StraightLine.Ordered visits
      ((partsOf ordered).tf_params.map OpNode.name) (partsOf ordered).tf_ops)
    (ready : ReadyFor passes getEnv texts
      (translateOpMap passes.opset others) (shapesOf arguments)
      static_input_map ordered name) :
    ((∃ ng_function, translateGraph texts (translateOpMap passes.opset others)
        passes getEnv (shapesOf arguments) static_input_map ordered name =
          .ok ng_function) ↔
      NoControlFlow ordered ∧ WellFormedParts val (partsOf ordered)) ∧
    ∀ ng_function, translateGraph texts (translateOpMap passes.opset others)
        passes getEnv (shapesOf arguments) static_input_map ordered name =
          .ok ng_function →
      ReturnsTensors passes.named library arguments val (partsOf ordered)
        ng_function := by
  obtain ⟨succeeds, returns⟩ := @translateNodes_known V _ passes.opset library
    static_input_map others arguments val texts ordered name distinct evaluates
    current front before
  refine ⟨(ready.translates_iff library).trans succeeds, ?_⟩
  intro ng_function success
  obtain ⟨func, built, keeps⟩ := ready.keeps library success
  exact keeps.returns (returns func built)

def sumFunction : Function :=
  let sum : Ng :=
    .Add (.Add (.Parameter 0 [2]) (.Parameter 1 [2])) (.Parameter 0 [2])
  ⟨[⟨.Relu sum, false⟩, ⟨sum, false⟩], [⟨.i32, [2]⟩, ⟨.i32, [2]⟩], "cluster"⟩

/-- Both results read the sum. -/
def sumNodes : NodeFunction where
  heap := .ofList [⟨.Parameter [2], [], [[2]]⟩, ⟨.Parameter [2], [], [[2]]⟩,
    ⟨.Binary "Add", [⟨0, 0⟩, ⟨1, 0⟩], [[2]]⟩,
    ⟨.Binary "Add", [⟨2, 0⟩, ⟨0, 0⟩], [[2]]⟩,
    ⟨.Unary "Relu", [⟨3, 0⟩], [[2]]⟩, ⟨.Result, [⟨3, 0⟩], [[2]]⟩,
    ⟨.Result, [⟨4, 0⟩], [[2]]⟩]
  ops := [0, 1, 2, 3, 4, 5, 6]
  results := [6, 5]
  parameters := [0, 1]
  needs_default_layout := fun _ => false

noncomputable def sumPasses : Passes where
  opset := noRules
  named := fun _ => none
  nodes := fun _ => sumNodes
  constantFolding := .ok
  enumeration := TransposeSinking.postorder sumNodes.toFunction

theorem sumNodes_holds :
    Holds (fun _ => none) noRules sumFunction sumNodes where
  wellFormed := .of_range rfl (by decide) (by decide) (by decide) (by decide)
  parameters := .cons ⟨by decide, rfl⟩ (.cons ⟨by decide, rfl⟩ .nil)
  distinct := by decide
  listed := by decide
  results := by
    have shown : Shows (fun _ => none) sumNodes
        (.Add (.Add (.Parameter 0 [2]) (.Parameter 1 [2])) (.Parameter 0 [2]))
        ⟨3, 0⟩ :=
      ⟨rfl, ⟨2, 0⟩, ⟨0, 0⟩, ⟨rfl, rfl⟩, ⟨rfl, ⟨0, 0⟩, ⟨1, 0⟩, ⟨rfl, rfl⟩,
        ⟨rfl, rfl⟩, rfl, rfl⟩, rfl, rfl⟩
    exact .cons ⟨⟨4, 0⟩, ⟨rfl, rfl⟩, rfl, ⟨3, 0⟩, ⟨rfl, rfl⟩, shown⟩
      (.cons ⟨⟨3, 0⟩, ⟨rfl, rfl⟩, shown⟩ .nil)

theorem sumNodes_ready : sumPasses.Ready (fun _ => "") sumFunction where
  unfolded := by decide
  holds := sumNodes_holds
  complete := TransposeSinking.postorder_complete _
  meets := fun _ => by decide

theorem translateGraph_known_sumGraph : ∃ ng_function,
    translateGraph noTexts (translateOpMap noRules fun _ => translateNoOp)
        sumPasses (fun _ => "") (shapesOf [vector [1, -4], vector [2, 3]])
        [none, none] sumGraph "cluster" = .ok ng_function ∧
      ReturnsTensors (fun _ => none) integers [vector [1, -4], vector [2, 3]]
        sumValues (partsOf sumGraph) ng_function := by
  have noFlow : ∀ n ∈ sumGraph, n.visited = true → n.isControlFlow = false := by
    decide
  have notUnpack : ∀ op ∈ (partsOf sumGraph).tf_ops,
      op.type_string ≠ "Unpack" := by
    decide
  have unknown : ∀ op ∈ (partsOf sumGraph).tf_ops, ∀ input ∈ op.inputs,
      (getStaticNodeTensor input.1 [none, none]).toOption = none := by
    decide
  have built : translateNodes noTexts
      (translateOpMap noRules fun _ => translateNoOp)
      (shapesOf [vector [1, -4], vector [2, 3]]) [none, none] sumGraph
      "cluster" = .ok sumFunction := rfl
  obtain ⟨succeeds, values⟩ := @translateGraph_known Int _ sumPasses integers
    (fun _ => "") (fun _ => translateNoOp) noTexts
    [vector [1, -4], vector [2, 3]] sumValues [none, none] sumGraph "cluster"
    (by decide) sumGraph_evaluates
    (fun op member => staticsCurrent_of_unknown (unknown op member))
    (fun op member isUnpack => absurd isUnpack (notUnpack op member))
    (by decide)
    (fun func other => by
      obtain rfl := Except.ok.inj (built.symm.trans other)
      exact sumNodes_ready)
  obtain ⟨ng_function, success⟩ := succeeds.mpr ⟨noFlow, sumGraph_wellFormed⟩
  exact ⟨ng_function, success, values ng_function success⟩

end NGraphBridge.NGraphBuilder
