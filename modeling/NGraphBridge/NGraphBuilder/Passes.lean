import NGraphBridge.NGraphBuilder.OpTable
import NGraphBridge.TransposeSinking.Run

/-!
# The passes over a translated function

`TranslateGraph` folds constants if it is told to, and sinks transposes
unless it is told not to.  A pass goes over nodes, and the outputs of the
builder do not tell which nodes are shared; so the nodes are given beside
them, and have to show what was built.
-/

namespace NGraphBridge.NGraphBuilder

open NGraph (Shape Output)
open TF Axes

/-- The ops that are not told apart when transposes are sunk, with their
attributes. -/
inductive OtherOp where
  | StridedSlice (begin_ end_ begin_mask end_mask new_axis_mask
      shrink_axis_mask : List Int)
  | VariadicSplit (axis : Int) (split_lengths : List Int)
  | Clamp (low high : Int)
  | Convolution (attrs : Convolution)
  | ConvolutionBackpropData (output_shape : List Nat) (attrs : Convolution)
  | GroupConvolution (attrs : Convolution)
  | BatchNormInference (epsilon : UInt32)
  | Select
  | MaxPool (attrs : Pooling)
  | Gather (axis : Int)
  deriving DecidableEq, Repr

/-- What stands behind the name of such an op. -/
abbrev OpNames := String → Option OtherOp

namespace OtherOp

def infer (opset : Opset) : OtherOp → List Shape → Option (List Shape)
  | .StridedSlice begin_ end_ begin_mask end_mask new_axis_mask
      shrink_axis_mask, [data] =>
      (slicePlan data begin_ end_ begin_mask end_mask new_axis_mask
        shrink_axis_mask).map fun axes => [Tensor.sliceShape axes]
  | .VariadicSplit axis split_lengths, [data] =>
      opset.variadic_split data axis split_lengths
  | .Clamp _ _, [data] => some [data]
  | .Convolution attrs, [data, filters] =>
      (opset.convolution attrs data filters).map ([·])
  | .ConvolutionBackpropData output_shape attrs, [data, filters] =>
      (opset.convolution_backprop_data attrs output_shape data filters).map
        ([·])
  | .GroupConvolution attrs, [data, filters] =>
      (opset.group_convolution attrs data filters).map ([·])
  | .BatchNormInference _, [data, gamma, beta, mean, variance] =>
      (opset.batch_norm_inference data gamma beta mean variance).map ([·])
  | .Select, [condition, then_value, else_value] =>
      ((broadcast then_value else_value).bind (broadcast condition)).map ([·])
  | .MaxPool attrs, [data] => (opset.max_pool attrs data).map ([·])
  | .Gather axis, [data, indices] =>
      (opset.gather axis data indices).map ([·])
  | _, _ => none

variable {V : Type} [Inhabited V] {opset : Opset}

/-- One of the parts of a split. -/
def splitOutput (axis : Int) (split_lengths : List Int) (data : Tensor V)
    (output : Nat) (shape : Shape) : Tensor V :=
  splitPart shape (if axis < 0 then axis + data.rank else axis).toNat
    (split_lengths.take output).sum.toNat data

def apply (library : Library V opset) :
    OtherOp → List (Tensor V) → Option (List (Tensor V))
  | .StridedSlice begin_ end_ begin_mask end_mask new_axis_mask
      shrink_axis_mask, [data] =>
      (slicePlan data.shape begin_ end_ begin_mask end_mask new_axis_mask
        shrink_axis_mask).map fun axes => [data.slice axes]
  | .VariadicSplit axis split_lengths, [data] =>
      (opset.variadic_split data.shape axis split_lengths).map
        (List.mapIdx (splitOutput axis split_lengths data))
  | .Clamp low high, [data] => some [data.map (library.clamp low high)]
  | .Convolution attrs, [data, filters] =>
      (library.convolution attrs data filters).map ([·])
  | .ConvolutionBackpropData output_shape attrs, [data, filters] =>
      (library.convolution_backprop_data attrs output_shape data
        filters).map ([·])
  | .GroupConvolution attrs, [data, filters] =>
      (library.group_convolution attrs data filters).map ([·])
  | .BatchNormInference epsilon, [data, gamma, beta, mean, variance] =>
      (library.batch_norm_inference epsilon data gamma beta mean
        variance).map ([·])
  | .Select, [condition, then_value, else_value] =>
      (select library.isTrue condition then_value else_value).map ([·])
  | .MaxPool attrs, [data] =>
      (opset.max_pool attrs data.shape).map fun shape =>
        [maxPool library.max attrs shape data]
  | .Gather axis, [data, indices] =>
      (library.gather axis data indices).map ([·])
  | _, _ => none

omit [Inhabited V] in
theorem shape_singleton {result : Option (Tensor V)} {shape : Option Shape}
    (same : result.map Tensor.shape = shape) :
    (result.map ([·])).map (List.map Tensor.shape) = shape.map ([·]) := by
  rw [← same, Option.map_map, Option.map_map]
  rfl

theorem select_shape (isTrue : V → Bool)
    (condition then_value else_value : Tensor V) :
    (select isTrue condition then_value else_value).map Tensor.shape =
      (broadcast then_value.shape else_value.shape).bind
        (broadcast condition.shape) := by
  unfold select
  cases broadcast then_value.shape else_value.shape with
  | none => rfl
  | some shape =>
      simp only [bind, Option.bind_some]
      cases broadcast condition.shape shape <;> rfl

/-- What an op makes of tensors has the shapes that are inferred. -/
theorem apply_shapes (library : Library V opset) (op : OtherOp)
    (values : List (Tensor V)) :
    (op.apply library values).map (List.map Tensor.shape) =
      op.infer opset (values.map Tensor.shape) := by
  cases op with
  | StridedSlice begin_ end_ begin_mask end_mask new_axis_mask
      shrink_axis_mask =>
      rcases values with _ | ⟨x, _ | ⟨_, _⟩⟩
      · rfl
      · exact Option.map_map _ _ _
      · rfl
  | VariadicSplit axis split_lengths =>
      rcases values with _ | ⟨x, _ | ⟨_, _⟩⟩
      · rfl
      · have shapes : ∀ parts : List Shape, (parts.mapIdx
            (splitOutput axis split_lengths x)).map Tensor.shape = parts := by
          intro parts
          apply List.ext_getElem?
          intro i
          rw [List.getElem?_map, List.getElem?_mapIdx, Option.map_map]
          exact Option.map_id'
        rw [apply, Option.map_map]
        exact (Option.map_congr fun parts _ => shapes parts).trans
          Option.map_id'
      · rfl
  | Clamp low high =>
      rcases values with _ | ⟨x, _ | ⟨_, _⟩⟩ <;> rfl
  | Convolution attrs =>
      rcases values with _ | ⟨x, _ | ⟨y, _ | ⟨_, _⟩⟩⟩
      · rfl
      · rfl
      · exact shape_singleton (library.convolution_shape attrs x y)
      · rfl
  | ConvolutionBackpropData output_shape attrs =>
      rcases values with _ | ⟨x, _ | ⟨y, _ | ⟨_, _⟩⟩⟩
      · rfl
      · rfl
      · exact shape_singleton
          (library.convolution_backprop_data_shape attrs output_shape x y)
      · rfl
  | GroupConvolution attrs =>
      rcases values with _ | ⟨x, _ | ⟨y, _ | ⟨_, _⟩⟩⟩
      · rfl
      · rfl
      · exact shape_singleton (library.group_convolution_shape attrs x y)
      · rfl
  | BatchNormInference epsilon =>
      rcases values with
        _ | ⟨x, _ | ⟨g, _ | ⟨b, _ | ⟨m, _ | ⟨v, _ | ⟨_, _⟩⟩⟩⟩⟩⟩
      · rfl
      · rfl
      · rfl
      · rfl
      · rfl
      · exact shape_singleton (library.batch_norm_shape epsilon x g b m v)
      · rfl
  | Select =>
      rcases values with _ | ⟨c, _ | ⟨x, _ | ⟨y, _ | ⟨_, _⟩⟩⟩⟩
      · rfl
      · rfl
      · rfl
      · exact shape_singleton (select_shape library.isTrue c x y)
      · rfl
  | MaxPool attrs =>
      rcases values with _ | ⟨x, _ | ⟨_, _⟩⟩
      · rfl
      · exact Option.map_map _ _ _
      · rfl
  | Gather axis =>
      rcases values with _ | ⟨x, _ | ⟨y, _ | ⟨_, _⟩⟩⟩
      · rfl
      · rfl
      · exact shape_singleton (library.gather_shape axis x y)
      · rfl

end OtherOp

section Library

variable {V : Type} [Inhabited V] {opset : Opset}

def otherInference (named : OpNames) (opset : Opset) :
    TransposeSinking.Inference :=
  fun type_name shapes => (named type_name).bind (·.infer opset shapes)

/-- The functions of the library, as the passes see them. -/
def passLibrary (named : OpNames) (library : Library V opset) :
    TransposeSinking.Library V (otherInference named opset) where
  unary := fun type_name =>
    if type_name = "Relu" then library.relu else id
  binary := fun type_name x y =>
    if type_name = "Add" then library.add x y else x
  apply := fun type_name values =>
    (named type_name).bind (·.apply library values)
  shapes := by
    intro type_name values
    rw [otherInference]
    cases named type_name with
    | none => rfl
    | some op => exact op.apply_shapes library values

end Library

/-- A function with its nodes.  Its parameters are in the order of the
arguments. -/
structure NodeFunction extends TransposeSinking.Function where
  parameters : List Nat
  needs_default_layout : Nat → Bool

/-- The nodes that the handlers have made, and what nGraph brings along. -/
structure Passes where
  opset : Opset
  named : OpNames
  nodes : Function → NodeFunction
  constantFolding : NodeFunction → TransposeSinking.Throws NodeFunction
  enumeration : TransposeSinking.Enumeration

def transposeSinking (passes : Passes) (ng_function : NodeFunction) :
    TransposeSinking.Throws NodeFunction := do
  let heap ← TransposeSinking.runOnFunction
    (otherInference passes.named passes.opset) passes.enumeration
    ng_function.toFunction
  .ok { ng_function with
    heap := heap
    ops := passes.enumeration.get_ordered_ops heap }

def foldConstants (passes : Passes) (getEnv : String → String)
    (ng_function : NodeFunction) : TransposeSinking.Throws NodeFunction :=
  if getEnv "NGRAPH_TF_CONSTANT_FOLDING" = "1" then
    passes.constantFolding ng_function
  else .ok ng_function

def sinkTransposes (passes : Passes) (getEnv : String → String)
    (ng_function : NodeFunction) : TransposeSinking.Throws NodeFunction :=
  if getEnv "NGRAPH_TF_TRANSPOSE_SINKING" ≠ "0" then
    transposeSinking passes ng_function
  else .ok ng_function

/-- `run_passes`; `getEnv` gives the empty text for a variable that is not
set. -/
def runPasses (passes : Passes) (getEnv : String → String)
    (ng_function : NodeFunction) : TransposeSinking.Throws NodeFunction := do
  let folded ← foldConstants passes getEnv ng_function
  sinkTransposes passes getEnv folded

/-- Row-major layout for all results. -/
def setDefaultLayout (ng_function : NodeFunction) : NodeFunction :=
  { ng_function with
    needs_default_layout := fun id =>
      ng_function.results.contains id || ng_function.needs_default_layout id }

/-- What a pass throws is not caught. -/
def translateGraph (texts : DebugStrings) (table : TranslateOpMap)
    (passes : Passes) (getEnv : String → String) (inputs : List (List Int))
    (static_input_map : StaticInputMap) (ordered : List GraphNode)
    (name : String) : Translates NodeFunction := do
  let ng_function ←
    translateNodes texts table inputs static_input_map ordered name
  match runPasses passes getEnv (passes.nodes ng_function) with
  | .error _ => .error .exception
  | .ok ng_function => .ok (setDefaultLayout ng_function)

/-- A node with an op and what it reads. -/
def NodeFunction.Has (ng_function : NodeFunction) (id : Nat)
    (op : TransposeSinking.Op) (inputs : List Output) : Prop :=
  (ng_function.heap.node id).op = op ∧
    (ng_function.heap.node id).input_values = inputs

/-- The same for an op behind a name. -/
def NodeFunction.HasOther (named : OpNames) (ng_function : NodeFunction)
    (id : Nat) (op : OtherOp) (inputs : List Output) : Prop :=
  ∃ type_name, named type_name = some op ∧
    ng_function.Has id (.Other type_name) inputs

/-- An output of the builder is one of the nodes: what is read from its node
on is what was built. -/
def Shows (named : OpNames) (ng_function : NodeFunction) :
    Ng → Output → Prop
  | .Parameter index _, output => output.index = 0 ∧
      ng_function.parameters[index]? = some output.node
  | .Transpose data input_order, output => output.index = 0 ∧ ∃ input,
      ng_function.Has output.node (.Transpose input_order) [input] ∧
      Shows named ng_function data input
  | .Reshape data pattern, output => output.index = 0 ∧ ∃ input,
      ng_function.Has output.node (.Reshape pattern) [input] ∧
      Shows named ng_function data input
  | .Relu data, output => output.index = 0 ∧ ∃ input,
      ng_function.Has output.node (.Unary "Relu") [input] ∧
      Shows named ng_function data input
  | .Add left right, output => output.index = 0 ∧ ∃ first second,
      ng_function.Has output.node (.Binary "Add") [first, second] ∧
      Shows named ng_function left first ∧
      Shows named ng_function right second
  | .StridedSlice data begin_ end_ begin_mask end_mask new_axis_mask
      shrink_axis_mask, output => output.index = 0 ∧ ∃ input,
      ng_function.HasOther named output.node (.StridedSlice begin_ end_
        begin_mask end_mask new_axis_mask shrink_axis_mask) [input] ∧
      Shows named ng_function data input
  | .VariadicSplit data axis split_lengths part, output =>
      output.index = part ∧ ∃ input,
      ng_function.HasOther named output.node
        (.VariadicSplit axis split_lengths) [input] ∧
      Shows named ng_function data input
  | .Clamp data low high, output => output.index = 0 ∧ ∃ input,
      ng_function.HasOther named output.node (.Clamp low high) [input] ∧
      Shows named ng_function data input
  | .Convolution data filters attrs, output => output.index = 0 ∧
      ∃ first second,
      ng_function.HasOther named output.node (.Convolution attrs)
        [first, second] ∧
      Shows named ng_function data first ∧
      Shows named ng_function filters second
  | .ConvolutionBackpropData data filters output_shape attrs, output =>
      output.index = 0 ∧ ∃ first second,
      ng_function.HasOther named output.node
        (.ConvolutionBackpropData output_shape attrs) [first, second] ∧
      Shows named ng_function data first ∧
      Shows named ng_function filters second
  | .GroupConvolution data filters attrs, output => output.index = 0 ∧
      ∃ first second,
      ng_function.HasOther named output.node (.GroupConvolution attrs)
        [first, second] ∧
      Shows named ng_function data first ∧
      Shows named ng_function filters second
  | .BatchNormInference data gamma beta mean variance epsilon, output =>
      output.index = 0 ∧ ∃ first second third fourth fifth,
      ng_function.HasOther named output.node (.BatchNormInference epsilon)
        [first, second, third, fourth, fifth] ∧
      Shows named ng_function data first ∧
      Shows named ng_function gamma second ∧
      Shows named ng_function beta third ∧
      Shows named ng_function mean fourth ∧
      Shows named ng_function variance fifth
  | .Select condition then_value else_value, output => output.index = 0 ∧
      ∃ first second third,
      ng_function.HasOther named output.node .Select
        [first, second, third] ∧
      Shows named ng_function condition first ∧
      Shows named ng_function then_value second ∧
      Shows named ng_function else_value third
  | .MaxPool data attrs, output => output.index = 0 ∧ ∃ input,
      ng_function.HasOther named output.node (.MaxPool attrs) [input] ∧
      Shows named ng_function data input
  | .Gather data indices axis, output => output.index = 0 ∧
      ∃ first second,
      ng_function.HasOther named output.node (.Gather axis)
        [first, second] ∧
      Shows named ng_function data first ∧
      Shows named ng_function indices second

def isParameter : TransposeSinking.Op → Bool
  | .Parameter _ => true
  | _ => false

/-- The nodes of a function: each has the shapes that its op infers, the
parameters are all listed, and the results show what was built. -/
structure Holds (named : OpNames) (opset : Opset) (func : Function)
    (ng_function : NodeFunction) : Prop where
  wellFormed : TransposeSinking.WellFormed (otherInference named opset)
    ng_function.toFunction
  parameters : List.Forall₂ (fun id (parameter : Parameter) =>
      id ∈ ng_function.ops ∧
        (ng_function.heap.node id).op = .Parameter parameter.shape)
    ng_function.parameters func.parameters
  distinct : ng_function.parameters.Nodup
  listed : ∀ id ∈ ng_function.ops,
    isParameter (ng_function.heap.node id).op = true →
    id ∈ ng_function.parameters
  results : List.Forall₂ (fun id (result : Result) => ∃ input,
      ng_function.Has id .Result [input] ∧
        Shows named ng_function result.value input)
    ng_function.results func.results

section Values

variable {V : Type} [Inhabited V] {opset : Opset}
  {library : Library V opset} {named : OpNames} {func : Function}
  {ng_function : NodeFunction} {args : Nat → Tensor V}

/-- The tensors that are given to the parameters. -/
def bound (ng_function : NodeFunction) (args : Nat → Tensor V)
    (output : Output) : Option (Tensor V) :=
  if output.node ∈ ng_function.parameters ∧ output.index = 0 then
    some (args (ng_function.parameters.idxOf output.node))
  else none

/-- The value of an output of a function. -/
def NodeFunction.Computes (ng_function : NodeFunction) (named : OpNames)
    (library : Library V opset) (args : Nat → Tensor V) (output : Output)
    (value : Tensor V) : Prop :=
  TransposeSinking.Evaluates (passLibrary named library)
    (bound ng_function args) [] ng_function.heap output value

omit [Inhabited V] in
theorem Holds.bound_none (holds : Holds named opset func ng_function)
    {id index : Nat} {op : TransposeSinking.Op} {inputs : List Output}
    (has : ng_function.Has id op inputs)
    (other : ∀ shape, op ≠ .Parameter shape) :
    bound ng_function args ⟨id, index⟩ = none := by
  rw [bound, if_neg]
  intro both
  obtain ⟨parameter, _, _, isParameter⟩ :=
    Slots.exists_right holds.parameters both.1
  exact other _ (has.1.symm.trans isParameter)

/-- A node computes what its op makes of what it reads. -/
theorem Holds.node (holds : Holds named opset func ng_function)
    {id index : Nat} {op : TransposeSinking.Op} {inputs : List Output}
    {values outputs : List (Tensor V)} {value : Tensor V}
    (has : ng_function.Has id op inputs)
    (other : ∀ shape, op ≠ .Parameter shape)
    (reads : List.Forall₂ (ng_function.Computes named library args) inputs
      values)
    (applied : op.apply (passLibrary named library) values = some outputs)
    (picked : outputs[index]? = some value) :
    ng_function.Computes named library args ⟨id, index⟩ value := by
  refine .node (holds.bound_none has other)
    (fun both => List.not_mem_nil both.1) ?_ ?_ (has.1.symm ▸ applied) picked
  · rw [has.2, reads.length_eq]
  · intro i input arg atInput atValue
    rw [has.2] at atInput
    obtain ⟨inside, rfl⟩ := List.getElem?_eq_some_iff.mp atInput
    obtain ⟨insideValues, rfl⟩ := List.getElem?_eq_some_iff.mp atValue
    exact (List.forall₂_iff_get.mp reads).2 i inside insideValues

theorem Holds.other (holds : Holds named opset func ng_function)
    {id index : Nat} {op : OtherOp} {inputs : List Output}
    {values outputs : List (Tensor V)} {value : Tensor V}
    (has : ng_function.HasOther named id op inputs)
    (reads : List.Forall₂ (ng_function.Computes named library args) inputs
      values)
    (applied : op.apply library values = some outputs)
    (picked : outputs[index]? = some value) :
    ng_function.Computes named library args ⟨id, index⟩ value := by
  obtain ⟨type_name, isOp, has⟩ := has
  refine holds.node has (fun _ => TransposeSinking.Op.noConfusion) reads
    ?_ picked
  change (named type_name).bind (·.apply library values) = some outputs
  rw [isOp]
  exact applied

/-- An op on two tensors. -/
theorem Holds.two (holds : Holds named opset func ng_function) {id : Nat}
    {op : OtherOp} {first second : Output} {left right : Ng}
    {f : Tensor V → Tensor V → Option (Tensor V)} {value : Tensor V}
    (has : ng_function.HasOther named id op [first, second])
    (law : ∀ x y, op.apply library [x, y] = (f x y).map ([·]))
    (atFirst : ∀ {x}, left.eval library args = some x →
      ng_function.Computes named library args first x)
    (atSecond : ∀ {y}, right.eval library args = some y →
      ng_function.Computes named library args second y)
    (evaluates : ((left.eval library args).bind fun x =>
      (right.eval library args).bind fun y => f x y) = some value) :
    ng_function.Computes named library args ⟨id, 0⟩ value := by
  obtain ⟨x, atLeft, evaluates⟩ := Option.bind_eq_some_iff.mp evaluates
  obtain ⟨y, atRight, evaluates⟩ := Option.bind_eq_some_iff.mp evaluates
  have applied : op.apply library [x, y] = some [value] := by
    rw [law, evaluates]
    rfl
  exact holds.other has
    (.cons (atFirst atLeft) (.cons (atSecond atRight) .nil)) applied rfl

/-- The node of an output that has a value computes it. -/
theorem Shows.computes (holds : Holds named opset func ng_function)
    {ng : Ng} {output : Output} {value : Tensor V}
    (shows : Shows named ng_function ng output)
    (evaluates : ng.eval library args = some value) :
    ng_function.Computes named library args output value := by
  obtain ⟨id, place⟩ := output
  induction ng generalizing id place value with
  | Parameter index shape =>
      obtain ⟨rfl, atIndex⟩ := shows
      rw [Ng.eval] at evaluates
      split at evaluates
      next =>
        obtain ⟨inside, rfl⟩ := List.getElem?_eq_some_iff.mp atIndex
        obtain rfl := Option.some.inj evaluates
        apply TransposeSinking.Evaluates.known
        rw [bound, if_pos ⟨List.getElem_mem inside, rfl⟩,
          holds.distinct.idxOf_getElem index inside]
      next => exact absurd evaluates (by simp)
  | Transpose data input_order ih =>
      obtain ⟨rfl, input, has, shows⟩ := shows
      obtain ⟨x, atData, evaluates⟩ := Option.bind_eq_some_iff.mp evaluates
      split at evaluates
      next isOrder =>
        obtain rfl := Option.some.inj evaluates
        exact holds.node has (fun _ => TransposeSinking.Op.noConfusion)
          (.cons (ih atData _ _ shows) .nil) (if_pos isOrder) rfl
      next => exact absurd evaluates (by simp)
  | Reshape data pattern ih =>
      obtain ⟨rfl, input, has, shows⟩ := shows
      obtain ⟨x, atData, evaluates⟩ := Option.bind_eq_some_iff.mp evaluates
      exact holds.node has (fun _ => TransposeSinking.Op.noConfusion)
        (.cons (ih atData _ _ shows) .nil)
        (congrArg (Option.map ([·])) evaluates) rfl
  | Relu data ih =>
      obtain ⟨rfl, input, has, shows⟩ := shows
      obtain ⟨x, atData, evaluates⟩ := Option.bind_eq_some_iff.mp evaluates
      exact holds.node has (fun _ => TransposeSinking.Op.noConfusion)
        (.cons (ih atData _ _ shows) .nil) rfl evaluates
  | Add left right leftIh rightIh =>
      obtain ⟨rfl, first, second, has, showsLeft, showsRight⟩ := shows
      obtain ⟨x, atLeft, evaluates⟩ := Option.bind_eq_some_iff.mp evaluates
      obtain ⟨y, atRight, evaluates⟩ := Option.bind_eq_some_iff.mp evaluates
      exact holds.node has (fun _ => TransposeSinking.Op.noConfusion)
        (.cons (leftIh atLeft _ _ showsLeft)
          (.cons (rightIh atRight _ _ showsRight) .nil))
        (congrArg (Option.map ([·])) evaluates) rfl
  | StridedSlice data begin_ end_ begin_mask end_mask new_axis_mask
      shrink_axis_mask ih =>
      obtain ⟨rfl, input, has, shows⟩ := shows
      obtain ⟨x, atData, evaluates⟩ := Option.bind_eq_some_iff.mp evaluates
      obtain ⟨axes, plan, evaluates⟩ := Option.bind_eq_some_iff.mp evaluates
      obtain rfl := Option.some.inj evaluates
      exact holds.other has (.cons (ih atData _ _ shows) .nil)
        (congrArg (Option.map _) plan) rfl
  | VariadicSplit data axis split_lengths part ih =>
      obtain ⟨rfl, input, has, shows⟩ := shows
      obtain ⟨x, atData, evaluates⟩ := Option.bind_eq_some_iff.mp evaluates
      obtain ⟨shapes, fits, evaluates⟩ := Option.bind_eq_some_iff.mp evaluates
      obtain ⟨shape, picked, evaluates⟩ :=
        Option.bind_eq_some_iff.mp evaluates
      refine holds.other has (.cons (ih atData _ _ shows) .nil)
        (congrArg (Option.map _) fits) ?_
      rw [List.getElem?_mapIdx, picked]
      exact evaluates
  | Clamp data low high ih =>
      obtain ⟨rfl, input, has, shows⟩ := shows
      obtain ⟨x, atData, evaluates⟩ := Option.bind_eq_some_iff.mp evaluates
      exact holds.other has (.cons (ih atData _ _ shows) .nil) rfl evaluates
  | Convolution data filters attrs dataIh filtersIh =>
      obtain ⟨rfl, first, second, has, showsData, showsFilters⟩ := shows
      exact holds.two has (fun _ _ => rfl) (dataIh · _ _ showsData)
        (filtersIh · _ _ showsFilters) evaluates
  | ConvolutionBackpropData data filters output_shape attrs dataIh
      filtersIh =>
      obtain ⟨rfl, first, second, has, showsData, showsFilters⟩ := shows
      exact holds.two has (fun _ _ => rfl) (dataIh · _ _ showsData)
        (filtersIh · _ _ showsFilters) evaluates
  | GroupConvolution data filters attrs dataIh filtersIh =>
      obtain ⟨rfl, first, second, has, showsData, showsFilters⟩ := shows
      exact holds.two has (fun _ _ => rfl) (dataIh · _ _ showsData)
        (filtersIh · _ _ showsFilters) evaluates
  | BatchNormInference data gamma beta mean variance epsilon dataIh gammaIh
      betaIh meanIh varianceIh =>
      obtain ⟨rfl, first, second, third, fourth, fifth, has, showsData,
        showsGamma, showsBeta, showsMean, showsVariance⟩ := shows
      obtain ⟨x, atData, evaluates⟩ := Option.bind_eq_some_iff.mp evaluates
      obtain ⟨g, atGamma, evaluates⟩ := Option.bind_eq_some_iff.mp evaluates
      obtain ⟨b, atBeta, evaluates⟩ := Option.bind_eq_some_iff.mp evaluates
      obtain ⟨m, atMean, evaluates⟩ := Option.bind_eq_some_iff.mp evaluates
      obtain ⟨v, atVariance, evaluates⟩ :=
        Option.bind_eq_some_iff.mp evaluates
      exact holds.other has (.cons (dataIh atData _ _ showsData)
        (.cons (gammaIh atGamma _ _ showsGamma)
          (.cons (betaIh atBeta _ _ showsBeta)
          (.cons (meanIh atMean _ _ showsMean)
            (.cons (varianceIh atVariance _ _ showsVariance) .nil)))))
        (congrArg (Option.map ([·])) evaluates) rfl
  | Select condition then_value else_value conditionIh thenIh elseIh =>
      obtain ⟨rfl, first, second, third, has, showsCondition, showsThen,
        showsElse⟩ := shows
      obtain ⟨c, atCondition, evaluates⟩ :=
        Option.bind_eq_some_iff.mp evaluates
      obtain ⟨x, atThen, evaluates⟩ := Option.bind_eq_some_iff.mp evaluates
      obtain ⟨y, atElse, evaluates⟩ := Option.bind_eq_some_iff.mp evaluates
      exact holds.other has (.cons (conditionIh atCondition _ _ showsCondition)
        (.cons (thenIh atThen _ _ showsThen)
          (.cons (elseIh atElse _ _ showsElse) .nil)))
        (congrArg (Option.map ([·])) evaluates) rfl
  | MaxPool data attrs ih =>
      obtain ⟨rfl, input, has, shows⟩ := shows
      obtain ⟨x, atData, evaluates⟩ := Option.bind_eq_some_iff.mp evaluates
      obtain ⟨shape, fits, evaluates⟩ := Option.bind_eq_some_iff.mp evaluates
      exact holds.other has (.cons (ih atData _ _ shows) .nil)
        (congrArg (Option.map _) fits) evaluates
  | Gather data indices axis dataIh indicesIh =>
      obtain ⟨rfl, first, second, has, showsData, showsIndices⟩ := shows
      exact holds.two has (fun _ _ => rfl) (dataIh · _ _ showsData)
        (indicesIh · _ _ showsIndices) evaluates

theorem Holds.result (holds : Holds named opset func ng_function) {id : Nat}
    {input : Output} {ng : Ng} {value : Tensor V}
    (has : ng_function.Has id .Result [input])
    (shows : Shows named ng_function ng input)
    (evaluates : ng.eval library args = some value) :
    ng_function.Computes named library args ⟨id, 0⟩ value :=
  holds.node has (fun _ => TransposeSinking.Op.noConfusion)
    (.cons (shows.computes holds evaluates) .nil) rfl rfl

/-- The arguments have the shapes of the parameters. -/
def Fits (args : Nat → Tensor V) (func : Function) : Prop :=
  ∀ (k : Nat) parameter, func.parameters[k]? = some parameter →
    (args k).shape = parameter.shape

/-- The arguments, by the nodes of the parameters. -/
def NodeFunction.argument (ng_function : NodeFunction)
    (args : Nat → Tensor V) (id : Nat) : Tensor V :=
  args (ng_function.parameters.idxOf id)

omit [Inhabited V] in
theorem Holds.given (holds : Holds named opset func ng_function) :
    TransposeSinking.given ng_function.toFunction
      (ng_function.argument args) = bound ng_function args := by
  funext output
  by_cases isGiven : output.node ∈ ng_function.parameters ∧
      output.index = 0
  · obtain ⟨parameter, _, isOp, op⟩ :=
      Slots.exists_right holds.parameters isGiven.1
    rw [bound, if_pos isGiven, TransposeSinking.given_iff]
    exact ⟨⟨_, op⟩, (holds.wellFormed.ops _).mp isOp, isGiven.2, rfl⟩
  · rw [bound, if_neg isGiven]
    apply Option.eq_none_iff_forall_ne_some.mpr
    intro value here
    obtain ⟨⟨shape, op⟩, below, first, _⟩ :=
      TransposeSinking.given_iff.mp here
    have isOp := (holds.wellFormed.ops _).mpr below
    exact isGiven ⟨holds.listed _ isOp (congrArg isParameter op), first⟩

omit [Inhabited V] in
theorem Holds.accepts (holds : Holds named opset func ng_function)
    (fits : Fits args func) :
    TransposeSinking.Accepts ng_function.toFunction
      (ng_function.argument args) := by
  intro id below shape op
  have isOp := (holds.wellFormed.ops id).mpr below
  obtain ⟨k, inside, rfl⟩ :=
    List.mem_iff_getElem.mp (holds.listed id isOp (congrArg isParameter op))
  have insideFunc : k < func.parameters.length :=
    holds.parameters.length_eq ▸ inside
  have each := (List.forall₂_iff_get.mp holds.parameters).2 k inside insideFunc
  have sameShape := fits k _ (List.getElem?_eq_getElem insideFunc)
  rw [NodeFunction.argument, holds.distinct.idxOf_getElem k inside, sameShape]
  exact (TransposeSinking.Op.Parameter.inj (op.symm.trans each.2)).symm

end Values

/-- What the passes find: constants are not folded, the nodes show the
function, and where transposes are sunk no step of the main loop goes
wrong. -/
structure Passes.Ready (passes : Passes) (getEnv : String → String)
    (func : Function) : Prop where
  unfolded : getEnv "NGRAPH_TF_CONSTANT_FOLDING" ≠ "1"
  holds : Holds passes.named passes.opset func (passes.nodes func)
  complete : passes.enumeration.Complete (passes.nodes func).toFunction
  meets : getEnv "NGRAPH_TF_TRANSPOSE_SINKING" ≠ "0" →
    TransposeSinking.Along
      (TransposeSinking.Meets (passes.nodes func).toFunction)
      (passes.nodes func).ops (passes.nodes func).init

section Passes

variable {V : Type} [Inhabited V] {passes : Passes}
  {library : Library V passes.opset} {getEnv : String → String}
  {func : Function} {args : Nat → Tensor V}

/-- What is left of a function once the passes are done. -/
structure Keeps (passes : Passes) (library : Library V passes.opset)
    (args : Nat → Tensor V) (func : Function)
    (ng_function : NodeFunction) : Prop where
  parameters : List.Forall₂ (fun id (parameter : Parameter) =>
      (ng_function.heap.node id).op = .Parameter parameter.shape)
    ng_function.parameters func.parameters
  results : List.Forall₂ (fun id (result : Result) =>
      ng_function.needs_default_layout id = true ∧
      ∀ value, result.value.eval library args = some value →
        ng_function.Computes passes.named library args ⟨id, 0⟩ value)
    ng_function.results func.results

omit [Inhabited V] in
theorem setDefaultLayout_result {ng_function : NodeFunction} {id : Nat}
    (isResult : id ∈ ng_function.results) :
    (setDefaultLayout ng_function).needs_default_layout id = true := by
  rw [setDefaultLayout, Bool.or_eq_true]
  exact .inl (List.contains_iff_mem.mpr isResult)

/-- The passes do not throw, and keep the function. -/
theorem Passes.Ready.run (library : Library V passes.opset)
    (ready : passes.Ready getEnv func) (fits : Fits args func) : ∃ after,
      runPasses passes getEnv (passes.nodes func) = .ok after ∧
      Keeps passes library args func (setDefaultLayout after) := by
  have holds := ready.holds
  have folded : foldConstants passes getEnv (passes.nodes func) =
      .ok (passes.nodes func) := if_neg ready.unfolded
  have shown := (List.forall₂_and_left _ _).mpr
    ⟨fun (id : Nat) isResult => (isResult : id ∈ _), holds.results⟩
  by_cases sinks : getEnv "NGRAPH_TF_TRANSPOSE_SINKING" ≠ "0"
  · obtain ⟨heap, sunk, kept, results⟩ :=
      @TransposeSinking.runOnFunction_ok V _ _
        (passLibrary passes.named library) _ _ _ holds.wellFormed
        ready.complete (ready.meets sinks) (holds.accepts fits)
    rw [holds.given] at results
    refine ⟨{ passes.nodes func with
      heap := heap
      ops := passes.enumeration.get_ordered_ops heap }, ?_, ?_, ?_⟩
    · rw [runPasses]
      simp only [bind, Except.bind, folded, sinkTransposes, if_pos sinks,
        transposeSinking, sunk]
    · refine holds.parameters.imp fun id parameter isParameter => ?_
      exact (kept id ((holds.wellFormed.ops id).mp isParameter.1) _
        isParameter.2).1
    · refine shown.imp fun id result both => ?_
      obtain ⟨isResult, input, has, shows⟩ := both
      refine ⟨setDefaultLayout_result isResult, fun value evaluates => ?_⟩
      have before := holds.result has shows evaluates
      obtain ⟨other, original, sunken⟩ := results id isResult
      obtain rfl := before.unique original
      exact sunken
  · refine ⟨passes.nodes func, ?_, ?_, ?_⟩
    · rw [runPasses]
      simp only [bind, Except.bind, folded, sinkTransposes, if_neg sinks]
    · exact holds.parameters.imp fun _ _ isParameter => isParameter.2
    · refine shown.imp fun id result both => ?_
      obtain ⟨isResult, input, has, shows⟩ := both
      exact ⟨setDefaultLayout_result isResult,
        fun value evaluates => holds.result has shows evaluates⟩

end Passes

end NGraphBridge.NGraphBuilder
