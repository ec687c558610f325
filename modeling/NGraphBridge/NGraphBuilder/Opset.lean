import Mathlib.Algebra.Ring.Int.Defs
import NGraphBridge.Lib.Slicing
import NGraphBridge.Lib.Stretching
import NGraphBridge.Lib.TensorOps
import NGraphBridge.Lib.Windows
import NGraphBridge.NGraph.Function

/-!
# nGraph nodes that are built

A node is built over its data inputs. Orders, patterns and bounds that are
inputs from a constant are given by their value.
-/

namespace NGraphBridge.NGraphBuilder

open NGraph (Shape)
open Tensor Axes

structure Convolution where
  strides : List Nat
  pads_begin : List Int
  pads_end : List Int
  dilations : List Nat
  deriving DecidableEq, Repr

structure Pooling where
  strides : List Nat
  pads_begin : List Nat
  pads_end : List Nat
  kernel : List Nat
  deriving DecidableEq, Repr

/-- An output of a node. -/
inductive Ng where
  | Parameter (index : Nat) (shape : Shape)
  | StridedSlice (data : Ng)
    (begin_ end_ begin_mask end_mask new_axis_mask shrink_axis_mask : List Int)
  | VariadicSplit (data : Ng) (axis : Int) (split_lengths : List Int)
    (output : Nat)
  | Transpose (data : Ng) (input_order : List Nat)
  | Reshape (data : Ng) (pattern : List Nat)
  | Add (left right : Ng)
  | Relu (data : Ng)
  | Clamp (data : Ng) (low high : Int)
  | Convolution (data filters : Ng) (attrs : Convolution)
  | ConvolutionBackpropData (data filters : Ng) (output_shape : List Nat)
    (attrs : Convolution)
  | GroupConvolution (data filters : Ng) (attrs : Convolution)
  | BatchNormInference (data gamma beta mean variance : Ng) (epsilon : UInt32)
  | Select (condition then_value else_value : Ng)
  | MaxPool (data : Ng) (attrs : Pooling)
  | Gather (data indices : Ng) (axis : Int)
  deriving DecidableEq, Repr

/-- The rules of the opset for shapes that are not told here. -/
structure Opset where
  variadic_split : Shape → Int → List Int → Option (List Shape)
  convolution : Convolution → Shape → Shape → Option Shape
  convolution_backprop_data : Convolution → List Nat → Shape → Shape →
    Option Shape
  group_convolution : Convolution → Shape → Shape → Option Shape
  batch_norm_inference : Shape → Shape → Shape → Shape → Shape → Option Shape
  max_pool : Pooling → Shape → Option Shape
  gather : Int → Shape → Shape → Option Shape
  infer_auto_padding : Shape → Shape → List Nat → Shape → List Int × List Int

def broadcast (left right : Shape) : Option Shape :=
  stretchAll (extend right.length left) (extend left.length right)

theorem broadcast_self (shape : Shape) :
    broadcast shape shape = some shape := by
  rw [broadcast, extend_self (Nat.le_refl _), stretchAll_self]

/-- One axis of a strided slice with steps of one. -/
def planAxis (dim : Nat) (first last : Int)
    (begin_mask end_mask shrink : Bool) : Option SliceAxis :=
  let turned (place : Int) := if place < 0 then place + dim else place
  if shrink then
    if 0 ≤ turned first ∧
      turned first < dim then some ((turned first).toNat, none) else none
  else
    let start := if begin_mask then 0
      else (max 0 (min (turned first) dim)).toNat
    let stop := if end_mask then dim else (max 0 (min (turned last) dim)).toNat
    some (start, some (stop - start))

/-- The parts of the axes that a strided slice takes; axes without a bound are
taken as a whole. New axes are not asked for by any translator. -/
def slicePlan (shape : Shape)
    (begin_ end_ begin_mask end_mask new_axis_mask shrink_axis_mask :
      List Int) : Option (List SliceAxis) :=
  if 1 ∈ new_axis_mask then none
  else (List.range shape.length).mapM fun axis =>
    if axis < begin_.length then
      planAxis (shape.getD axis 0) (begin_.getD axis 0) (end_.getD axis 0)
        (begin_mask.getD axis 0 = 1) (end_mask.getD axis 0 = 1)
        (shrink_axis_mask.getD axis 0 = 1)
    else some (0, some (shape.getD axis 0))

/-- `validate_and_infer_types`; nothing if it throws. -/
def Ng.shape (opset : Opset) : Ng → Option Shape
  | .Parameter _ shape => some shape
  | .StridedSlice data begin_ end_ begin_mask end_mask new_axis_mask
    shrink_axis_mask => do
      let shape ← data.shape opset
      let axes ← slicePlan shape begin_ end_ begin_mask end_mask new_axis_mask
          shrink_axis_mask
      some (sliceShape axes)
  | .VariadicSplit data axis split_lengths output => do
      let shape ← data.shape opset
      let shapes ← opset.variadic_split shape axis split_lengths
      shapes[output]?
  | .Transpose data input_order => do
      let shape ← data.shape opset
      if IsOrder input_order shape.length then some (permute input_order shape)
      else none
  | .Reshape data pattern => do
      let shape ← data.shape opset
      if shape.prod = pattern.prod then some pattern else none
  | .Add left right => do
      let left_shape ← left.shape opset
      let right_shape ← right.shape opset
      broadcast left_shape right_shape
  | .Relu data => data.shape opset
  | .Clamp data _ _ => data.shape opset
  | .Convolution data filters attrs => do
      let data_shape ← data.shape opset
      let filters_shape ← filters.shape opset
      opset.convolution attrs data_shape filters_shape
  | .ConvolutionBackpropData data filters output_shape attrs => do
      let data_shape ← data.shape opset
      let filters_shape ← filters.shape opset
      opset.convolution_backprop_data attrs output_shape data_shape
        filters_shape
  | .GroupConvolution data filters attrs => do
      let data_shape ← data.shape opset
      let filters_shape ← filters.shape opset
      opset.group_convolution attrs data_shape filters_shape
  | .BatchNormInference data gamma beta mean variance _ => do
      let data_shape ← data.shape opset
      let gamma_shape ← gamma.shape opset
      let beta_shape ← beta.shape opset
      let mean_shape ← mean.shape opset
      let variance_shape ← variance.shape opset
      opset.batch_norm_inference data_shape gamma_shape beta_shape mean_shape
        variance_shape
  | .Select condition then_value else_value => do
      let condition_shape ← condition.shape opset
      let then_shape ← then_value.shape opset
      let else_shape ← else_value.shape opset
      let shape ← broadcast then_shape else_shape
      broadcast condition_shape shape
  | .MaxPool data attrs => do
      let shape ← data.shape opset
      opset.max_pool attrs shape
  | .Gather data indices axis => do
      let data_shape ← data.shape opset
      let indices_shape ← indices.shape opset
      opset.gather axis data_shape indices_shape

/-- `Output::get_shape`.  A node that was built has a shape. -/
def Ng.get_shape (opset : Opset) (node : Ng) : Shape :=
  (node.shape opset).getD []

theorem Ng.get_shape_eq {opset : Opset} {node : Ng} {shape : Shape}
    (isShape : node.shape opset = some shape) :
    node.get_shape opset = shape := by
  rw [Ng.get_shape, isShape, Option.getD_some]

/-- The functions on elements, and the operations on tensors that are not told
here. -/
structure Library (V : Type) [Inhabited V] (opset : Opset) where
  add : V → V → V
  relu : V → V
  clamp : Int → Int → V → V
  max : V → V → V
  isTrue : V → Bool
  toIndex : V → Int
  convolution : Convolution → Tensor V → Tensor V → Option (Tensor V)
  convolution_shape : ∀ attrs data filters,
    (convolution attrs data filters).map Tensor.shape =
    opset.convolution attrs data.shape filters.shape
  convolution_backprop_data : Convolution → List Nat → Tensor V → Tensor V →
    Option (Tensor V)
  convolution_backprop_data_shape : ∀ attrs output_shape data filters,
    (convolution_backprop_data attrs output_shape data filters).map
      Tensor.shape =
      opset.convolution_backprop_data attrs output_shape data.shape
        filters.shape
  group_convolution : Convolution → Tensor V → Tensor V → Option (Tensor V)
  group_convolution_shape : ∀ attrs data filters,
    (group_convolution attrs data filters).map Tensor.shape =
      opset.group_convolution attrs data.shape filters.shape
  batch_norm_inference : UInt32 → Tensor V → Tensor V → Tensor V → Tensor V →
    Tensor V →
    Option (Tensor V)
  batch_norm_shape : ∀ epsilon data gamma beta mean variance,
    (batch_norm_inference epsilon data gamma beta mean variance).map
      Tensor.shape =
      opset.batch_norm_inference data.shape gamma.shape beta.shape mean.shape
        variance.shape
  gather : Int → Tensor V → Tensor V → Option (Tensor V)
  gather_shape : ∀ axis data indices,
    (gather axis data indices).map Tensor.shape =
    opset.gather axis data.shape indices.shape

/-- Tensors of the shapes of the opset, without a meaning. -/
def defaultLibrary (V : Type) [Inhabited V] (opset : Opset) :
    Library V opset where
  add := fun _ _ => default
  relu := fun _ => default
  clamp := fun _ _ _ => default
  max := fun _ _ => default
  isTrue := fun _ => false
  toIndex := fun _ => 0
  convolution := fun attrs data filters =>
    (opset.convolution attrs data.shape filters.shape).map
      (ofFn · fun _ => default)
  convolution_shape := fun _ _ _ => Option.map_map _ _ _ |>.trans Option.map_id'
  convolution_backprop_data := fun attrs output_shape data filters =>
    (opset.convolution_backprop_data attrs output_shape data.shape
        filters.shape).map
      (ofFn · fun _ => default)
  convolution_backprop_data_shape :=
    fun _ _ _ _ => Option.map_map _ _ _ |>.trans Option.map_id'
  group_convolution := fun attrs data filters =>
    (opset.group_convolution attrs data.shape filters.shape).map
      (ofFn · fun _ => default)
  group_convolution_shape :=
    fun _ _ _ => Option.map_map _ _ _ |>.trans Option.map_id'
  batch_norm_inference := fun _ data gamma beta mean variance =>
    (opset.batch_norm_inference data.shape gamma.shape beta.shape mean.shape
        variance.shape).map
      (ofFn · fun _ => default)
  batch_norm_shape :=
    fun _ _ _ _ _ _ => Option.map_map _ _ _ |>.trans Option.map_id'
  gather := fun axis data indices =>
    (opset.gather axis data.shape indices.shape).map (ofFn · fun _ => default)
  gather_shape := fun _ _ _ => Option.map_map _ _ _ |>.trans Option.map_id'

section Eval

variable {V : Type} [Inhabited V] {opset : Opset}

/-- The element of a tensor at an index of a shape it is stretched to. -/
def stretched (tensor : Tensor V) (index : List Nat) : V :=
  (tensor.expand index.length).get
    (clip (tensor.expand index.length).shape index)

/-- Elements of two tensors, chosen by a third one; all are stretched to one
shape. -/
def select (isTrue : V → Bool) (condition then_value else_value : Tensor V) :
    Option (Tensor V) := do
  let shape ← broadcast then_value.shape else_value.shape
  let shape ← broadcast condition.shape shape
  some (ofFn shape fun index =>
    if isTrue (stretched condition index) then stretched then_value index
    else stretched else_value index)

/-- The windows go over the spatial axes, which are behind the first two. -/
def maxPool (max : V → V → V) (attrs : Pooling) (shape : Shape)
    (data : Tensor V) : Tensor V :=
  ofFn shape fun index =>
    largest max ((window data.shape (1 :: 1 :: attrs.kernel)
      (1 :: 1 :: attrs.strides) (0 :: 0 :: attrs.pads_begin) index).map
        data.get)

def splitPart (shape : Shape) (axis : Nat) (start : Nat) (data : Tensor V) :
    Tensor V :=
  ofFn shape fun index => data.get (index.modify axis (start + ·))

def Ng.eval (library : Library V opset) (parameters : Nat → Tensor V) : Ng →
    Option (Tensor V)
  | .Parameter index shape =>
      if (parameters index).shape = shape then some (parameters index) else none
  | .StridedSlice data begin_ end_ begin_mask end_mask new_axis_mask
    shrink_axis_mask => do
      let data ← data.eval library parameters
      let axes ← slicePlan data.shape begin_ end_ begin_mask end_mask
          new_axis_mask shrink_axis_mask
      some (data.slice axes)
  | .VariadicSplit data axis split_lengths output => do
      let data ← data.eval library parameters
      let shapes ← opset.variadic_split data.shape axis split_lengths
      let shape ← shapes[output]?
      some (splitPart shape (if axis < 0 then axis + data.rank else axis).toNat
        (split_lengths.take output).sum.toNat data)
  | .Transpose data input_order => do
      let data ← data.eval library parameters
      if IsOrder input_order data.rank then some (data.transpose input_order)
      else none
  | .Reshape data pattern => do
      let data ← data.eval library parameters
      data.reshape pattern
  | .Add left right => do
      let left ← left.eval library parameters
      let right ← right.eval library parameters
      Tensor.binary library.add left right
  | .Relu data => do
      let data ← data.eval library parameters
      some (data.map library.relu)
  | .Clamp data low high => do
      let data ← data.eval library parameters
      some (data.map (library.clamp low high))
  | .Convolution data filters attrs => do
      let data ← data.eval library parameters
      let filters ← filters.eval library parameters
      library.convolution attrs data filters
  | .ConvolutionBackpropData data filters output_shape attrs => do
      let data ← data.eval library parameters
      let filters ← filters.eval library parameters
      library.convolution_backprop_data attrs output_shape data filters
  | .GroupConvolution data filters attrs => do
      let data ← data.eval library parameters
      let filters ← filters.eval library parameters
      library.group_convolution attrs data filters
  | .BatchNormInference data gamma beta mean variance epsilon => do
      let data ← data.eval library parameters
      let gamma ← gamma.eval library parameters
      let beta ← beta.eval library parameters
      let mean ← mean.eval library parameters
      let variance ← variance.eval library parameters
      library.batch_norm_inference epsilon data gamma beta mean variance
  | .Select condition then_value else_value => do
      let condition ← condition.eval library parameters
      let then_value ← then_value.eval library parameters
      let else_value ← else_value.eval library parameters
      select library.isTrue condition then_value else_value
  | .MaxPool data attrs => do
      let data ← data.eval library parameters
      let shape ← opset.max_pool attrs data.shape
      some (maxPool library.max attrs shape data)
  | .Gather data indices axis => do
      let data ← data.eval library parameters
      let indices ← indices.eval library parameters
      library.gather axis data indices

theorem shape_select {isTrue : V → Bool}
    {condition then_value else_value value : Tensor V}
    (selected : select isTrue condition then_value else_value = some value) :
    ((broadcast then_value.shape else_value.shape).bind
      (broadcast condition.shape)) =
      some value.shape := by
  obtain ⟨shape, fits, selected⟩ := Option.bind_eq_some_iff.mp selected
  obtain ⟨result, fits', selected⟩ := Option.bind_eq_some_iff.mp selected
  obtain rfl := Option.some.inj selected
  rw [fits, Option.bind_some, fits']
  rfl

/-- What is made of two values has the shape that is made of their shapes. -/
theorem shape_two {library : Library V opset} {parameters : Nat → Tensor V}
    {f : Tensor V → Tensor V → Option (Tensor V)}
    {g : Shape → Shape → Option Shape}
    (law : ∀ left right, (f left right).map Tensor.shape =
      g left.shape right.shape)
    {left right : Ng} {value : Tensor V}
    (leftShape : ∀ {value}, left.eval library parameters = some value →
      left.shape opset = some value.shape)
    (rightShape : ∀ {value}, right.eval library parameters = some value →
      right.shape opset = some value.shape)
    (evaluates : ((left.eval library parameters).bind fun x =>
      (right.eval library parameters).bind fun y => f x y) = some value) :
    ((left.shape opset).bind fun leftShape =>
      (right.shape opset).bind fun rightShape => g leftShape rightShape) =
    some value.shape := by
  obtain ⟨x, atLeft, evaluates⟩ := Option.bind_eq_some_iff.mp evaluates
  obtain ⟨y, atRight, evaluates⟩ := Option.bind_eq_some_iff.mp evaluates
  have shape := law x y
  rw [evaluates] at shape
  rw [leftShape atLeft, rightShape atRight]
  exact shape.symm

/-- A value has the shape of its node. -/
theorem eval_shape {library : Library V opset} {parameters : Nat → Tensor V}
    {node : Ng} {value : Tensor V}
    (evaluates : node.eval library parameters = some value) :
    node.shape opset = some value.shape := by
  induction node generalizing value with
  | Parameter index shape =>
      rw [Ng.eval] at evaluates
      split at evaluates
      next same =>
        obtain rfl := Option.some.inj evaluates
        rw [Ng.shape, same]
      next => exact absurd evaluates (by simp)
  | StridedSlice data begin_ end_ begin_mask end_mask new_axis_mask
    shrink_axis_mask ih =>
      obtain ⟨input, atInput, evaluates⟩ := Option.bind_eq_some_iff.mp evaluates
      obtain ⟨axes, plan, evaluates⟩ := Option.bind_eq_some_iff.mp evaluates
      obtain rfl := Option.some.inj evaluates
      rw [Ng.shape, ih atInput]
      simp only [bind, Option.bind_some, plan]
      rfl
  | VariadicSplit data axis split_lengths output ih =>
      obtain ⟨input, atInput, evaluates⟩ := Option.bind_eq_some_iff.mp evaluates
      obtain ⟨shapes, fits, evaluates⟩ := Option.bind_eq_some_iff.mp evaluates
      obtain ⟨shape, picked, evaluates⟩ := Option.bind_eq_some_iff.mp evaluates
      obtain rfl := Option.some.inj evaluates
      rw [Ng.shape, ih atInput]
      simp only [bind, Option.bind_some, fits]
      exact picked
  | Transpose data input_order ih =>
      obtain ⟨input, atInput, evaluates⟩ := Option.bind_eq_some_iff.mp evaluates
      rw [Ng.shape, ih atInput]
      simp only [bind, Option.bind_some]
      split at evaluates
      next isOrder =>
        have isOrder : IsOrder input_order input.shape.length := isOrder
        obtain rfl := Option.some.inj evaluates
        rw [if_pos isOrder]
        rfl
      next => exact absurd evaluates (by simp)
  | Reshape data pattern ih =>
      obtain ⟨input, atInput, evaluates⟩ := Option.bind_eq_some_iff.mp evaluates
      rw [Ng.shape, ih atInput]
      simp only [bind, Option.bind_some]
      unfold reshape at evaluates
      split at evaluates
      next full =>
        obtain rfl := Option.some.inj evaluates
        rw [if_pos (input.full.symm.trans full)]
      next => exact absurd evaluates (by simp)
  | Add left right leftIh rightIh =>
      exact shape_two (shape_binary library.add) leftIh rightIh evaluates
  | Relu data ih =>
      obtain ⟨input, atInput, evaluates⟩ := Option.bind_eq_some_iff.mp evaluates
      obtain rfl := Option.some.inj evaluates
      rw [Ng.shape, ih atInput]
      rfl
  | Clamp data low high ih =>
      obtain ⟨input, atInput, evaluates⟩ := Option.bind_eq_some_iff.mp evaluates
      obtain rfl := Option.some.inj evaluates
      rw [Ng.shape, ih atInput]
      rfl
  | Convolution data filters attrs dataIh filtersIh =>
      exact shape_two (library.convolution_shape attrs) dataIh
        filtersIh evaluates
  | ConvolutionBackpropData data filters output_shape attrs dataIh filtersIh =>
      exact shape_two
        (library.convolution_backprop_data_shape attrs output_shape)
        dataIh filtersIh evaluates
  | GroupConvolution data filters attrs dataIh filtersIh =>
      exact shape_two (library.group_convolution_shape attrs) dataIh
        filtersIh evaluates
  | BatchNormInference data gamma beta mean variance epsilon dataIh gammaIh
    betaIh meanIh varianceIh =>
      obtain ⟨x, atData, evaluates⟩ := Option.bind_eq_some_iff.mp evaluates
      obtain ⟨g, atGamma, evaluates⟩ := Option.bind_eq_some_iff.mp evaluates
      obtain ⟨b, atBeta, evaluates⟩ := Option.bind_eq_some_iff.mp evaluates
      obtain ⟨m, atMean, evaluates⟩ := Option.bind_eq_some_iff.mp evaluates
      obtain ⟨v, atVariance, evaluates⟩ := Option.bind_eq_some_iff.mp evaluates
      have shape := library.batch_norm_shape epsilon x g b m v
      rw [evaluates] at shape
      rw [Ng.shape, dataIh atData, gammaIh atGamma, betaIh atBeta,
        meanIh atMean, varianceIh atVariance]
      exact shape.symm
  | Select condition then_value else_value conditionIh thenIh elseIh =>
      obtain ⟨c, atCondition, evaluates⟩ := Option.bind_eq_some_iff.mp evaluates
      obtain ⟨x, atThen, evaluates⟩ := Option.bind_eq_some_iff.mp evaluates
      obtain ⟨y, atElse, evaluates⟩ := Option.bind_eq_some_iff.mp evaluates
      rw [Ng.shape, conditionIh atCondition, thenIh atThen, elseIh atElse]
      exact shape_select evaluates
  | MaxPool data attrs ih =>
      obtain ⟨input, atInput, evaluates⟩ := Option.bind_eq_some_iff.mp evaluates
      obtain ⟨shape, fits, evaluates⟩ := Option.bind_eq_some_iff.mp evaluates
      obtain rfl := Option.some.inj evaluates
      rw [Ng.shape, ih atInput]
      exact fits
  | Gather data indices axis dataIh indicesIh =>
      exact shape_two (library.gather_shape axis) dataIh indicesIh evaluates

end Eval

end NGraphBridge.NGraphBuilder
