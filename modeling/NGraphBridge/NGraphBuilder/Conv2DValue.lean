import Mathlib.Tactic.NormNum.Basic
import NGraphBridge.NGraphBuilder.ConvAxes

/-!
# What a translated `Conv2D` computes

The translator asks `MakePadding` for the pads, and that knows of no explicit
padding: the convolution that is built then has none.
-/

namespace NGraphBridge.NGraphBuilder

open NGraph (Shape)
open TF Tensor Axes Correlation

def formatText (is_nhwc : Bool) : String := if is_nhwc then "NHWC" else "NCHW"

/-- The attributes of a `Conv2D`, and the dimensions of its inputs. -/
structure Conv2DCase where
  is_nhwc : Bool
  padding : TfPadding
  batch_stride : Int
  depth_stride : Int
  batch : Nat
  channels : Nat
  filters : Nat
  rows : ConvAxis
  cols : ConvAxis
  deriving DecidableEq, Repr

namespace Conv2DCase

/-- `explicit_paddings`: what is added before and after each axis. -/
def explicit_paddings (conv : Conv2DCase) : List Int :=
  (image conv.is_nhwc (0, 0) (0, 0)
      (conv.rows.explicit_before, conv.rows.explicit_after)
    (conv.cols.explicit_before, conv.cols.explicit_after)).flatMap
      fun amounts => [(amounts.1 : Int), (amounts.2 : Int)]

def imageShape (conv : Conv2DCase) : Shape :=
  image conv.is_nhwc conv.batch conv.channels conv.rows.dim conv.cols.dim

def filterShape (conv : Conv2DCase) : Shape :=
  [conv.rows.kernel, conv.cols.kernel, conv.channels, conv.filters]

/-- The shape of the result in TensorFlow. -/
def outputShape (conv : Conv2DCase) : Shape :=
  image conv.is_nhwc conv.batch conv.filters (conv.rows.outputSize conv.padding)
    (conv.cols.outputSize conv.padding)

end Conv2DCase

/-- An op with these attributes and inputs. -/
structure Conv2DInputs (opset : Opset) (op : OpNode) (ng_op_map : OpMap)
    (data filter : Ng) (conv : Conv2DCase) : Prop where
  inputs : ∃ nodes, getInputNodes ng_op_map op 2 = .ok nodes ∧ nodes 0 = data ∧
    nodes 1 = filter
  stridesAttr : getNodeAttrInts op.attrs "strides" =
    .ok (image conv.is_nhwc conv.batch_stride
    conv.depth_stride (conv.rows.stride : Int) conv.cols.stride)
  dilationsAttr : ∃ batch depth, getNodeAttrInts op.attrs "dilations" =
    .ok (image conv.is_nhwc batch depth (conv.rows.dilation : Int)
      conv.cols.dilation)
  paddingAttr : getNodeAttrString op.attrs "padding" = .ok conv.padding.text
  explicitAttr : conv.padding = .EXPLICIT →
    getNodeAttrInts op.attrs "explicit_paddings" = .ok conv.explicit_paddings
  formatAttr : getNodeAttrString op.attrs "data_format" =
    .ok (formatText conv.is_nhwc)
  dataShape : data.shape opset = some conv.imageShape
  filterShape : filter.shape opset = some conv.filterShape
  rows : conv.rows.Regular
  cols : conv.cols.Regular

/-- TensorFlow's `Conv2D`: a sum over the kernel and the channels at every
position. -/
structure IsConv2D {R : Type} [CommSemiring R] [Inhabited R] (conv : Conv2DCase)
    (data filter result : Tensor R) : Prop where
  shape : result.shape = conv.outputShape
  element : ∀ b < conv.batch, ∀ k < conv.filters,
    ∀ y < conv.rows.outputSize conv.padding,
    ∀ x < conv.cols.outputSize conv.padding,
      result.get (image conv.is_nhwc b k y x) =
        ∑ i ∈ Finset.range conv.rows.kernel,
        ∑ j ∈ Finset.range conv.cols.kernel,
          ∑ c ∈ Finset.range conv.channels,
            sample conv.rows.dim conv.cols.dim
                (fun row col => data.get (image conv.is_nhwc b c row col))
                ((conv.rows.sweep conv.padding).source y i)
                ((conv.cols.sweep conv.padding).source x j) *
              filter.get [i, j, c, k]

/-- The translation ends with an error, or what is stored is the convolution of
TensorFlow. -/
def ConvolvesCorrectly (opset : Opset) (op : OpNode) (ng_op_map : OpMap)
    (data filter : Ng) (conv : Conv2DCase) : Prop :=
  (∃ failure, failure ≠ .outOfBounds ∧
      translateConv2DOp opset op ng_op_map = .error failure) ∨
  ∃ node, translateConv2DOp opset op ng_op_map =
    .ok (saveNgOp ng_op_map op.name node) ∧
    node.shape opset = some conv.outputShape ∧
    ∀ (R : Type) [CommRing R] [Inhabited R] (library : Library R opset)
      (parameters : Nat → Tensor R) value filterValue, Correlates library →
      data.eval library parameters = some value →
      filter.eval library parameters = some filterValue →
        ∃ result, node.eval library parameters = some result ∧
        IsConv2D conv value filterValue result

/-- The node that is stored. -/
def conv2DNode (conv : Conv2DCase) (data filter : Ng) : Ng :=
  toNHWC conv.is_nhwc
    (.Convolution (toNCHW conv.is_nhwc data) (.Transpose filter [3, 2, 0, 1])
    (builtConvolution conv.padding conv.rows conv.cols))

section Translate

variable {opset : Opset} {op : OpNode} {ng_op_map : OpMap} {data filter : Ng}
  {conv : Conv2DCase}

theorem checkConvStrides_image {type_string : String} {is_nhwc : Bool}
    {batch depth row col : Int} :
    (batch = 1 ∧ depth = 1 →
      checkConvStrides type_string is_nhwc (image is_nhwc batch depth row col) =
        .ok ()) ∧
    (¬(batch = 1 ∧ depth = 1) → ∃ error,
      checkConvStrides type_string is_nhwc (image is_nhwc batch depth row col) =
        .error (.status error)) := by
  have atDepth :
      (image is_nhwc batch depth row col)[if is_nhwc then 3 else 1]? =
        some depth := by
    cases is_nhwc with
    | false => rfl
    | true => rfl
  have atBatch : (image is_nhwc batch depth row col)[0]? = some batch := by
    cases is_nhwc with
    | false => rfl
    | true => rfl
  rw [checkConvStrides, atBatch]
  dsimp only
  rw [atDepth]
  dsimp only
  by_cases batchOne : batch = 1
  · rw [if_neg (not_not_intro batchOne)]
    by_cases depthOne : depth = 1
    · rw [if_neg (not_not_intro depthOne)]
      exact ⟨fun _ => rfl, fun wide => absurd ⟨batchOne, depthOne⟩ wide⟩
    · rw [if_pos depthOne]
      exact ⟨fun both => absurd both.2 depthOne, fun _ => ⟨_, rfl⟩⟩
  · rw [if_pos batchOne]
    exact ⟨fun both => absurd both.1 batchOne, fun _ => ⟨_, rfl⟩⟩

theorem formatText_accepted {is_nhwc : Bool} :
    ¬(formatText is_nhwc ≠ "NHWC" ∧ formatText is_nhwc ≠ "NCHW") := by
  cases is_nhwc with
  | false => decide
  | true => decide

theorem decide_formatText {is_nhwc : Bool} :
    decide (formatText is_nhwc = "NHWC") = is_nhwc := by
  cases is_nhwc with
  | false => rfl
  | true => rfl

/-- What `createNgConv` builds, unless the strides are refused. -/
theorem createNgConv_image {type_string : String} {is_nhwc : Bool}
    {padding : TfPadding}
    {batch_stride depth_stride batch_dilation depth_dilation : Int}
    {batch channels filters : Nat} {rows cols : ConvAxis}
    (rules : ConvolutionRules opset) (rowsRegular : rows.Regular)
    (colsRegular : cols.Regular)
    (dataShape : data.shape opset =
      some (image is_nhwc batch channels rows.dim cols.dim))
    (filterShape :
      filter.shape opset = some [rows.kernel, cols.kernel, channels, filters])
    (checked : checkConvStrides type_string is_nhwc
      (image is_nhwc batch_stride depth_stride
        (rows.stride : Int) cols.stride) = .ok ()) :
    createNgConv opset type_string (formatText is_nhwc)
        (image is_nhwc batch_stride depth_stride
          (rows.stride : Int) cols.stride)
        (image is_nhwc batch_dilation depth_dilation (rows.dilation : Int)
          cols.dilation) padding.text data filter =
      constructNgNode opset
        (.Convolution (toNCHW is_nhwc data) (.Transpose filter [3, 2, 0, 1])
        (builtConvolution padding rows cols)) := by
  have strides := @map_toUnsigned_image is_nhwc batch_stride depth_stride _ _
    rowsRegular.stride.2 colsRegular.stride.2
  have dilations :=
    @map_toUnsigned_image is_nhwc batch_dilation depth_dilation _ _
      rowsRegular.dilation.2 colsRegular.dilation.2
  have front := nhwcToNCHW_image dataShape
  have isKernel : entriesAt (filter.get_shape opset) [0, 1] =
      .ok [rows.kernel, cols.kernel] := by
    rw [Ng.get_shape_eq filterShape]
    rfl
  have transposed := transpose_ok filterShape isOrder_filter
  have pads := @makePadding_eq opset rows cols padding rules rowsRegular
    colsRegular
  rw [createNgConv, if_neg formatText_accepted]
  simp only [bind, Except.bind, decide_formatText, checked, strides, dilations,
    nhwcToHW_image, Ng.get_shape_eq dataShape, front, isKernel,
    transposed, pads]
  rfl

theorem Conv2DInputs.translate_strides
    (inputs : Conv2DInputs opset op ng_op_map data filter conv)
    (wide : ¬(conv.batch_stride = 1 ∧ conv.depth_stride = 1)) :
    ∃ error, translateConv2DOp opset op ng_op_map = .error (.status error) := by
  obtain ⟨nodes, found, rfl, rfl⟩ := inputs.inputs
  obtain ⟨batch, depth, dilations⟩ := inputs.dilationsAttr
  obtain ⟨error, refused⟩ :=
    (@checkConvStrides_image op.type_string conv.is_nhwc conv.batch_stride
    conv.depth_stride conv.rows.stride conv.cols.stride).2 wide
  refine ⟨error, ?_⟩
  rw [translateConv2DOp, inputs.stridesAttr, dilations, inputs.paddingAttr,
    inputs.formatAttr]
  simp only [bind, Except.bind, found, returnIfError, createNgConv,
    if_neg formatText_accepted, decide_formatText, refused]

/-- The translation of an op whose strides are not refused. -/
theorem Conv2DInputs.translate
    (inputs : Conv2DInputs opset op ng_op_map data filter conv)
    (rules : ConvolutionRules opset)
    (narrow : conv.batch_stride = 1 ∧ conv.depth_stride = 1) :
    translateConv2DOp opset op ng_op_map =
      ((constructNgNode opset (.Convolution (toNCHW conv.is_nhwc data)
        (.Transpose filter [3, 2, 0, 1])
        (builtConvolution conv.padding conv.rows conv.cols))).bind
          fun ng_conv => (nchwToNHWC opset conv.is_nhwc ng_conv).bind
            fun ng_conv => .ok (saveNgOp ng_op_map op.name ng_conv)) := by
  obtain ⟨nodes, found, rfl, rfl⟩ := inputs.inputs
  obtain ⟨batch, depth, dilations⟩ := inputs.dilationsAttr
  have checked :=
    (@checkConvStrides_image op.type_string conv.is_nhwc conv.batch_stride
    conv.depth_stride conv.rows.stride conv.cols.stride).1 narrow
  have built := @createNgConv_image opset (nodes 0) (nodes 1) op.type_string
    conv.is_nhwc
    conv.padding conv.batch_stride conv.depth_stride batch depth conv.batch
    conv.channels
    conv.filters conv.rows conv.cols rules inputs.rows inputs.cols
    inputs.dataShape inputs.filterShape checked
  rw [translateConv2DOp, inputs.stridesAttr, dilations, inputs.paddingAttr,
    inputs.formatAttr]
  simp only [bind, Except.bind, found, returnIfError, built, decide_formatText]

theorem Conv2DInputs.convolution_shape
    (inputs : Conv2DInputs opset op ng_op_map data filter conv) :
    (Ng.Convolution (toNCHW conv.is_nhwc data) (.Transpose filter [3, 2, 0, 1])
        (builtConvolution conv.padding conv.rows conv.cols)).shape opset =
      opset.convolution (builtConvolution conv.padding conv.rows conv.cols)
        [conv.batch, conv.channels, conv.rows.dim, conv.cols.dim]
        [conv.filters, conv.channels, conv.rows.kernel, conv.cols.kernel] := by
  rw [Ng.shape, toNCHW_shape inputs.dataShape, filter_shape inputs.filterShape]
  rfl

theorem Conv2DInputs.translate_rejected
    (inputs : Conv2DInputs opset op ng_op_map data filter conv)
    (rules : ConvolutionRules opset)
    (narrow : conv.batch_stride = 1 ∧ conv.depth_stride = 1)
    (rejected : opset.convolution
      (builtConvolution conv.padding conv.rows conv.cols)
      [conv.batch, conv.channels, conv.rows.dim, conv.cols.dim]
      [conv.filters, conv.channels, conv.rows.kernel, conv.cols.kernel] =
      none) :
    translateConv2DOp opset op ng_op_map = .error .exception := by
  rw [inputs.translate rules narrow, constructNgNode,
    inputs.convolution_shape, rejected]
  rfl

/-- The convolution without explicit padding. -/
def Conv2DCase.built (conv : Conv2DCase) : Conv2DCase :=
  { conv with padding := conv.padding.built }

theorem Conv2DCase.built_eq (plain : conv.padding ≠ .EXPLICIT) :
    conv.built = conv := by
  obtain ⟨is_nhwc, padding, batch_stride, depth_stride, batch, channels,
    filters, rows, cols⟩ := conv
  cases padding with
  | VALID => rfl
  | SAME => rfl
  | EXPLICIT => exact absurd rfl plain

theorem Conv2DInputs.accepted
    (inputs : Conv2DInputs opset op ng_op_map data filter conv)
    (rules : ConvolutionRules opset) {shape : Shape}
    (accepts : opset.convolution
      (builtConvolution conv.padding conv.rows conv.cols)
      [conv.batch, conv.channels, conv.rows.dim, conv.cols.dim]
      [conv.filters, conv.channels, conv.rows.kernel, conv.cols.kernel] =
      some shape) :
    (0 < conv.rows.kernel ∧ 0 < conv.cols.kernel) ∧
      ((conv.rows.sweep conv.padding.built).Fits conv.rows.dim
        conv.rows.kernel ∧
        (conv.cols.sweep conv.padding.built).Fits conv.cols.dim
          conv.cols.kernel) ∧
      shape = [conv.batch, conv.filters,
        conv.rows.outputSize conv.padding.built,
        conv.cols.outputSize conv.padding.built] := by
  obtain ⟨_, nonempty, fits, isShape⟩ := rules.convolution _ _ _ _ _ _ _ _ _ _
    builtConvolution_planar accepts
  rw [builtConvolution_sweep.1, builtConvolution_sweep.2] at fits isShape
  refine ⟨nonempty, fits, ?_⟩
  rw [isShape, ConvAxis.outputSize_eq inputs.rows nonempty.1,
    ConvAxis.outputSize_eq inputs.cols nonempty.2]

theorem Conv2DInputs.translate_accepted
    (inputs : Conv2DInputs opset op ng_op_map data filter conv)
    (rules : ConvolutionRules opset)
    (narrow : conv.batch_stride = 1 ∧ conv.depth_stride = 1) {shape : Shape}
    (accepts : opset.convolution
      (builtConvolution conv.padding conv.rows conv.cols)
      [conv.batch, conv.channels, conv.rows.dim, conv.cols.dim]
      [conv.filters, conv.channels, conv.rows.kernel, conv.cols.kernel] =
      some shape) :
    translateConv2DOp opset op ng_op_map =
        .ok (saveNgOp ng_op_map op.name (conv2DNode conv data filter)) ∧
      (conv2DNode conv data filter).shape opset =
        some conv.built.outputShape := by
  obtain ⟨_, _, rfl⟩ := inputs.accepted rules accepts
  have isShape := inputs.convolution_shape.trans accepts
  have back := @nchwToNHWC_image _ conv.is_nhwc _ _ _ _ _ isShape
  constructor
  · rw [inputs.translate rules narrow, constructNgNode_ok isShape]
    dsimp only [Except.bind]
    rw [back]
    rfl
  · exact toNHWC_shape isShape

/-- What is stored is a convolution between changes of the layout. -/
theorem Conv2DInputs.eval_convolution
    (inputs : Conv2DInputs opset op ng_op_map data filter conv)
    (rules : ConvolutionRules opset) {shape : Shape}
    (accepts : opset.convolution
      (builtConvolution conv.padding conv.rows conv.cols)
      [conv.batch, conv.channels, conv.rows.dim, conv.cols.dim]
      [conv.filters, conv.channels, conv.rows.kernel, conv.cols.kernel] =
      some shape)
    {V : Type} [Inhabited V] {library : Library V opset}
    {parameters : Nat → Tensor V} {value filterValue : Tensor V}
    (evaluates : data.eval library parameters = some value)
    (filterEvaluates : filter.eval library parameters = some filterValue) :
    ∃ result, library.convolution
      (builtConvolution conv.padding conv.rows conv.cols)
        (frontTensor conv.is_nhwc value) (filterValue.transpose [3, 2, 0, 1]) =
        some result ∧
      result.shape =
        [conv.batch, conv.filters, conv.rows.outputSize conv.padding.built,
        conv.cols.outputSize conv.padding.built] ∧
      (conv2DNode conv data filter).eval library parameters =
        some (backTensor conv.is_nhwc result) := by
  obtain ⟨_, _, rfl⟩ := inputs.accepted rules accepts
  have valueShape :=
    Option.some.inj ((eval_shape evaluates).symm.trans inputs.dataShape)
  have filterValueShape :=
    Option.some.inj ((eval_shape filterEvaluates).symm.trans inputs.filterShape)
  have made := library.convolution_shape
    (builtConvolution conv.padding conv.rows conv.cols)
    (frontTensor conv.is_nhwc value) (filterValue.transpose [3, 2, 0, 1])
  rw [shape_frontTensor valueShape, shape_filter filterValueShape,
    accepts] at made
  obtain ⟨result, convolved, resultShape⟩ := Option.map_eq_some_iff.mp made
  have convolutionEval : (Ng.Convolution (toNCHW conv.is_nhwc data)
      (.Transpose filter [3, 2, 0, 1])
      (builtConvolution conv.padding conv.rows conv.cols)).eval
        library parameters = some result := by
    rw [Ng.eval, toNCHW_eval evaluates valueShape,
      transpose_eval filterEvaluates (isOrder_kernel filterValueShape)]
    exact convolved
  exact ⟨result, convolved, resultShape,
    toNHWC_eval convolutionEval resultShape⟩

/-- What is stored is the convolution without explicit padding. -/
theorem Conv2DInputs.eval
    (inputs : Conv2DInputs opset op ng_op_map data filter conv)
    (rules : ConvolutionRules opset) {shape : Shape}
    (accepts : opset.convolution
      (builtConvolution conv.padding conv.rows conv.cols)
      [conv.batch, conv.channels, conv.rows.dim, conv.cols.dim]
      [conv.filters, conv.channels, conv.rows.kernel, conv.cols.kernel] =
      some shape)
    {R : Type} [CommSemiring R] [Inhabited R] {library : Library R opset}
    {parameters : Nat → Tensor R} {value filterValue : Tensor R}
    (correlates : Correlates library)
    (evaluates : data.eval library parameters = some value)
    (filterEvaluates : filter.eval library parameters = some filterValue) :
    ∃ result, (conv2DNode conv data filter).eval library parameters =
      some result ∧
      IsConv2D conv.built value filterValue result := by
  obtain ⟨nonempty, _, _⟩ := inputs.accepted rules accepts
  have valueShape :=
    Option.some.inj ((eval_shape evaluates).symm.trans inputs.dataShape)
  have filterValueShape :=
    Option.some.inj ((eval_shape filterEvaluates).symm.trans inputs.filterShape)
  obtain ⟨result, convolved, resultShape, stored⟩ :=
    inputs.eval_convolution rules accepts evaluates filterEvaluates
  have elements := correlates _ _ _ _ _ _ _ _ _ _ _ builtConvolution_planar
    (shape_frontTensor valueShape) (shape_filter filterValueShape) convolved
  rw [builtConvolution_sweep.1, builtConvolution_sweep.2,
    ← ConvAxis.outputSize_eq inputs.rows nonempty.1,
    ← ConvAxis.outputSize_eq inputs.cols nonempty.2] at elements
  refine ⟨_, stored, shape_backTensor resultShape, ?_⟩
  intro b inBatch k inFilters y inRows x inCols
  have element :=
    @get_backTensor conv.is_nhwc _ _ _ _ _ _ _ resultShape
      _ _ _ _ inBatch inFilters inRows inCols
  rw [elements b inBatch k inFilters y inRows x inCols] at element
  refine element.trans (Eq.trans ?_ (sum_correlate (Finset.range conv.channels)
    (fun c row col => value.get (image conv.is_nhwc b c row col))
    (fun c i j => filterValue.get [i, j, c, k]) y x))
  apply Finset.sum_congr rfl
  intro c inChannels
  have inChannels := Finset.mem_range.mp inChannels
  apply correlate_congr
  · exact fun row inRow col inCol =>
      get_frontTensor valueShape inBatch inChannels inRow inCol
  · exact fun i atRow j atCol =>
      get_filter filterValueShape inFilters inChannels atRow atCol

end Translate

/-- Explicit padding that does not show: there are as many positions without it,
and the kernel does not begin in it, unless there is nothing to sum up. -/
def Conv2DCase.PaddingUnseen (conv : Conv2DCase) : Prop :=
  (conv.rows.outputSize .EXPLICIT = conv.rows.outputSize .VALID ∧
    conv.cols.outputSize .EXPLICIT = conv.cols.outputSize .VALID) ∧
  (conv.rows.explicit_before = 0 ∧ conv.cols.explicit_before = 0 ∨
    conv.batch = 0 ∨ conv.channels = 0 ∨ conv.filters = 0)

/-- The strides are refused, or nGraph rejects the convolution. -/
def Conv2DCase.Refused (conv : Conv2DCase) (opset : Opset) : Prop :=
  ¬(conv.batch_stride = 1 ∧ conv.depth_stride = 1) ∨
    opset.convolution (builtConvolution conv.padding conv.rows conv.cols)
      [conv.batch, conv.channels, conv.rows.dim, conv.cols.dim]
      [conv.filters, conv.channels, conv.rows.kernel, conv.cols.kernel] = none

/-- The inputs are not bound to have some values only. -/
def TakesAllValues (opset : Opset) (data filter : Ng)
    (shape filterShape : Shape) : Prop :=
  ∀ (R : Type) [Inhabited R] (library : Library R opset)
    (value filterValue : Tensor R), value.shape = shape →
    filterValue.shape = filterShape →
      ∃ parameters, data.eval library parameters = some value ∧
        filter.eval library parameters = some filterValue

section Explicit

variable {conv : Conv2DCase}

theorem ConvAxis.sweep_explicit {axis : ConvAxis}
    (none : axis.explicit_before = 0) (place offset : Nat) :
    (axis.sweep .EXPLICIT).source place offset =
      (axis.sweep .VALID).source place offset := by
  simp [Sweep.source, ConvAxis.sweep, ConvAxis.amounts, none]

variable {R : Type} [CommSemiring R] [Inhabited R]
  {data filter result : Tensor R}

theorem IsConv2D.explicit (unseen : conv.PaddingUnseen)
    (explicit : conv.padding = .EXPLICIT)
    (convolution : IsConv2D conv.built data filter result) :
    IsConv2D conv data filter result := by
  obtain ⟨shape, element⟩ := convolution
  dsimp only [Conv2DCase.built, Conv2DCase.outputShape] at shape element
  obtain ⟨⟨rows, cols⟩, reason⟩ := unseen
  constructor
  · rw [shape, Conv2DCase.outputShape, explicit, rows, cols]
    rfl
  · rw [explicit] at element ⊢
    rw [rows, cols]
    intro b inBatch k inFilters y inRows x inCols
    refine (element b inBatch k inFilters y inRows x inCols).trans ?_
    apply Finset.sum_congr rfl
    intro i _
    apply Finset.sum_congr rfl
    intro j _
    apply Finset.sum_congr rfl
    intro c inChannels
    have inChannels := Finset.mem_range.mp inChannels
    have noPadding : conv.rows.explicit_before = 0 ∧
        conv.cols.explicit_before = 0 := by
      refine reason.resolve_right ?_
      omega
    rw [ConvAxis.sweep_explicit noPadding.1,
      ConvAxis.sweep_explicit noPadding.2]
    rfl

end Explicit

section Library

variable {R : Type} [CommSemiring R] [Inhabited R]

/-- The element of a convolution at an index. -/
def convolved (attrs : Convolution) (data filters : Tensor R) : List Nat → R
  | [b, k, y, x] => ∑ channel ∈ Finset.range (data.shape.getD 1 0),
      correlate (attrs.sweep 0) (attrs.sweep 1) (data.shape.getD 2 0)
        (data.shape.getD 3 0) (filters.shape.getD 2 0) (filters.shape.getD 3 0)
        (fun row col => data.get [b, channel, row, col])
        (fun i j => filters.get [k, channel, i, j]) y x
  | _ => 0

variable (R) in
/-- Convolutions of the shapes of the opset. -/
def convLibrary (opset : Opset) : Library R opset :=
  { defaultLibrary R opset with
    convolution := fun attrs data filters =>
      (opset.convolution attrs data.shape filters.shape).map
        (ofFn · (convolved attrs data filters))
    convolution_shape :=
      fun _ _ _ => Option.map_map _ _ _ |>.trans Option.map_id' }

theorem convLibrary_correlates {opset : Opset}
    (rules : ConvolutionRules opset) :
    Correlates (convLibrary R opset) := by
  intro attrs data filters result n c h w o kh kw planar dataShape
    filtersShape success
  obtain ⟨shape, accepts, rfl⟩ := Option.map_eq_some_iff.mp success
  rw [dataShape, filtersShape] at accepts
  obtain ⟨_, _, _, rfl⟩ := rules.convolution _ _ _ _ _ _ _ _ _ _ planar accepts
  intro b inBatch k inFilters y inRows x inCols
  rw [get_ofFn _ (valid_four.mpr ⟨inBatch, inFilters, inRows, inCols⟩),
    convolved, dataShape, filtersShape]
  rfl

end Library

section Seen

variable {opset : Opset} {op : OpNode} {ng_op_map : OpMap} {data filter : Ng}
  {conv : Conv2DCase}

/-- A filter that picks the first entry of the first channel. -/
def cornerFilter (conv : Conv2DCase) : Tensor Int :=
  ofFn conv.filterShape fun index => if index.take 3 = [0, 0, 0] then 1 else 0

def ones (conv : Conv2DCase) : Tensor Int := ofFn conv.imageShape fun _ => 1

/-- The sum with that filter over an image of ones. -/
theorem corner_sum (kernelRows : 0 < conv.rows.kernel)
    (kernelCols : 0 < conv.cols.kernel) (batch : 0 < conv.batch)
    (channels : 0 < conv.channels) (filters : 0 < conv.filters)
    (rows cols : Sweep) :
    (∑ i ∈ Finset.range conv.rows.kernel, ∑ j ∈ Finset.range conv.cols.kernel,
      ∑ c ∈ Finset.range conv.channels,
        sample conv.rows.dim conv.cols.dim
            (fun row col => (ones conv).get (image conv.is_nhwc 0 c row col))
            (rows.source 0 i) (cols.source 0 j) * (cornerFilter conv).get
            [i, j, c, 0]) =
      sample conv.rows.dim conv.cols.dim (fun _ _ => (1 : Int)) (-rows.below)
        (-cols.below) := by
  have kernelGet : ∀ i < conv.rows.kernel, ∀ j < conv.cols.kernel,
      ∀ c < conv.channels, (cornerFilter conv).get [i, j, c, 0] = if c = 0 then
        corner i j else 0 := by
    intro i atRow j atCol c inChannels
    have valid : Valid conv.filterShape [i, j, c, 0] :=
      valid_four.mpr ⟨atRow, atCol, inChannels, filters⟩
    rw [cornerFilter, get_ofFn _ valid]
    simp only [List.take_succ_cons, List.take_zero, List.cons.injEq,
      and_true, corner]
    split_ifs <;> first | rfl | omega
  have onesGet : ∀ c < conv.channels, ∀ y x,
      sample conv.rows.dim conv.cols.dim
          (fun row col => (ones conv).get (image conv.is_nhwc 0 c row col)) y
          x =
        sample conv.rows.dim conv.cols.dim (fun _ _ => (1 : Int)) y x := by
    intro c inChannels y x
    apply sample_congr
    intro row inRow col inCol
    exact get_ofFn _ (valid_image.mpr ⟨batch, inChannels, inRow, inCol⟩)
  calc _ = ∑ i ∈ Finset.range conv.rows.kernel,
    ∑ j ∈ Finset.range conv.cols.kernel,
        sample conv.rows.dim conv.cols.dim (fun _ _ => (1 : Int))
          (rows.source 0 i) (cols.source 0 j) * corner i j := by
        apply Finset.sum_congr rfl
        intro i atRow
        apply Finset.sum_congr rfl
        intro j atCol
        have atRow := Finset.mem_range.mp atRow
        have atCol := Finset.mem_range.mp atCol
        rw [Finset.sum_eq_single_of_mem 0 (Finset.mem_range.mpr channels)]
        · rw [onesGet 0 channels, kernelGet i atRow j atCol 0 channels,
            if_pos rfl]
        · intro c inChannels other
          rw [kernelGet i atRow j atCol c (Finset.mem_range.mp inChannels),
            if_neg other, mul_zero]
    _ = correlate rows cols conv.rows.dim conv.cols.dim conv.rows.kernel
          conv.cols.kernel (fun _ _ => (1 : Int)) corner 0 0 := rfl
    _ = _ := by
        rw [correlate_corner kernelRows kernelCols, Sweep.source_zero,
          Sweep.source_zero]

theorem ConvAxis.outputSize_pos {axis : ConvAxis} {padding : TfPadding}
    (regular : axis.Regular) (nonempty : 0 < axis.kernel)
    (fits : (axis.sweep padding).Fits axis.dim axis.kernel) :
    0 < axis.outputSize padding := by
  rw [ConvAxis.outputSize_eq regular nonempty]
  exact Sweep.places_pos fits

theorem ConvAxis.dim_pos {axis : ConvAxis} (nonempty : 0 < axis.kernel)
    (fits : (axis.sweep .VALID).Fits axis.dim axis.kernel) : 0 < axis.dim := by
  have spans := @Sweep.reach_pos (axis.sweep .VALID) _ nonempty
  have inside : (axis.sweep .VALID).reach axis.kernel ≤ (axis.dim : Int) +
      0 + 0 := fits
  omega

theorem sample_valid {rows cols : ConvAxis} (rowsDim : 0 < rows.dim)
    (colsDim : 0 < cols.dim) :
    sample rows.dim cols.dim (fun _ _ => (1 : Int)) (-(rows.sweep .VALID).below)
      (-(cols.sweep .VALID).below) = 1 := by
  have amounts : (rows.sweep .VALID).below = 0 ∧
      (cols.sweep .VALID).below = 0 := ⟨rfl, rfl⟩
  rw [sample, amounts.1, amounts.2, if_pos (by omega)]

theorem sample_explicit {rows cols : ConvAxis}
    (padded : ¬(rows.explicit_before = 0 ∧ cols.explicit_before = 0)) :
    sample rows.dim cols.dim (fun _ _ => (1 : Int))
      (-(rows.sweep .EXPLICIT).below) (-(cols.sweep .EXPLICIT).below) = 0 := by
  have amounts : (rows.sweep .EXPLICIT).below = rows.explicit_before ∧
      (cols.sweep .EXPLICIT).below = cols.explicit_before := ⟨rfl, rfl⟩
  rw [sample, amounts.1, amounts.2, if_neg (by omega)]

/-- Padding that is seen is seen at the first position. -/
theorem Conv2DInputs.unseen
    (inputs : Conv2DInputs opset op ng_op_map data filter conv)
    (rules : ConvolutionRules opset)
    (free : TakesAllValues opset data filter conv.imageShape conv.filterShape)
    (explicit : conv.padding = .EXPLICIT)
    (narrow : conv.batch_stride = 1 ∧ conv.depth_stride = 1) {shape : Shape}
    (accepts : opset.convolution
      (builtConvolution conv.padding conv.rows conv.cols)
      [conv.batch, conv.channels, conv.rows.dim, conv.cols.dim]
      [conv.filters, conv.channels, conv.rows.kernel, conv.cols.kernel] =
      some shape)
    (correct : ConvolvesCorrectly opset op ng_op_map data filter conv) :
    conv.PaddingUnseen := by
  obtain ⟨translated, nodeShape⟩ :=
    inputs.translate_accepted rules narrow accepts
  obtain ⟨nonempty, fits, _⟩ := inputs.accepted rules accepts
  cases correct with
  | inl failed =>
      obtain ⟨failure, _, failed⟩ := failed
      rw [translated] at failed
      exact absurd failed (by simp)
  | inr stored =>
      obtain ⟨node, success, isShape, convolves⟩ := stored
      obtain rfl := saveNgOp_injective
        (Except.ok.inj (translated.symm.trans success))
      have sameShape := Option.some.inj (isShape.symm.trans nodeShape)
      obtain ⟨_, _, rows, cols⟩ := image_injective sameShape
      rw [Conv2DCase.built, explicit] at rows cols
      refine ⟨⟨rows, cols⟩, ?_⟩
      by_contra seen
      obtain ⟨padded, nonzero⟩ := not_or.mp seen
      have batch : 0 < conv.batch := by omega
      have channels : 0 < conv.channels := by omega
      have filters : 0 < conv.filters := by omega
      obtain ⟨parameters, evaluates, filterEvaluates⟩ :=
        free Int (convLibrary Int opset) (ones conv) (cornerFilter conv) rfl rfl
      obtain ⟨result, made, plain⟩ := inputs.eval rules accepts
        (convLibrary_correlates rules) evaluates filterEvaluates
      obtain ⟨other, sameMade, wanted⟩ :=
        convolves Int (convLibrary Int opset) parameters _ _
        (convLibrary_correlates rules) evaluates filterEvaluates
      obtain rfl := Option.some.inj (made.symm.trans sameMade)
      rw [explicit] at fits
      have rowsPositive := ConvAxis.outputSize_pos inputs.rows nonempty.1 fits.1
      have colsPositive := ConvAxis.outputSize_pos inputs.cols nonempty.2 fits.2
      have first := plain.element 0 batch 0 filters 0
        (by rw [Conv2DCase.built, explicit]; exact rowsPositive) 0
        (by rw [Conv2DCase.built, explicit]; exact colsPositive)
      have second := wanted.element 0 batch 0 filters 0
        (by rw [explicit, rows]; exact rowsPositive) 0
        (by rw [explicit, cols]; exact colsPositive)
      rw [corner_sum nonempty.1 nonempty.2 batch channels filters] at second
      have first := first.trans
        (@corner_sum conv nonempty.1 nonempty.2 batch channels filters
        (conv.rows.sweep conv.padding.built)
        (conv.cols.sweep conv.padding.built))
      dsimp only [Conv2DCase.built] at first
      rw [first, explicit] at second
      rw [sample_explicit padded] at second
      have met := sample_valid (ConvAxis.dim_pos nonempty.1 fits.1)
        (ConvAxis.dim_pos nonempty.2 fits.2)
      exact absurd (met.symm.trans second) (by decide)

end Seen

/-- The translator is right without explicit padding, with padding that does not
show, and where it refuses; for inputs of all values it is not right
otherwise. -/
theorem translateConv2DOp_iff {opset : Opset} {op : OpNode} {ng_op_map : OpMap}
    {data filter : Ng} {conv : Conv2DCase}
    (inputs : Conv2DInputs opset op ng_op_map data filter conv)
    (rules : ConvolutionRules opset) :
    (conv.padding ≠ .EXPLICIT ∨ conv.PaddingUnseen ∨ conv.Refused opset →
      ConvolvesCorrectly opset op ng_op_map data filter conv) ∧
    (TakesAllValues opset data filter conv.imageShape conv.filterShape →
      ConvolvesCorrectly opset op ng_op_map data filter conv →
        conv.padding ≠ .EXPLICIT ∨ conv.PaddingUnseen ∨
        conv.Refused opset) := by
  by_cases refused : conv.Refused opset
  · refine ⟨fun _ => .inl ?_, fun _ _ => .inr (.inr refused)⟩
    by_cases narrow : conv.batch_stride = 1 ∧ conv.depth_stride = 1
    · have rejected := refused.resolve_left (not_not_intro narrow)
      exact ⟨.exception, nofun, inputs.translate_rejected rules narrow rejected⟩
    · obtain ⟨error, failed⟩ := inputs.translate_strides narrow
      exact ⟨.status error, nofun, failed⟩
  · obtain ⟨narrow, accepts⟩ := not_or.mp refused
    have narrow := not_not.mp narrow
    obtain ⟨shape, accepts⟩ := Option.ne_none_iff_exists'.mp accepts
    obtain ⟨translated, nodeShape⟩ :=
      inputs.translate_accepted rules narrow accepts
    by_cases explicit : conv.padding = .EXPLICIT
    · refine ⟨fun condition => .inr ⟨_, translated, ?_, ?_⟩, fun free correct =>
        .inr (.inl (inputs.unseen rules free explicit narrow accepts correct))⟩
      · obtain ⟨rows, cols⟩ :=
          ((condition.resolve_left (not_not_intro explicit)).resolve_right
              refused).1
        rw [nodeShape, Conv2DCase.outputShape, Conv2DCase.outputShape,
          Conv2DCase.built, explicit, rows, cols]
        rfl
      · intro R _ _ library parameters value filterValue correlates evaluates
          filterEvaluates
        have unseen :=
          (condition.resolve_left (not_not_intro explicit)).resolve_right
            refused
        obtain ⟨result, made, convolution⟩ :=
          inputs.eval rules accepts correlates evaluates filterEvaluates
        exact ⟨result, made, convolution.explicit unseen explicit⟩
    · refine ⟨fun _ => .inr ⟨_, translated, ?_, ?_⟩, fun _ _ => .inl explicit⟩
      · rw [nodeShape, Conv2DCase.built_eq explicit]
      · intro R _ _ library parameters value filterValue correlates evaluates
          filterEvaluates
        have convolution :=
          inputs.eval rules accepts correlates evaluates filterEvaluates
        rwa [Conv2DCase.built_eq explicit] at convolution

/-- The rules as nGraph documents them. -/
def correlationRules : Opset :=
  { noRules with
    convolution := fun attrs data filters =>
      match data, filters with
      | [n, c, h, w], [o, channels, kh, kw] =>
          if channels = c ∧ (0 < kh ∧ 0 < kw) ∧ (attrs.sweep 0).Fits h kh ∧
            (attrs.sweep 1).Fits w kw
          then some [n, o, (attrs.sweep 0).places h kh,
            (attrs.sweep 1).places w kw]
          else none
      | _, _ => none
    infer_auto_padding := fun image kernel strides dilations =>
      let amounts := [0, 1].map fun axis => ConvAxis.amounts
        ⟨image.getD (axis + 2) 0, kernel.getD axis 0, strides.getD axis 0,
          dilations.getD axis 0, 0, 0⟩ .SAME
      (amounts.map Prod.snd, amounts.map Prod.fst) }

theorem correlationRules_valid : ConvolutionRules correlationRules where
  convolution := by
    intro attrs n c h w o channels kh kw result _ accepts
    rw [correlationRules] at accepts
    dsimp only at accepts
    split at accepts
    next fits =>
      exact ⟨fits.1, fits.2.1, fits.2.2, (Option.some.inj accepts).symm⟩
    next => exact nomatch accepts
  infer_auto_padding := by
    intro rows cols _ _
    rfl

def pixelAxis : ConvAxis := ⟨1, 1, 1, 1, 1, 1⟩

theorem pixelAxis_regular : pixelAxis.Regular := ⟨by decide, by decide⟩

/-- One pixel and a kernel of one entry; a frame of one pixel around it if the
padding is explicit. -/
def pixelCase (padding : TfPadding) : Conv2DCase :=
  ⟨true, padding, 1, 1, 1, 1, 1, pixelAxis, pixelAxis⟩

def pixelOp (padding : TfPadding) : OpNode where
  name := "conv"
  type_string := "Conv2D"
  attrs :=
    [("strides", .listI [1, 1, 1, 1]), ("dilations", .listI [1, 1, 1, 1]),
    ("padding", .s padding.text),
    ("explicit_paddings", .listI [0, 0, 1, 1, 1, 1, 0, 0]),
    ("data_format", .s "NHWC")]
  listAttrs := []
  floatAttrs := []
  inputs :=
    [(⟨"image", "_Arg", [], none⟩, 0), (⟨"filter", "_Arg", [], none⟩, 0)]

def pixelOpMap : OpMap :=
  [("image", [.Parameter 0 [1, 1, 1, 1]]),
    ("filter", [.Parameter 1 [1, 1, 1, 1]])]

theorem pixelOp_inputs (opset : Opset) (padding : TfPadding) :
    Conv2DInputs opset (pixelOp padding) pixelOpMap (.Parameter 0 [1, 1, 1, 1])
      (.Parameter 1 [1, 1, 1, 1]) (pixelCase padding) where
  inputs := ⟨_, getInputNodes_two rfl rfl rfl, rfl, rfl⟩
  stridesAttr := rfl
  dilationsAttr := ⟨1, 1, rfl⟩
  paddingAttr := rfl
  explicitAttr := fun _ => rfl
  formatAttr := rfl
  dataShape := rfl
  filterShape := rfl
  rows := pixelAxis_regular
  cols := pixelAxis_regular

/-- The frame is not there. -/
theorem translateConv2DOp_frame :
    ConvolutionRules correlationRules ∧
      Conv2DInputs correlationRules (pixelOp .EXPLICIT) pixelOpMap
        (.Parameter 0 [1, 1, 1, 1]) (.Parameter 1 [1, 1, 1, 1])
        (pixelCase .EXPLICIT) ∧
      ¬ ConvolvesCorrectly correlationRules (pixelOp .EXPLICIT) pixelOpMap
        (.Parameter 0 [1, 1, 1, 1]) (.Parameter 1 [1, 1, 1, 1])
        (pixelCase .EXPLICIT) := by
  have inputs := pixelOp_inputs correlationRules .EXPLICIT
  refine ⟨correlationRules_valid, inputs, fun correct => ?_⟩
  obtain ⟨translated, nodeShape⟩ :=
    @Conv2DInputs.translate_accepted _ _ _ _ _ _ inputs correlationRules_valid
      ⟨rfl, rfl⟩ [1, 1, 1, 1] (by decide)
  cases correct with
  | inl failed =>
      obtain ⟨failure, _, failed⟩ := failed
      exact nomatch translated.symm.trans failed
  | inr stored =>
      obtain ⟨node, success, shape, _⟩ := stored
      obtain rfl := saveNgOp_injective
        (Except.ok.inj (translated.symm.trans success))
      exact absurd (nodeShape.symm.trans shape) (by decide)

def stridedRows : ConvAxis := ⟨5, 3, 2, 1, 0, 0⟩

def stridedCols : ConvAxis := ⟨6, 3, 2, 1, 0, 0⟩

/-- Two images of three channels and a kernel of nine entries for each of four
filters. -/
def stridedCase : Conv2DCase :=
  ⟨true, .SAME, 1, 1, 2, 3, 4, stridedRows, stridedCols⟩

def stridedOp : OpNode where
  name := "conv"
  type_string := "Conv2D"
  attrs :=
    [("strides", .listI [1, 2, 2, 1]), ("dilations", .listI [1, 1, 1, 1]),
    ("padding", .s "SAME"), ("explicit_paddings", .listI []),
    ("data_format", .s "NHWC")]
  listAttrs := []
  floatAttrs := []
  inputs :=
    [(⟨"image", "_Arg", [], none⟩, 0), (⟨"filter", "_Arg", [], none⟩, 0)]

def stridedOpMap : OpMap :=
  [("image", [.Parameter 0 [2, 5, 6, 3]]),
    ("filter", [.Parameter 1 [3, 3, 3, 4]])]

theorem stridedOp_inputs (opset : Opset) :
    Conv2DInputs opset stridedOp stridedOpMap (.Parameter 0 [2, 5, 6, 3])
      (.Parameter 1 [3, 3, 3, 4]) stridedCase where
  inputs := ⟨_, getInputNodes_two rfl rfl rfl, rfl, rfl⟩
  stridesAttr := rfl
  dilationsAttr := ⟨1, 1, rfl⟩
  paddingAttr := rfl
  explicitAttr := fun explicit => absurd explicit (by decide)
  formatAttr := rfl
  dataShape := rfl
  filterShape := rfl
  rows := ⟨by decide, by decide⟩
  cols := ⟨by decide, by decide⟩

/-- What is stored has the values of TensorFlow, for all images and filters. -/
theorem translateConv2DOp_iff_strided :
    ∃ node, translateConv2DOp correlationRules stridedOp stridedOpMap =
        .ok (saveNgOp stridedOpMap "conv" node) ∧
      node.shape correlationRules = some [2, 3, 3, 4] ∧
      ∀ value filterValue : Tensor Int, value.shape = [2, 5, 6, 3] →
        filterValue.shape = [3, 3, 3, 4] → ∃ result,
          node.eval (convLibrary Int correlationRules)
            (fun i => [value, filterValue].getD i value) = some result ∧
          IsConv2D stridedCase value filterValue result := by
  have inputs := stridedOp_inputs correlationRules
  obtain ⟨translated, _⟩ := @Conv2DInputs.translate_accepted _ _ _ _ _ _ inputs
    correlationRules_valid ⟨rfl, rfl⟩ [2, 4, 3, 3] (by decide)
  have correct :=
    (translateConv2DOp_iff inputs correlationRules_valid).1 (.inl (by decide))
  cases correct with
  | inl failed =>
      obtain ⟨failure, _, failed⟩ := failed
      exact absurd (translated.symm.trans failed) (by simp)
  | inr stored =>
      obtain ⟨node, success, isShape, convolves⟩ := stored
      refine ⟨node, success, isShape,
        fun value filterValue shape filterShape => ?_⟩
      exact convolves Int (convLibrary Int correlationRules) _ value filterValue
        (convLibrary_correlates correlationRules_valid) (if_pos shape)
        (if_pos filterShape)

end NGraphBridge.NGraphBuilder
