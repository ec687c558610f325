import NGraphBridge.Lib.RowMajor
import NGraphBridge.NGraphBuilder.Conv2DValue

/-!
# Translating `DepthwiseConv2dNative`

Every channel has filters of its own. The filter is reshaped and transposed so
that the channels become the groups of a grouped convolution.
-/

namespace NGraphBridge.NGraphBuilder

open NGraph (Shape)
open TF Tensor Axes Correlation

def translateDepthwiseConv2dNativeOp (opset : Opset) (op : OpNode)
    (ng_op_map : OpMap) : Translates OpMap := do
  let inputs ← getInputNodes ng_op_map op 2
  let tf_strides ← returnIfError (getNodeAttrInts op.attrs "strides")
  let tf_dilations ← returnIfError (getNodeAttrInts op.attrs "dilations")
  let tf_padding_type ← returnIfError (getNodeAttrString op.attrs "padding")
  let tf_data_format ← returnIfError (getNodeAttrString op.attrs "data_format")
  if tf_data_format ≠ "NHWC" ∧ tf_data_format ≠ "NCHW" then
    .error (.status (errors.invalidArgument
      "DepthwiseConv2D data format is neither NHWC nor NCHW"))
  else do
    let is_nhwc : Bool := tf_data_format = "NHWC"
    let ng_image_shape ← nhwcToHW is_nhwc 2 ((inputs 0).get_shape opset)
    let ng_strides ← nhwcToHW is_nhwc 2 (tf_strides.map toUnsigned)
    let ng_dilations ← nhwcToHW is_nhwc 2 (tf_dilations.map toUnsigned)
    let ng_input ← nhwcToNCHW opset is_nhwc (inputs 0)
    let ng_filter_shape := (inputs 1).get_shape opset
    let ng_kernel_shape ← entriesAt ng_filter_shape [0, 1]
    let padding :=
      makePadding opset tf_padding_type ng_image_shape ng_kernel_shape
        ng_strides ng_dilations
    -- H W I M -> H W I 1 M
    let front ← entriesAt ng_filter_shape [0, 1, 2]
    let back ← entriesAt ng_filter_shape [3]
    let reshaped_filter ← constructNgNode opset
        (.Reshape (inputs 1) (front ++ 1 :: back))
    -- H W I 1 M -> I M 1 H W
    let transposed_filter ← constructNgNode opset
        (.Transpose reshaped_filter [2, 4, 3, 0, 1])
    let ng_conv ← constructNgNode opset
        (.GroupConvolution ng_input transposed_filter
      { strides := ng_strides
        pads_begin := padding.1
        pads_end := padding.2
        dilations := ng_dilations })
    let ng_conv ← nchwToNHWC opset is_nhwc ng_conv
    .ok (saveNgOp ng_op_map op.name ng_conv)

/-- What nGraph documents for the shape of a grouped convolution: the output
channels of the groups follow each other. -/
def GroupConvolutionRules (opset : Opset) : Prop :=
  ∀ (attrs : Convolution) (n c h w groups m k kh kw : Nat) (result : Shape),
    attrs.Planar →
    opset.group_convolution attrs [n, c, h, w] [groups, m, k, kh, kw] =
      some result →
      c = groups * k ∧ (0 < kh ∧ 0 < kw) ∧
        ((attrs.sweep 0).Fits h kh ∧ (attrs.sweep 1).Fits w kw) ∧
        result = [n, groups * m, (attrs.sweep 0).places h kh,
          (attrs.sweep 1).places w kw]

/-- What nGraph documents for the elements: a group correlates its own
channels. -/
def GroupCorrelates {R : Type} [CommSemiring R] [Inhabited R] {opset : Opset}
    (library : Library R opset) : Prop :=
  ∀ (attrs : Convolution) (data filters result : Tensor R)
    (n h w groups m k kh kw : Nat), attrs.Planar →
    data.shape = [n, groups * k, h, w] →
    filters.shape = [groups, m, k, kh, kw] →
    library.group_convolution attrs data filters = some result →
    ∀ b < n, ∀ g < groups, ∀ f < m, ∀ y < (attrs.sweep 0).places h kh,
      ∀ x < (attrs.sweep 1).places w kw,
        result.get [b, g * m + f, y, x] = ∑ channel ∈ Finset.range k,
          correlate (attrs.sweep 0) (attrs.sweep 1) h w kh kw
            (fun row col => data.get [b, g * k + channel, row, col])
            (fun i j => filters.get [g, f, channel, i, j]) y x

theorem groupChannel_lt {groups m g f : Nat} (inGroups : g < groups)
    (inFilters : f < m) :
    g * m + f < groups * m := by
  calc g * m + f < (g + 1) * m := by
        rw [Nat.succ_mul]
        omega
    _ ≤ groups * m := Nat.mul_le_mul_right _ inGroups

namespace Conv2DCase

/-- The shape of a depthwise convolution in TensorFlow; there are as many
filters for a channel as its multiplier says. -/
def depthwiseShape (conv : Conv2DCase) : Shape :=
  image conv.is_nhwc conv.batch (conv.channels * conv.filters)
    (conv.rows.outputSize conv.padding) (conv.cols.outputSize conv.padding)

end Conv2DCase

/-- TensorFlow's `DepthwiseConv2dNative`: a channel is convolved with each of
its filters. -/
structure IsDepthwiseConv2D {R : Type} [CommSemiring R] [Inhabited R]
    (conv : Conv2DCase) (data filter result : Tensor R) : Prop where
  shape : result.shape = conv.depthwiseShape
  element : ∀ b < conv.batch, ∀ c < conv.channels, ∀ m < conv.filters,
    ∀ y < conv.rows.outputSize conv.padding,
    ∀ x < conv.cols.outputSize conv.padding,
      result.get (image conv.is_nhwc b (c * conv.filters + m) y x) =
        correlate (conv.rows.sweep conv.padding) (conv.cols.sweep conv.padding)
          conv.rows.dim conv.cols.dim conv.rows.kernel conv.cols.kernel
          (fun row col => data.get (image conv.is_nhwc b c row col))
          (fun i j => filter.get [i, j, c, m]) y x

/-- The filter of every group. -/
def groupFilter (filter : Ng) (kh kw c m : Nat) : Ng :=
  .Transpose (.Reshape filter [kh, kw, c, 1, m]) [2, 4, 3, 0, 1]

section Filter

variable {kh kw c m : Nat}

theorem isOrder_group : IsOrder [2, 4, 3, 0, 1] 5 := by decide

theorem reshape_shape {opset : Opset} {filter : Ng}
    (isShape : filter.shape opset = some [kh, kw, c, m]) :
    (Ng.Reshape filter [kh, kw, c, 1, m]).shape opset = some
      [kh, kw, c, 1, m] := by
  have full : [kh, kw, c, m].prod = [kh, kw, c, 1, m].prod := by simp
  rw [Ng.shape, isShape]
  exact if_pos full

theorem groupFilter_shape {opset : Opset} {filter : Ng}
    (isShape : filter.shape opset = some [kh, kw, c, m]) :
    (groupFilter filter kh kw c m).shape opset = some [c, m, 1, kh, kw] :=
  transpose_shape (reshape_shape isShape) isOrder_group

/-- The filters of a group are those of the channel. -/
theorem groupFilter_eval {V : Type} [Inhabited V] {opset : Opset}
    {library : Library V opset} {parameters : Nat → Tensor V} {filter : Ng}
    {value : Tensor V} (evaluates : filter.eval library parameters = some value)
    (isShape : value.shape = [kh, kw, c, m]) :
    ∃ grouped, (groupFilter filter kh kw c m).eval library parameters =
      some grouped ∧
      grouped.shape = [c, m, 1, kh, kw] ∧
      ∀ g < c, ∀ k < m, ∀ i < kh, ∀ j < kw,
        grouped.get [g, k, 0, i, j] = value.get [i, j, g, k] := by
  obtain ⟨reshaped, succeeds, reshapedShape, elements⟩ :=
    @reshape_insert_one _ _ value [kh, kw, c] [m] isShape
  have isOrder : IsOrder [2, 4, 3, 0, 1] reshaped.rank := by
    rw [rank, reshapedShape]
    exact isOrder_group
  have reshapeEval :
      (Ng.Reshape filter [kh, kw, c, 1, m]).eval library parameters =
      some reshaped := by
    rw [Ng.eval, evaluates]
    exact succeeds
  refine ⟨_, transpose_eval reshapeEval isOrder, ?_, ?_⟩
  · rw [shape_transpose, reshapedShape]
    rfl
  · intro g inChannels k inFilters i inRows j inCols
    have valid : Valid (permute [2, 4, 3, 0, 1] reshaped.shape)
        [g, k, 0, i, j] := by
      rw [reshapedShape]
      exact .cons inChannels (.cons inFilters (.cons Nat.one_pos
        (.cons inRows (.cons inCols .nil))))
    rw [get_transpose valid]
    exact elements [i, j, g] [k] rfl

end Filter

/-- The grouped convolution that is asked for. -/
def groupConvolution (conv : Conv2DCase) (data filter : Ng) : Ng :=
  .GroupConvolution (toNCHW conv.is_nhwc data)
    (groupFilter filter conv.rows.kernel conv.cols.kernel conv.channels
      conv.filters)
    (builtConvolution conv.padding conv.rows conv.cols)

section Translate

variable {opset : Opset} {op : OpNode} {ng_op_map : OpMap} {data filter : Ng}
  {conv : Conv2DCase}

/-- `MakePadding` finds the pads that are built. -/
def Conv2DCase.PadsFound (conv : Conv2DCase) (opset : Opset) : Prop :=
  makePadding opset conv.padding.text [conv.rows.dim, conv.cols.dim]
    [conv.rows.kernel, conv.cols.kernel] [conv.rows.stride, conv.cols.stride]
    [conv.rows.dilation, conv.cols.dilation] =
    builtPads conv.padding conv.rows conv.cols

theorem Conv2DCase.padsFound_valid (valid : conv.padding = .VALID) :
    conv.PadsFound opset := by
  rw [PadsFound, valid]
  exact (if_neg (by decide)).trans (if_pos rfl)

theorem Conv2DInputs.translateDepthwise
    (inputs : Conv2DInputs opset op ng_op_map data filter conv)
    (pads : conv.PadsFound opset) :
    translateDepthwiseConv2dNativeOp opset op ng_op_map =
      ((constructNgNode opset (groupConvolution conv data filter)).bind
        fun ng_conv => (nchwToNHWC opset conv.is_nhwc ng_conv).bind
          fun ng_conv => .ok (saveNgOp ng_op_map op.name ng_conv)) := by
  obtain ⟨nodes, found, rfl, rfl⟩ := inputs.inputs
  obtain ⟨batch, depth, dilations⟩ := inputs.dilationsAttr
  have strides :=
    @map_toUnsigned_image conv.is_nhwc conv.batch_stride conv.depth_stride _ _
      inputs.rows.stride.2 inputs.cols.stride.2
  have dilationsKept := @map_toUnsigned_image conv.is_nhwc batch depth _ _
    inputs.rows.dilation.2 inputs.cols.dilation.2
  have imageSizes : nhwcToHW conv.is_nhwc 2 conv.imageShape =
      .ok [conv.rows.dim, conv.cols.dim] :=
    nhwcToHW_image conv.batch conv.channels conv.rows.dim conv.cols.dim
  have front := nhwcToNCHW_image inputs.dataShape
  have isKernel :
      entriesAt conv.filterShape [0, 1] =
        .ok [conv.rows.kernel, conv.cols.kernel] :=
    rfl
  have before : entriesAt conv.filterShape [0, 1, 2] =
      .ok [conv.rows.kernel, conv.cols.kernel, conv.channels] := rfl
  have behind : entriesAt conv.filterShape [3] = .ok [conv.filters] := rfl
  have reshaped := reshape_shape inputs.filterShape
  have built := constructNgNode_ok reshaped
  have transposed := transpose_ok reshaped isOrder_group
  have found_pads := pads
  rw [Conv2DCase.PadsFound] at found_pads
  rw [translateDepthwiseConv2dNativeOp, inputs.stridesAttr, dilations,
    inputs.paddingAttr, inputs.formatAttr]
  simp only [bind, Except.bind, found, returnIfError,
    if_neg formatText_accepted, decide_formatText,
    Ng.get_shape_eq inputs.dataShape, Ng.get_shape_eq inputs.filterShape,
    imageSizes, strides, dilationsKept, nhwcToHW_image, front, isKernel, before,
    behind, List.cons_append, List.nil_append, built, transposed, found_pads]
  rfl

theorem Conv2DInputs.groupConvolution_shape
    (inputs : Conv2DInputs opset op ng_op_map data filter conv) :
    (groupConvolution conv data filter).shape opset =
      opset.group_convolution
        (builtConvolution conv.padding conv.rows conv.cols)
        [conv.batch, conv.channels, conv.rows.dim, conv.cols.dim]
        [conv.channels, conv.filters, 1, conv.rows.kernel,
          conv.cols.kernel] := by
  rw [groupConvolution, Ng.shape, toNCHW_shape inputs.dataShape,
    groupFilter_shape inputs.filterShape]
  rfl

theorem Conv2DInputs.translateDepthwise_rejected
    (inputs : Conv2DInputs opset op ng_op_map data filter conv)
    (pads : conv.PadsFound opset)
    (rejected : opset.group_convolution
      (builtConvolution conv.padding conv.rows conv.cols)
      [conv.batch, conv.channels, conv.rows.dim, conv.cols.dim]
      [conv.channels, conv.filters, 1, conv.rows.kernel, conv.cols.kernel] =
      none) :
    translateDepthwiseConv2dNativeOp opset op ng_op_map =
      .error .exception := by
  rw [inputs.translateDepthwise pads, constructNgNode,
    inputs.groupConvolution_shape, rejected]
  rfl

theorem Conv2DInputs.groupAccepted
    (inputs : Conv2DInputs opset op ng_op_map data filter conv)
    (rules : GroupConvolutionRules opset) {shape : Shape}
    (accepts : opset.group_convolution
      (builtConvolution conv.padding conv.rows conv.cols)
      [conv.batch, conv.channels, conv.rows.dim, conv.cols.dim]
      [conv.channels, conv.filters, 1, conv.rows.kernel, conv.cols.kernel] =
      some shape) :
    (0 < conv.rows.kernel ∧ 0 < conv.cols.kernel) ∧
      shape = [conv.batch, conv.channels * conv.filters,
        conv.rows.outputSize conv.padding.built,
        conv.cols.outputSize conv.padding.built] := by
  obtain ⟨_, nonempty, _, isShape⟩ :=
    rules _ _ _ _ _ _ _ _ _ _ _ builtConvolution_planar accepts
  rw [builtConvolution_sweep.1, builtConvolution_sweep.2] at isShape
  refine ⟨nonempty, ?_⟩
  rw [isShape, ConvAxis.outputSize_eq inputs.rows nonempty.1,
    ConvAxis.outputSize_eq inputs.cols nonempty.2]

theorem Conv2DInputs.translateDepthwise_accepted
    (inputs : Conv2DInputs opset op ng_op_map data filter conv)
    (pads : conv.PadsFound opset) {n o h w : Nat}
    (isShape : (groupConvolution conv data filter).shape opset =
      some [n, o, h, w]) :
    translateDepthwiseConv2dNativeOp opset op ng_op_map =
        .ok (saveNgOp ng_op_map op.name
          (toNHWC conv.is_nhwc (groupConvolution conv data filter))) ∧
      (toNHWC conv.is_nhwc (groupConvolution conv data filter)).shape opset =
        some (image conv.is_nhwc n o h w) := by
  have back := @nchwToNHWC_image _ conv.is_nhwc _ _ _ _ _ isShape
  constructor
  · rw [inputs.translateDepthwise pads, constructNgNode_ok isShape]
    dsimp only [Except.bind]
    rw [back]
  · exact toNHWC_shape isShape

/-- The elements of what is stored. -/
theorem Conv2DInputs.evalDepthwise
    (inputs : Conv2DInputs opset op ng_op_map data filter conv)
    (rules : GroupConvolutionRules opset) {shape : Shape}
    (accepts : opset.group_convolution
      (builtConvolution conv.padding conv.rows conv.cols)
      [conv.batch, conv.channels, conv.rows.dim, conv.cols.dim]
      [conv.channels, conv.filters, 1, conv.rows.kernel, conv.cols.kernel] =
      some shape)
    {R : Type} [CommSemiring R] [Inhabited R] {library : Library R opset}
    {parameters : Nat → Tensor R} {value filterValue : Tensor R}
    (correlates : GroupCorrelates library)
    (evaluates : data.eval library parameters = some value)
    (filterEvaluates : filter.eval library parameters = some filterValue) :
    ∃ result, (toNHWC conv.is_nhwc (groupConvolution conv data filter)).eval
      library parameters =
        some result ∧ IsDepthwiseConv2D conv.built value filterValue
          result := by
  obtain ⟨nonempty, rfl⟩ := inputs.groupAccepted rules accepts
  have valueShape :=
    Option.some.inj ((eval_shape evaluates).symm.trans inputs.dataShape)
  have filterValueShape :=
    Option.some.inj ((eval_shape filterEvaluates).symm.trans inputs.filterShape)
  obtain ⟨grouped, groupedEval, groupedShape, groupedGet⟩ :=
    groupFilter_eval filterEvaluates filterValueShape
  have made := library.group_convolution_shape
    (builtConvolution conv.padding conv.rows conv.cols)
    (frontTensor conv.is_nhwc value) grouped
  rw [shape_frontTensor valueShape, groupedShape, accepts] at made
  obtain ⟨result, convolved, resultShape⟩ := Option.map_eq_some_iff.mp made
  have convolutionEval :
      (groupConvolution conv data filter).eval library parameters =
      some result := by
    rw [groupConvolution, Ng.eval, toNCHW_eval evaluates valueShape,
      groupedEval]
    exact convolved
  have frontShape : (frontTensor conv.is_nhwc value).shape =
      [conv.batch, conv.channels * 1, conv.rows.dim, conv.cols.dim] := by
    rw [Nat.mul_one]
    exact shape_frontTensor valueShape
  have elements :=
    correlates _ _ _ _ _ _ _ _ _ _ _ _ builtConvolution_planar frontShape
      groupedShape convolved
  rw [builtConvolution_sweep.1, builtConvolution_sweep.2,
    ← ConvAxis.outputSize_eq inputs.rows nonempty.1,
    ← ConvAxis.outputSize_eq inputs.cols nonempty.2] at elements
  refine ⟨_, toNHWC_eval convolutionEval resultShape,
    shape_backTensor resultShape, ?_⟩
  intro b inBatch c inChannels m inFilters y inRows x inCols
  have below := groupChannel_lt inChannels inFilters
  have element := elements b inBatch c inChannels m inFilters y inRows x inCols
  rw [Finset.sum_range_one, Nat.mul_one, Nat.add_zero] at element
  refine (get_backTensor resultShape inBatch below inRows inCols).trans
    (element.trans ?_)
  apply correlate_congr
  · intro row inRow col inCol
    exact get_frontTensor valueShape inBatch inChannels inRow inCol
  · intro i atRow j atCol
    exact groupedGet c inChannels m inFilters i atRow j atCol

end Translate

/-- The translation is refused by nGraph, or what is stored is TensorFlow's
result. -/
theorem translateDepthwiseConv2dNativeOp_valid {opset : Opset} {op : OpNode}
    {ng_op_map : OpMap} {data filter : Ng} {conv : Conv2DCase}
    (inputs : Conv2DInputs opset op ng_op_map data filter conv)
    (rules : GroupConvolutionRules opset) (valid : conv.padding = .VALID) :
    (opset.group_convolution (builtConvolution conv.padding conv.rows conv.cols)
        [conv.batch, conv.channels, conv.rows.dim, conv.cols.dim]
        [conv.channels, conv.filters, 1, conv.rows.kernel, conv.cols.kernel] =
        none ∧
      translateDepthwiseConv2dNativeOp opset op ng_op_map = .error .exception) ∨
    ∃ node, translateDepthwiseConv2dNativeOp opset op ng_op_map =
        .ok (saveNgOp ng_op_map op.name node) ∧
      node.shape opset = some conv.depthwiseShape ∧
      ∀ (R : Type) [CommRing R] [Inhabited R] (library : Library R opset)
        (parameters : Nat → Tensor R) value filterValue,
        GroupCorrelates library →
        data.eval library parameters = some value →
        filter.eval library parameters = some filterValue →
          ∃ result, node.eval library parameters = some result ∧
            IsDepthwiseConv2D conv value filterValue result := by
  have pads : conv.PadsFound opset := Conv2DCase.padsFound_valid valid
  have sameCase : conv.built = conv :=
    Conv2DCase.built_eq (by rw [valid]; decide)
  cases accepts :
    opset.group_convolution (builtConvolution conv.padding conv.rows conv.cols)
      [conv.batch, conv.channels, conv.rows.dim, conv.cols.dim]
      [conv.channels, conv.filters, 1, conv.rows.kernel, conv.cols.kernel] with
  | none => exact .inl ⟨rfl, inputs.translateDepthwise_rejected pads accepts⟩
  | some shape =>
      obtain ⟨_, rfl⟩ := inputs.groupAccepted rules accepts
      have isShape := inputs.groupConvolution_shape.trans accepts
      obtain ⟨translated, nodeShape⟩ :=
        inputs.translateDepthwise_accepted pads isShape
      refine .inr ⟨_, translated, ?_, ?_⟩
      · rw [nodeShape, Conv2DCase.depthwiseShape, valid]
        rfl
      · intro R _ _ library parameters value filterValue correlates evaluates
          filterEvaluates
        have stored :=
          inputs.evalDepthwise rules accepts correlates evaluates
            filterEvaluates
        rwa [sameCase] at stored

/-- The rules as nGraph documents them. -/
def groupOpset : Opset :=
  { noRules with
    group_convolution := fun attrs data filters =>
      match data, filters with
      | [n, c, h, w], [groups, m, k, kh, kw] =>
          if c = groups * k ∧ (0 < kh ∧ 0 < kw) ∧ (attrs.sweep 0).Fits h kh ∧
            (attrs.sweep 1).Fits w kw
          then some [n, groups * m, (attrs.sweep 0).places h kh,
            (attrs.sweep 1).places w kw]
          else none
      | _, _ => none }

theorem groupOpset_rules : GroupConvolutionRules groupOpset := by
  intro attrs n c h w groups m k kh kw result _ accepts
  rw [groupOpset] at accepts
  dsimp only at accepts
  split at accepts
  next fits =>
    exact ⟨fits.1, fits.2.1, fits.2.2, (Option.some.inj accepts).symm⟩
  next => exact absurd accepts (by simp)

section Library

variable {R : Type} [CommSemiring R] [Inhabited R]

/-- The element of a grouped convolution at an index. -/
def groupConvolved (attrs : Convolution) (data filters : Tensor R) :
    List Nat → R
  | [b, o, y, x] => ∑ channel ∈ Finset.range (filters.shape.getD 2 0),
      correlate (attrs.sweep 0) (attrs.sweep 1) (data.shape.getD 2 0)
        (data.shape.getD 3 0) (filters.shape.getD 3 0) (filters.shape.getD 4 0)
        (fun row col =>
          data.get [b, o / filters.shape.getD 1 0 *
            filters.shape.getD 2 0 + channel,
            row, col])
        (fun i j => filters.get
          [o / filters.shape.getD 1 0, o % filters.shape.getD 1 0, channel,
            i, j]) y x
  | _ => 0

variable (R) in
def groupLibrary : Library R groupOpset :=
  { defaultLibrary R groupOpset with
    group_convolution := fun attrs data filters =>
      (groupOpset.group_convolution attrs data.shape filters.shape).map
        (ofFn · (groupConvolved attrs data filters))
    group_convolution_shape :=
      fun _ _ _ => Option.map_map _ _ _ |>.trans Option.map_id' }

theorem groupLibrary_correlates : GroupCorrelates (groupLibrary R) := by
  intro attrs data filters result n h w groups m k kh kw planar dataShape
    filtersShape success
  obtain ⟨shape, accepts, rfl⟩ := Option.map_eq_some_iff.mp success
  rw [dataShape, filtersShape] at accepts
  obtain ⟨_, _, _, rfl⟩ := groupOpset_rules _ _ _ _ _ _ _ _ _ _ _ planar accepts
  intro b inBatch g inGroups f inFilters y inRows x inCols
  have below := groupChannel_lt inGroups inFilters
  have group : (g * m + f) / m = g := by
    rw [Nat.mul_comm, Nat.mul_add_div (by omega), Nat.div_eq_of_lt inFilters,
      Nat.add_zero]
  have place : (g * m + f) % m = f := by
    rw [Nat.mul_comm, Nat.mul_add_mod, Nat.mod_eq_of_lt inFilters]
  rw [get_ofFn _ (valid_four.mpr ⟨inBatch, below, inRows, inCols⟩),
    groupConvolved, dataShape, filtersShape]
  simp only [List.getD_cons_succ, List.getD_cons_zero, group, place]

end Library

def channelsCase : Conv2DCase :=
  ⟨true, .VALID, 1, 1, 1, 2, 2, pixelAxis, pixelAxis⟩

def channelsOp : OpNode :=
  { pixelOp .VALID with
    name := "depthwise"
    type_string := "DepthwiseConv2dNative" }

def channelsOpMap : OpMap :=
  [("image", [.Parameter 0 [1, 1, 1, 2]]),
    ("filter", [.Parameter 1 [1, 1, 2, 2]])]

theorem channelsOp_inputs (opset : Opset) :
    Conv2DInputs opset channelsOp channelsOpMap (.Parameter 0 [1, 1, 1, 2])
      (.Parameter 1 [1, 1, 2, 2]) channelsCase where
  inputs := ⟨_, getInputNodes_two rfl rfl rfl, rfl, rfl⟩
  stridesAttr := rfl
  dilationsAttr := ⟨1, 1, rfl⟩
  paddingAttr := rfl
  explicitAttr := fun _ => rfl
  formatAttr := rfl
  dataShape := rfl
  filterShape := rfl
  rows := pixelAxis_regular
  cols := pixelAxis_regular

theorem translateDepthwiseConv2dNativeOp_valid_channels :
    ∃ node, translateDepthwiseConv2dNativeOp groupOpset channelsOp
      channelsOpMap =
        .ok (saveNgOp channelsOpMap "depthwise" node) ∧
      node.shape groupOpset = some [1, 1, 1, 4] ∧
      ∀ x w : Tensor Int, x.shape = [1, 1, 1, 2] → w.shape = [1, 1, 2, 2] →
        ∃ result, node.eval (groupLibrary Int) (fun i => [x, w].getD i x) =
          some result ∧
          IsDepthwiseConv2D channelsCase x w result := by
  have accepted : groupOpset.group_convolution
      (builtConvolution .VALID pixelAxis pixelAxis) [1, 2, 1, 1]
      [2, 2, 1, 1, 1] ≠ none := by decide
  have depthwise :=
    translateDepthwiseConv2dNativeOp_valid (channelsOp_inputs groupOpset)
      groupOpset_rules rfl
  obtain ⟨node, stored, shape, elements⟩ :=
    depthwise.resolve_left fun refused => accepted refused.1
  refine ⟨node, stored, shape, ?_⟩
  intro x w xShape wShape
  apply elements Int (groupLibrary Int) _ x w groupLibrary_correlates
  · exact if_pos xShape
  · exact if_pos wShape

end NGraphBridge.NGraphBuilder
