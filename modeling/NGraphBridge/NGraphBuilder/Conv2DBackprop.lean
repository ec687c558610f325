import NGraphBridge.Lib.InnerProduct
import NGraphBridge.NGraphBuilder.Conv2DValue

/-!
# Translating `Conv2DBackpropInput`

The translator finds its attributes anew, from the static sizes of the image.
They have to be those of the convolution that it is the adjoint of.
-/

namespace NGraphBridge.NGraphBuilder

open NGraph (Shape)
open TF Tensor Axes Correlation

def translateConv2DBackpropInputOp (opset : Opset) (op : OpNode)
    (static_input_map : StaticInputMap) (ng_op_map : OpMap) :
    Translates OpMap := do
  let inputs ← getInputNodes ng_op_map op 3
  let tf_strides ← returnIfError (getNodeAttrInts op.attrs "strides")
  let tf_dilations ← returnIfError (getNodeAttrInts op.attrs "dilations")
  let tf_padding_type ← returnIfError (getNodeAttrString op.attrs "padding")
  let tf_data_format ← returnIfError (getNodeAttrString op.attrs "data_format")
  if tf_data_format ≠ "NHWC" ∧ tf_data_format ≠ "NCHW" then
    .error (.status (errors.invalidArgument
      ("Conv2DBackpropInput data format is neither NHWC nor NCHW: %s" ++
        tf_data_format)))
  else do
    let tf_input_sizes ← getStaticInputInt64s op 0 static_input_map
    -- the sizes are passed to the check as integers of 32 bits
    if tf_input_sizes.any fun size => toSigned 32 size ≤ 0 then
      .error (.status (errors.invalidArgument
        "Conv2DBackpropInput input sizes must be positive integers"))
    else do
      let is_nhwc : Bool := tf_data_format = "NHWC"
      let ng_strides ← nhwcToHW is_nhwc 2 (tf_strides.map toUnsigned)
      let ng_dilations ← nhwcToHW is_nhwc 2 (tf_dilations.map toUnsigned)
      let ng_image_shape ← nhwcToHW is_nhwc 2 (tf_input_sizes.map toUnsigned)
      let ng_out_backprop ← nhwcToNCHW opset is_nhwc (inputs 2)
      let ng_batch_shape ← entriesAt (tf_input_sizes.map toUnsigned)
        (if is_nhwc then [0, 3, 1, 2] else [0, 1, 2, 3])
      let ng_kernel_shape ← entriesAt ((inputs 1).get_shape opset) [0, 1]
      let ng_filter ← constructNgNode opset (.Transpose (inputs 1) [3, 2, 0, 1])
      let padding :=
        makePadding opset tf_padding_type ng_image_shape ng_kernel_shape
          ng_strides ng_dilations
      let ng_data ← constructNgNode opset
          (.ConvolutionBackpropData ng_out_backprop ng_filter
        (ng_batch_shape.drop 2)
        { strides := ng_strides
          pads_begin := padding.1
          pads_end := padding.2
          dilations := ng_dilations })
      let ng_data ← nchwToNHWC opset is_nhwc ng_data
      .ok (saveNgOp ng_op_map op.name ng_data)

/-- An op with the attributes of a convolution, the sizes of its image, its
filter, and a tensor. -/
structure BackpropInputs (opset : Opset) (op : OpNode)
    (static_input_map : StaticInputMap) (ng_op_map : OpMap)
    (filter out_backprop : Ng) (conv : Conv2DCase) : Prop where
  inputs : ∃ nodes, getInputNodes ng_op_map op 3 = .ok nodes ∧
    nodes 1 = filter ∧
    nodes 2 = out_backprop
  stridesAttr : getNodeAttrInts op.attrs "strides" =
    .ok (image conv.is_nhwc conv.batch_stride
    conv.depth_stride (conv.rows.stride : Int) conv.cols.stride)
  dilationsAttr : ∃ batch depth, getNodeAttrInts op.attrs "dilations" =
    .ok (image conv.is_nhwc batch depth (conv.rows.dilation : Int)
      conv.cols.dilation)
  paddingAttr : getNodeAttrString op.attrs "padding" = .ok conv.padding.text
  formatAttr : getNodeAttrString op.attrs "data_format" =
    .ok (formatText conv.is_nhwc)
  sizes : getStaticInputInt64s op 0 static_input_map =
    .ok (conv.imageShape.map Int.ofNat)
  filterShape : filter.shape opset = some conv.filterShape

/-- What nGraph documents: the operation on what a convolution gives leads back
to the shape of its data. -/
def BackpropRules (opset : Opset) : Prop :=
  ∀ (attrs : Convolution) (n c h w o kh kw : Nat) (shape : Shape),
    attrs.Planar →
    opset.convolution attrs [n, c, h, w] [o, c, kh, kw] = some shape →
      opset.convolution_backprop_data attrs [h, w] shape [o, c, kh, kw] =
        some [n, c, h, w]

/-- What nGraph documents: a convolution of no images, or of images without
channels, is refused. -/
def RefusesEmpty (opset : Opset) : Prop :=
  ∀ (attrs : Convolution) (n c h w o kh kw : Nat) (shape : Shape),
    attrs.Planar →
    opset.convolution attrs [n, c, h, w] [o, c, kh, kw] = some shape →
    0 < n ∧ 0 < c

/-- What nGraph documents for the elements: the two operations are adjoint. -/
def Adjoint {R : Type} [CommSemiring R] [Inhabited R] {opset : Opset}
    (library : Library R opset) : Prop :=
  ∀ (attrs : Convolution) (data filters out out_backprop back : Tensor R),
    attrs.Planar →
    library.convolution attrs data filters = some out →
    out_backprop.shape = out.shape →
    library.convolution_backprop_data attrs (data.shape.drop 2) out_backprop
      filters = some back →
      inner out out_backprop = inner data back

/-- The operation that is asked for. -/
def backpropConvolution (conv : Conv2DCase) (filter out_backprop : Ng) : Ng :=
  .ConvolutionBackpropData (toNCHW conv.is_nhwc out_backprop)
    (.Transpose filter [3, 2, 0, 1])
    [conv.rows.dim, conv.cols.dim]
    (builtConvolution conv.padding conv.rows conv.cols)

/-- The node that is stored. -/
def backpropNode (conv : Conv2DCase) (filter out_backprop : Ng) : Ng :=
  toNHWC conv.is_nhwc (backpropConvolution conv filter out_backprop)

section Translate

variable {opset : Opset} {op : OpNode} {static_input_map : StaticInputMap}
  {ng_op_map : OpMap} {filter out_backprop : Ng} {conv : Conv2DCase}

/-- A size that is not positive as an integer of 32 bits. -/
def Conv2DCase.SizeRefused (conv : Conv2DCase) : Prop :=
  ∃ size ∈ conv.imageShape, toSigned 32 size ≤ 0

theorem sizes_any :
    ((conv.imageShape.map Int.ofNat).any fun size => toSigned 32 size ≤ 0) =
      true ↔
    conv.SizeRefused := by
  rw [List.any_eq_true, Conv2DCase.SizeRefused]
  constructor
  · intro found
    obtain ⟨entry, member, refused⟩ := found
    obtain ⟨size, inShape, rfl⟩ := List.mem_map.mp member
    exact ⟨size, inShape, of_decide_eq_true refused⟩
  · intro found
    obtain ⟨size, member, refused⟩ := found
    exact ⟨size, List.mem_map_of_mem member, decide_eq_true refused⟩

theorem BackpropInputs.sizes_kept
    (inputs : BackpropInputs opset op static_input_map ng_op_map filter
      out_backprop conv) :
    (conv.imageShape.map Int.ofNat).map toUnsigned = conv.imageShape := by
  rw [List.map_map]
  calc conv.imageShape.map (toUnsigned ∘ Int.ofNat) =
    conv.imageShape.map id := by
        apply List.map_congr_left
        intro size member
        have bounds := getStaticInputVector_bounds (by decide) inputs.sizes
          (List.mem_map_of_mem member)
        rw [Function.comp_apply, toUnsigned, Int.ofNat_eq_natCast,
          Int.emod_eq_of_lt (by omega) (by simp at bounds; omega),
          Int.toNat_natCast, id]
    _ = conv.imageShape := List.map_id _

theorem image_entries {is_nhwc : Bool} (n c h w : Nat) :
    entriesAt (image is_nhwc n c h w)
      (if is_nhwc then [0, 3, 1, 2] else [0, 1, 2, 3]) =
      .ok [n, c, h, w] := by
  cases is_nhwc with
  | false => rfl
  | true => rfl

theorem BackpropInputs.translate
    (inputs : BackpropInputs opset op static_input_map ng_op_map filter
      out_backprop conv)
    (rules : ConvolutionRules opset) (rows : conv.rows.Regular)
    (cols : conv.cols.Regular) (accepted : ¬conv.SizeRefused) {n o h w : Nat}
    (outShape : out_backprop.shape opset = some (image conv.is_nhwc n o h w))
    (valid : (backpropConvolution conv filter out_backprop).shape opset =
      some [conv.batch, conv.channels, conv.rows.dim, conv.cols.dim]) :
    translateConv2DBackpropInputOp opset op static_input_map ng_op_map =
      .ok (saveNgOp ng_op_map op.name
        (backpropNode conv filter out_backprop)) := by
  obtain ⟨nodes, found, rfl, rfl⟩ := inputs.inputs
  obtain ⟨batch, depth, dilations⟩ := inputs.dilationsAttr
  have strides :=
    @map_toUnsigned_image conv.is_nhwc conv.batch_stride conv.depth_stride _ _
      rows.stride.2 cols.stride.2
  have dilationsKept := @map_toUnsigned_image conv.is_nhwc batch depth _ _
    rows.dilation.2 cols.dilation.2
  have imageSizes : nhwcToHW conv.is_nhwc 2 conv.imageShape =
      .ok [conv.rows.dim, conv.cols.dim] :=
    nhwcToHW_image conv.batch conv.channels conv.rows.dim conv.cols.dim
  have batchSizes :
      entriesAt conv.imageShape
        (if conv.is_nhwc then [0, 3, 1, 2] else [0, 1, 2, 3]) =
      .ok [conv.batch, conv.channels, conv.rows.dim, conv.cols.dim] :=
    image_entries conv.batch conv.channels conv.rows.dim conv.cols.dim
  have front := nhwcToNCHW_image outShape
  have isKernel : entriesAt ((nodes 1).get_shape opset) [0, 1] =
      .ok [conv.rows.kernel, conv.cols.kernel] := by
    rw [Ng.get_shape_eq inputs.filterShape]
    rfl
  have transposed := transpose_ok inputs.filterShape isOrder_filter
  have pads := @makePadding_eq opset conv.rows conv.cols conv.padding
    rules rows cols
  have attrs : ({ strides := [conv.rows.stride, conv.cols.stride]
                  pads_begin := (builtPads conv.padding conv.rows conv.cols).1
                  pads_end := (builtPads conv.padding conv.rows conv.cols).2
                  dilations := [conv.rows.dilation, conv.cols.dilation] } :
                  Convolution) =
      builtConvolution conv.padding conv.rows conv.cols := rfl
  have built := constructNgNode_ok valid
  rw [backpropConvolution] at built
  have back := @nchwToNHWC_image _ conv.is_nhwc _ _ _ _ _ valid
  rw [translateConv2DBackpropInputOp, inputs.stridesAttr, dilations,
    inputs.paddingAttr, inputs.formatAttr]
  simp only [bind, Except.bind, found, returnIfError,
    if_neg formatText_accepted, inputs.sizes, if_neg (mt sizes_any.mp accepted),
    inputs.sizes_kept, decide_formatText, strides, dilationsKept,
    nhwcToHW_image, imageSizes, batchSizes, front, isKernel, transposed,
    pads, attrs, List.drop_succ_cons, List.drop_zero, built]
  rw [backpropConvolution] at back
  simp only [back]
  rfl

theorem BackpropInputs.backprop_shape
    (inputs : BackpropInputs opset op static_input_map ng_op_map filter
      out_backprop conv)
    {n o h w : Nat} {result : Shape}
    (outShape : out_backprop.shape opset = some (image conv.is_nhwc n o h w))
    (accepts : opset.convolution_backprop_data
      (builtConvolution conv.padding conv.rows conv.cols)
      [conv.rows.dim, conv.cols.dim] [n, o, h, w]
      [conv.filters, conv.channels, conv.rows.kernel, conv.cols.kernel] =
        some result) :
    (backpropConvolution conv filter out_backprop).shape opset =
      some result := by
  rw [backpropConvolution, Ng.shape, toNCHW_shape outShape,
    filter_shape inputs.filterShape]
  exact accepts

/-- What is stored is the operation between changes of the layout. -/
theorem BackpropInputs.eval_backprop
    (inputs : BackpropInputs opset op static_input_map ng_op_map filter
      out_backprop conv)
    {n o h w : Nat}
    (outShape : out_backprop.shape opset = some (image conv.is_nhwc n o h w))
    (accepts : opset.convolution_backprop_data
      (builtConvolution conv.padding conv.rows conv.cols)
      [conv.rows.dim, conv.cols.dim] [n, o, h, w]
      [conv.filters, conv.channels, conv.rows.kernel, conv.cols.kernel] =
        some [conv.batch, conv.channels, conv.rows.dim, conv.cols.dim])
    {V : Type} [Inhabited V] {library : Library V opset}
    {parameters : Nat → Tensor V} {filterValue outValue : Tensor V}
    (filterEvaluates : filter.eval library parameters = some filterValue)
    (evaluates : out_backprop.eval library parameters = some outValue) :
    ∃ back, library.convolution_backprop_data
        (builtConvolution conv.padding conv.rows conv.cols)
        [conv.rows.dim, conv.cols.dim] (frontTensor conv.is_nhwc outValue)
        (filterValue.transpose [3, 2, 0, 1]) = some back ∧
      back.shape = [conv.batch, conv.channels, conv.rows.dim, conv.cols.dim] ∧
      (backpropNode conv filter out_backprop).eval library parameters =
        some (backTensor conv.is_nhwc back) := by
  have filterShape :=
    Option.some.inj ((eval_shape filterEvaluates).symm.trans inputs.filterShape)
  have outValueShape :=
    Option.some.inj ((eval_shape evaluates).symm.trans outShape)
  have made := library.convolution_backprop_data_shape
    (builtConvolution conv.padding conv.rows conv.cols)
    [conv.rows.dim, conv.cols.dim]
    (frontTensor conv.is_nhwc outValue) (filterValue.transpose [3, 2, 0, 1])
  rw [shape_frontTensor outValueShape, shape_filter filterShape,
    accepts] at made
  obtain ⟨back, backprop, backShape⟩ := Option.map_eq_some_iff.mp made
  have stored : (backpropConvolution conv filter out_backprop).eval library
      parameters =
      some back := by
    rw [backpropConvolution, Ng.eval, toNCHW_eval evaluates outValueShape,
      transpose_eval filterEvaluates (isOrder_kernel filterShape)]
    exact backprop
  exact ⟨back, backprop, backShape, toNHWC_eval stored backShape⟩

/-- A convolution that was translated was accepted by nGraph. -/
theorem Conv2DInputs.accepts {data node : Ng}
    (inputs : Conv2DInputs opset op ng_op_map data filter conv)
    (rules : ConvolutionRules opset)
    (translated : translateConv2DOp opset op ng_op_map =
      .ok (saveNgOp ng_op_map op.name node)) :
    ∃ shape, opset.convolution
      (builtConvolution conv.padding conv.rows conv.cols)
        [conv.batch, conv.channels, conv.rows.dim, conv.cols.dim]
        [conv.filters, conv.channels, conv.rows.kernel, conv.cols.kernel] =
        some shape ∧
      node = conv2DNode conv data filter ∧
      node.shape opset = some conv.built.outputShape := by
  have narrow : conv.batch_stride = 1 ∧ conv.depth_stride = 1 := by
    by_contra wide
    obtain ⟨error, failed⟩ := inputs.translate_strides wide
    rw [translated] at failed
    exact absurd failed (by simp)
  cases accepts :
    opset.convolution (builtConvolution conv.padding conv.rows conv.cols)
      [conv.batch, conv.channels, conv.rows.dim, conv.cols.dim]
      [conv.filters, conv.channels, conv.rows.kernel, conv.cols.kernel] with
  | none =>
      have failed := inputs.translate_rejected rules narrow accepts
      rw [translated] at failed
      exact absurd failed (by simp)
  | some shape =>
      obtain ⟨success, isShape⟩ :=
        inputs.translate_accepted rules narrow accepts
      obtain rfl := saveNgOp_injective
        (Except.ok.inj (translated.symm.trans success))
      exact ⟨shape, rfl, rfl, isShape⟩

end Translate

section Inner

variable {R : Type} [CommSemiring R] [Inhabited R] {is_nhwc : Bool}
  {left right : Tensor R} {n c h w : Nat}

theorem inner_backTensor (leftShape : left.shape = [n, c, h, w])
    (rightShape : right.shape = image is_nhwc n c h w) :
    inner (backTensor is_nhwc left) right =
      inner left (frontTensor is_nhwc right) := by
  cases is_nhwc with
  | false => rfl
  | true =>
      have same : (left.transpose [0, 2, 3, 1]).shape = right.shape := by
        rw [rightShape]
        exact @shape_backTensor true _ _ _ _ _ _ _ leftShape
      exact inner_transpose_left (isOrder_back leftShape) same

theorem inner_frontTensor (leftShape : left.shape = image is_nhwc n c h w)
    (rightShape : right.shape = [n, c, h, w]) :
    inner (frontTensor is_nhwc left) right =
      inner left (backTensor is_nhwc right) := by
  cases is_nhwc with
  | false => rfl
  | true =>
      have same : (left.transpose [0, 3, 1, 2]).shape = right.shape := by
        rw [rightShape]
        exact @shape_frontTensor true _ _ _ _ _ _ _ leftShape
      exact inner_transpose_left (isOrder_front leftShape) same

end Inner

theorem ConvAxis.dim_pos_built {axis : ConvAxis} {padding : TfPadding}
    (regular : axis.Regular) (nonempty : 0 < axis.kernel)
    (fits : (axis.sweep padding.built).Fits axis.dim axis.kernel) :
    0 < axis.dim := by
  cases padding with
  | VALID => exact ConvAxis.dim_pos nonempty fits
  | EXPLICIT => exact ConvAxis.dim_pos nonempty fits
  | SAME =>
      have places : 0 < axis.outputSize .SAME :=
        ConvAxis.outputSize_pos regular nonempty fits
      have positive := regular.stride.1
      by_contra empty
      have isZero : axis.dim = 0 := by omega
      have noPlace : ((axis.stride : Int) - 1) / axis.stride = 0 :=
        Int.ediv_eq_zero_of_lt (by omega) (by omega)
      rw [ConvAxis.outputSize, isZero, Int.natCast_zero, Int.zero_add,
        noPlace] at places
      exact absurd places (by decide)

/-- The sizes of an image that was convolved are accepted, as integers of 32
bits. -/
theorem Conv2DInputs.sizes_accepted {opset : Opset} {op : OpNode}
    {ng_op_map : OpMap} {data filter : Ng} {conv : Conv2DCase}
    (inputs : Conv2DInputs opset op ng_op_map data filter conv)
    (rules : ConvolutionRules opset) (refusesEmpty : RefusesEmpty opset)
    (int32 : ∀ size ∈ conv.imageShape, size < 2 ^ 31) {shape : Shape}
    (accepts : opset.convolution
      (builtConvolution conv.padding conv.rows conv.cols)
      [conv.batch, conv.channels, conv.rows.dim, conv.cols.dim]
      [conv.filters, conv.channels, conv.rows.kernel, conv.cols.kernel] =
      some shape) :
    ¬ conv.SizeRefused := by
  obtain ⟨nonempty, fits, _⟩ := inputs.accepted rules accepts
  obtain ⟨batch, channels⟩ :=
    refusesEmpty _ _ _ _ _ _ _ _ _ builtConvolution_planar accepts
  have rows := ConvAxis.dim_pos_built inputs.rows nonempty.1 fits.1
  have cols := ConvAxis.dim_pos_built inputs.cols nonempty.2 fits.2
  have positive : ∀ size ∈ conv.imageShape, 0 < size := by
    intro size member
    rw [Conv2DCase.imageShape, image] at member
    split at member
    case isTrue =>
      simp only [List.mem_cons, List.not_mem_nil, or_false] at member
      omega
    case isFalse =>
      simp only [List.mem_cons, List.not_mem_nil, or_false] at member
      omega
  intro refused
  obtain ⟨size, member, nonpositive⟩ := refused
  have above := positive size member
  have below := int32 size member
  have kept : toSigned 32 size = size := Int.bmod_eq_of_le (by omega) (by omega)
  omega

/-- What is translated is the adjoint of the translated convolution. -/
theorem translateConv2DBackpropInputOp_adjoint {opset : Opset}
    {conv_op op : OpNode} {conv_op_map ng_op_map : OpMap}
    {static_input_map : StaticInputMap} {data filter out_backprop node : Ng}
    {conv : Conv2DCase}
    (convInputs : Conv2DInputs opset conv_op conv_op_map data filter conv)
    (inputs : BackpropInputs opset op static_input_map ng_op_map filter
      out_backprop conv)
    (rules : ConvolutionRules opset) (backRules : BackpropRules opset)
    (refusesEmpty : RefusesEmpty opset)
    (int32 : ∀ size ∈ conv.imageShape, size < 2 ^ 31)
    (translated : translateConv2DOp opset conv_op conv_op_map =
      .ok (saveNgOp conv_op_map conv_op.name node))
    (outShape : out_backprop.shape opset = node.shape opset) :
    ∃ back, translateConv2DBackpropInputOp opset op static_input_map ng_op_map =
        .ok (saveNgOp ng_op_map op.name back) ∧
      back.shape opset = some conv.imageShape ∧
      ∀ (R : Type) [CommRing R] [Inhabited R] (library : Library R opset)
        (parameters : Nat → Tensor R) x w y, Adjoint library →
        data.eval library parameters = some x →
        filter.eval library parameters = some w →
        out_backprop.eval library parameters = some y →
          ∃ z d, node.eval library parameters = some z ∧
            back.eval library parameters = some d ∧
            inner z y = inner x d := by
  obtain ⟨shape, accepts, rfl, isShape⟩ := convInputs.accepts rules translated
  have yShape : out_backprop.shape opset =
      some (image conv.is_nhwc conv.batch conv.filters
      (conv.rows.outputSize conv.padding.built)
      (conv.cols.outputSize conv.padding.built)) :=
    outShape.trans isShape
  have sizes := convInputs.sizes_accepted rules refusesEmpty int32 accepts
  obtain ⟨_, _, rfl⟩ := convInputs.accepted rules accepts
  have backAccepts :=
    backRules _ _ _ _ _ _ _ _ _ builtConvolution_planar accepts
  have valid := inputs.backprop_shape yShape backAccepts
  refine ⟨backpropNode conv filter out_backprop,
    inputs.translate rules convInputs.rows convInputs.cols sizes yShape valid,
    toNHWC_shape valid, ?_⟩
  intro R _ _ library parameters x w y adjoint atX atW atY
  have xShape :=
    Option.some.inj ((eval_shape atX).symm.trans convInputs.dataShape)
  have frontShape := shape_frontTensor xShape
  have yValueShape := Option.some.inj ((eval_shape atY).symm.trans yShape)
  obtain ⟨z, convolved, zShape, convStored⟩ :=
    convInputs.eval_convolution rules accepts atX atW
  obtain ⟨d, backprop, dShape, backStored⟩ :=
    inputs.eval_backprop yShape backAccepts atW atY
  refine ⟨_, _, convStored, backStored, ?_⟩
  have law := adjoint _ (frontTensor conv.is_nhwc x) _ z
    (frontTensor conv.is_nhwc y) d
    builtConvolution_planar convolved
    (by rw [zShape, shape_frontTensor yValueShape])
    (by rw [frontShape]; exact backprop)
  calc inner (backTensor conv.is_nhwc z) y =
    inner z (frontTensor conv.is_nhwc y) :=
        inner_backTensor zShape yValueShape
    _ = inner (frontTensor conv.is_nhwc x) d := law
    _ = inner x (backTensor conv.is_nhwc d) := inner_frontTensor xShape dShape

/-- The rules as nGraph documents them. -/
def backpropOpset : Opset :=
  { correlationRules with
    convolution := fun attrs data filters =>
      if 0 ∈ data then none else correlationRules.convolution attrs data filters
    convolution_backprop_data := fun _ output_shape data filters =>
      match output_shape, data, filters with
      | [h, w], [n, _, _, _], [_, c, _, _] => some [n, c, h, w]
      | _, _, _ => none }

theorem backpropOpset_accepts {attrs : Convolution}
    {data filters result : Shape}
    (accepts : backpropOpset.convolution attrs data filters = some result) :
    0 ∉ data ∧ correlationRules.convolution attrs data filters =
      some result := by
  change (if 0 ∈ data then none
      else correlationRules.convolution attrs data filters) = _ at accepts
  split at accepts
  case isTrue => exact absurd accepts (by simp)
  case isFalse nonempty => exact ⟨nonempty, accepts⟩

theorem backpropOpset_convolution {attrs : Convolution}
    {data filters result : Shape}
    (accepts : backpropOpset.convolution attrs data filters = some result) :
    ∃ n c h w o kh kw, data = [n, c, h, w] ∧ filters = [o, c, kh, kw] ∧
      result = [n, o, (attrs.sweep 0).places h kh,
        (attrs.sweep 1).places w kw] := by
  replace accepts := (backpropOpset_accepts accepts).2
  rw [correlationRules] at accepts
  dsimp only at accepts
  split at accepts
  next n c h w o channels kh kw =>
    split at accepts
    next fits =>
      obtain rfl := fits.1
      exact ⟨n, channels, h, w, o, kh, kw, rfl, rfl,
        (Option.some.inj accepts).symm⟩
    next => exact absurd accepts (by simp)
  next => exact absurd accepts (by simp)

theorem backpropOpset_rules : ConvolutionRules backpropOpset where
  convolution := fun attrs n c h w o channels kh kw result planar accepts =>
    correlationRules_valid.convolution attrs n c h w o channels kh kw
      result planar (backpropOpset_accepts accepts).2
  infer_auto_padding := correlationRules_valid.infer_auto_padding

theorem backpropOpset_refusesEmpty : RefusesEmpty backpropOpset := by
  intro attrs n c h w o kh kw shape _ accepts
  have nonempty := (backpropOpset_accepts accepts).1
  simp only [List.mem_cons, List.not_mem_nil, or_false, not_or] at nonempty
  omega

theorem backpropOpset_backprop : BackpropRules backpropOpset := by
  intro attrs n c h w o kh kw shape planar accepts
  obtain ⟨_, _, _, rfl⟩ :=
    backpropOpset_rules.convolution _ _ _ _ _ _ _ _ _ _ planar accepts
  rfl

section AdjointLibrary

variable {R : Type} [CommSemiring R] [Inhabited R]

theorem isLinear_sample {shape : Shape} {cells : Tensor R → Nat → Nat → R}
    {h w : Nat} {y x : Int}
    (areLinear : ∀ row < h, ∀ col < w, IsLinear shape fun value =>
      cells value row col) :
    IsLinear shape fun value => sample h w (cells value) y x := by
  unfold sample
  by_cases inside : (0 ≤ y ∧ y < h) ∧ 0 ≤ x ∧ x < w
  · simp only [if_pos inside]
    exact areLinear _ (by omega) _ (by omega)
  · simp only [if_neg inside]
    exact isLinear_zero

/-- A convolution adds up what it makes of the entries of the image. -/
theorem isLinear_convolved {attrs : Convolution} {filters : Tensor R}
    {n c h w b k y x : Nat} (inBatch : b < n) :
    IsLinear [n, c, h, w] fun value => convolved attrs value filters
      [b, k, y, x] := by
  have areLinear : IsLinear [n, c, h, w] fun value => ∑ channel ∈
      Finset.range c,
      correlate (attrs.sweep 0) (attrs.sweep 1) h w (filters.shape.getD 2 0)
        (filters.shape.getD 3 0)
        (fun row col => value.get [b, channel, row, col])
        (fun i j => filters.get [k, channel, i, j]) y x := by
    refine IsLinear.sum fun channel inChannels => IsLinear.sum fun i _ =>
      IsLinear.sum fun j _ =>
      IsLinear.mul_right ?_ _
    apply isLinear_sample
    intro row inRows col inCols
    exact isLinear_get
      (valid_four.mpr ⟨inBatch, Finset.mem_range.mp inChannels, inRows, inCols⟩)
  intro value isShape
  have sums := areLinear value isShape
  dsimp only at sums ⊢
  rw [convolved, isShape]
  exact sums

variable (R) in
/-- Convolutions, and what is adjoint to them. -/
def adjointLibrary : Library R backpropOpset :=
  { convLibrary R backpropOpset with
    convolution_backprop_data := fun attrs output_shape data filters =>
      (backpropOpset.convolution_backprop_data attrs output_shape data.shape
          filters.shape).map
        fun shape => adjoint shape
        (fun value => convolved attrs value filters) data
    convolution_backprop_data_shape := fun _ _ _ _ =>
      Option.map_map _ _ _ |>.trans Option.map_id' }

theorem adjointLibrary_adjoint : Adjoint (adjointLibrary R) := by
  intro attrs data filters out out_backprop back _ convolution shapes backprop
  obtain ⟨shape, accepts, rfl⟩ := Option.map_eq_some_iff.mp convolution
  obtain ⟨backShape, backAccepts, rfl⟩ := Option.map_eq_some_iff.mp backprop
  obtain ⟨n, c, h, w, o, kh, kw, dataShape, filtersShape, isShape⟩ :=
    backpropOpset_convolution accepts
  have outShape : out_backprop.shape = shape := shapes
  rw [outShape, dataShape, filtersShape, isShape] at backAccepts
  have sameShape : backShape = data.shape :=
    (Option.some.inj backAccepts).symm.trans dataShape.symm
  rw [sameShape, ← outShape]
  refine @inner_adjoint _ _ _ (fun value => convolved attrs value filters)
    _ _ ?_
  intro index valid
  rw [dataShape]
  rw [outShape, isShape] at valid
  cases valid with
  | cons inBatch rest =>
      obtain ⟨k, y, x, rfl⟩ := List.length_eq_three.mp rest.length_eq
      exact isLinear_convolved inBatch

end AdjointLibrary

def stridedBackOp : OpNode where
  name := "back"
  type_string := "Conv2DBackpropInput"
  attrs := stridedOp.attrs
  listAttrs := []
  floatAttrs := []
  inputs :=
    [(constNode "sizes" .DT_INT32 [2, 5, 6, 3], 0),
      (⟨"filter", "_Arg", [], none⟩, 0),
      (⟨"gradient", "_Arg", [], none⟩, 0)]

def stridedBackOpMap : OpMap :=
  [("sizes", [.Parameter 0 [4]]), ("filter", [.Parameter 1 [3, 3, 3, 4]]),
    ("gradient", [.Parameter 2 [2, 3, 3, 4]])]

theorem stridedBackOp_inputs (opset : Opset) :
    BackpropInputs opset stridedBackOp
      [] stridedBackOpMap (.Parameter 1 [3, 3, 3, 4])
      (.Parameter 2 [2, 3, 3, 4]) stridedCase where
  inputs := ⟨_, rfl, rfl, rfl⟩
  stridesAttr := rfl
  dilationsAttr := ⟨1, 1, rfl⟩
  paddingAttr := rfl
  formatAttr := rfl
  sizes := rfl
  filterShape := rfl

/-- Over the integers, with the library above. -/
theorem translateConv2DBackpropInputOp_adjoint_strided :
    ∃ node back, translateConv2DOp backpropOpset stridedOp stridedOpMap =
        .ok (saveNgOp stridedOpMap "conv" node) ∧
      translateConv2DBackpropInputOp backpropOpset stridedBackOp
        [] stridedBackOpMap =
        .ok (saveNgOp stridedBackOpMap "back" back) ∧
      back.shape backpropOpset = some [2, 5, 6, 3] ∧
      ∀ x w y : Tensor Int, x.shape = [2, 5, 6, 3] → w.shape = [3, 3, 3, 4] →
        y.shape = [2, 3, 3, 4] → ∃ z d,
          node.eval (adjointLibrary Int) (fun i => [x, w, y].getD i x) =
            some z ∧
          back.eval (adjointLibrary Int) (fun i => [x, w, y].getD i x) =
            some d ∧
          inner z y = inner x d := by
  have inputs := stridedOp_inputs backpropOpset
  obtain ⟨translated, nodeShape⟩ :=
    @Conv2DInputs.translate_accepted _ _ _ _ _ _ inputs backpropOpset_rules
      ⟨rfl, rfl⟩ [2, 4, 3, 3] (by decide)
  obtain ⟨back, stored, isShape, law⟩ :=
    translateConv2DBackpropInputOp_adjoint inputs
      (stridedBackOp_inputs backpropOpset) backpropOpset_rules
      backpropOpset_backprop
      backpropOpset_refusesEmpty (by decide) translated nodeShape.symm
  refine ⟨_, back, translated, stored, isShape, ?_⟩
  intro x w y xShape wShape yShape
  apply law Int (adjointLibrary Int) _ x w y adjointLibrary_adjoint
  · exact if_pos xShape
  · exact if_pos wShape
  · exact if_pos yShape

end NGraphBridge.NGraphBuilder
