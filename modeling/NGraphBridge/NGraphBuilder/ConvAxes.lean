import NGraphBridge.Lib.Correlation
import NGraphBridge.NGraphBuilder.Conv2D

/-!
# The axes of a convolution

An image has two spatial axes, which are swept by the kernel in the same way.
Both orders of its axes are treated at once.
-/

namespace NGraphBridge.NGraphBuilder

open NGraph (Shape)
open TF Tensor Axes Correlation

/-- What belongs to the axes of an image, in the order of TensorFlow. -/
def image {α : Type} (is_nhwc : Bool) (batch channel row col : α) : List α :=
  if is_nhwc then [batch, row, col, channel] else [batch, channel, row, col]

/-- An image is put in the order of nGraph. -/
def toNCHW (is_nhwc : Bool) (node : Ng) : Ng :=
  if is_nhwc then .Transpose node [0, 3, 1, 2] else node

def toNHWC (is_nhwc : Bool) (node : Ng) : Ng :=
  if is_nhwc then .Transpose node [0, 2, 3, 1] else node

theorem isOrder_toNCHW : IsOrder [0, 3, 1, 2] 4 := by decide

theorem isOrder_toNHWC : IsOrder [0, 2, 3, 1] 4 := by decide

theorem isOrder_filter : IsOrder [3, 2, 0, 1] 4 := by decide

theorem transpose_shape {opset : Opset} {node : Ng} {shape : Shape}
    {order : List Nat} (isShape : node.shape opset = some shape)
    (isOrder : IsOrder order shape.length) :
    (Ng.Transpose node order).shape opset = some (permute order shape) := by
  rw [Ng.shape, isShape]
  exact if_pos isOrder

section Image

variable {opset : Opset} {is_nhwc : Bool} {node : Ng} {n c h w : Nat}

theorem map_image {α β : Type} (f : α → β) (batch channel row col : α) :
    (image is_nhwc batch channel row col).map f =
      image is_nhwc (f batch) (f channel) (f row) (f col) := by
  cases is_nhwc with
  | false => rfl
  | true => rfl

theorem image_injective {α : Type}
    {batch channel row col batch' channel' row' col' : α}
    (same : image is_nhwc batch channel row col =
      image is_nhwc batch' channel' row' col') :
    batch = batch' ∧ channel = channel' ∧ row = row' ∧ col = col' := by
  cases is_nhwc with
  | false => simpa [image] using same
  | true =>
      simp only [image, if_true, List.cons.injEq, and_true] at same
      exact ⟨same.1, same.2.2.2, same.2.1, same.2.2.1⟩

theorem nhwcToHW_image (batch channel row col : Nat) :
    nhwcToHW is_nhwc 2 (image is_nhwc batch channel row col) = .ok
      [row, col] := by
  cases is_nhwc with
  | false => rfl
  | true => rfl

theorem valid_four {d₀ d₁ d₂ d₃ i₀ i₁ i₂ i₃ : Nat} :
    Valid [d₀, d₁, d₂, d₃] [i₀, i₁, i₂, i₃] ↔ i₀ < d₀ ∧ i₁ < d₁ ∧ i₂ < d₂ ∧
    i₃ < d₃ := by
  simp [Valid]

theorem valid_image {b k y x : Nat} :
    Valid (image is_nhwc n c h w) (image is_nhwc b k y x) ↔ b < n ∧ k < c ∧
    y < h ∧ x < w := by
  cases is_nhwc with
  | false => exact valid_four
  | true =>
      rw [image, if_pos rfl, image, if_pos rfl, valid_four]
      tauto

theorem toNCHW_shape
    (isShape : node.shape opset = some (image is_nhwc n c h w)) :
    (toNCHW is_nhwc node).shape opset = some [n, c, h, w] := by
  cases is_nhwc with
  | false => exact isShape
  | true => exact transpose_shape isShape isOrder_toNCHW

theorem toNHWC_shape (isShape : node.shape opset = some [n, c, h, w]) :
    (toNHWC is_nhwc node).shape opset = some (image is_nhwc n c h w) := by
  cases is_nhwc with
  | false => exact isShape
  | true => exact transpose_shape isShape isOrder_toNHWC

theorem nhwcToNCHW_image
    (isShape : node.shape opset = some (image is_nhwc n c h w)) :
    nhwcToNCHW opset is_nhwc node = .ok (toNCHW is_nhwc node) := by
  cases is_nhwc with
  | false => rfl
  | true => exact nhwcToNCHW_eq (.inl rfl) isShape rfl

theorem nchwToNHWC_image (isShape : node.shape opset = some [n, c, h, w]) :
    nchwToNHWC opset is_nhwc node = .ok (toNHWC is_nhwc node) := by
  cases is_nhwc with
  | false => rfl
  | true => exact nchwToNHWC_eq (.inl rfl) isShape rfl

variable {V : Type} [Inhabited V] {library : Library V opset}
  {parameters : Nat → Tensor V} {value : Tensor V}

/-- An image with the channels behind the batch. -/
def frontTensor (is_nhwc : Bool) (value : Tensor V) : Tensor V :=
  if is_nhwc then value.transpose [0, 3, 1, 2] else value

/-- An image with the channels in the order of TensorFlow again. -/
def backTensor (is_nhwc : Bool) (value : Tensor V) : Tensor V :=
  if is_nhwc then value.transpose [0, 2, 3, 1] else value

omit [Inhabited V] in
theorem isOrder_front (isShape : value.shape = image true n c h w) :
    IsOrder [0, 3, 1, 2] value.rank := by
  rw [rank, isShape]
  exact isOrder_toNCHW

omit [Inhabited V] in
theorem isOrder_back (isShape : value.shape = [n, c, h, w]) :
    IsOrder [0, 2, 3, 1] value.rank := by
  rw [rank, isShape]
  exact isOrder_toNHWC

theorem transpose_eval {order : List Nat}
    (evaluates : node.eval library parameters = some value)
    (isOrder : IsOrder order value.rank) :
    (Ng.Transpose node order).eval library parameters =
      some (value.transpose order) := by
  rw [Ng.eval, evaluates]
  exact if_pos isOrder

theorem toNCHW_eval (evaluates : node.eval library parameters = some value)
    (isShape : value.shape = image is_nhwc n c h w) :
    (toNCHW is_nhwc node).eval library parameters =
      some (frontTensor is_nhwc value) := by
  cases is_nhwc with
  | false => exact evaluates
  | true => exact transpose_eval evaluates (isOrder_front isShape)

theorem toNHWC_eval (evaluates : node.eval library parameters = some value)
    (isShape : value.shape = [n, c, h, w]) :
    (toNHWC is_nhwc node).eval library parameters =
      some (backTensor is_nhwc value) := by
  cases is_nhwc with
  | false => exact evaluates
  | true => exact transpose_eval evaluates (isOrder_back isShape)

theorem shape_frontTensor (isShape : value.shape = image is_nhwc n c h w) :
    (frontTensor is_nhwc value).shape = [n, c, h, w] := by
  cases is_nhwc with
  | false => exact isShape
  | true =>
      rw [frontTensor, if_pos rfl, shape_transpose, isShape]
      rfl

theorem shape_backTensor (isShape : value.shape = [n, c, h, w]) :
    (backTensor is_nhwc value).shape = image is_nhwc n c h w := by
  cases is_nhwc with
  | false => exact isShape
  | true =>
      rw [backTensor, if_pos rfl, shape_transpose, isShape]
      rfl

theorem get_frontTensor (isShape : value.shape = image is_nhwc n c h w)
    {b k y x : Nat} (inBatch : b < n) (inChannels : k < c) (inRows : y < h)
    (inCols : x < w) :
    (frontTensor is_nhwc value).get
      [b, k, y, x] = value.get (image is_nhwc b k y x) := by
  have valid : Valid (frontTensor is_nhwc value).shape [b, k, y, x] := by
    rw [shape_frontTensor isShape]
    exact valid_four.mpr ⟨inBatch, inChannels, inRows, inCols⟩
  cases is_nhwc with
  | false => rfl
  | true =>
      rw [frontTensor, if_pos rfl] at valid ⊢
      rw [get_transpose valid]
      rfl

theorem get_backTensor (isShape : value.shape = [n, c, h, w]) {b k y x : Nat}
    (inBatch : b < n) (inChannels : k < c) (inRows : y < h) (inCols : x < w) :
    (backTensor is_nhwc value).get (image is_nhwc b k y x) = value.get
      [b, k, y, x] := by
  have valid : Valid (backTensor is_nhwc value).shape
      (image is_nhwc b k y x) := by
    rw [shape_backTensor isShape]
    exact valid_image.mpr ⟨inBatch, inChannels, inRows, inCols⟩
  cases is_nhwc with
  | false => rfl
  | true =>
      rw [backTensor, if_pos rfl] at valid ⊢
      rw [get_transpose valid]
      rfl

end Image

section Filter

variable {kh kw c o : Nat}

theorem filter_shape {opset : Opset} {node : Ng}
    (isShape : node.shape opset = some [kh, kw, c, o]) :
    (Ng.Transpose node [3, 2, 0, 1]).shape opset = some [o, c, kh, kw] :=
  transpose_shape isShape isOrder_filter

variable {V : Type} [Inhabited V] {value : Tensor V}

omit [Inhabited V] in
theorem isOrder_kernel (isShape : value.shape = [kh, kw, c, o]) :
    IsOrder [3, 2, 0, 1] value.rank := by
  rw [rank, isShape]
  exact isOrder_filter

theorem shape_filter (isShape : value.shape = [kh, kw, c, o]) :
    (value.transpose [3, 2, 0, 1]).shape = [o, c, kh, kw] := by
  rw [shape_transpose, isShape]
  rfl

theorem get_filter (isShape : value.shape = [kh, kw, c, o])
    {k channel i j : Nat} (inFilters : k < o) (inChannels : channel < c)
    (inRows : i < kh) (inCols : j < kw) :
    (value.transpose [3, 2, 0, 1]).get [k, channel, i, j] = value.get
      [i, j, channel, k] := by
  have valid : Valid (permute [3, 2, 0, 1] value.shape) [k, channel, i, j] := by
    rw [isShape]
    exact valid_four.mpr ⟨inFilters, inChannels, inRows, inCols⟩
  rw [get_transpose valid]
  rfl

end Filter

/-- The padding that TensorFlow admits. -/
inductive TfPadding where
  | VALID | SAME | EXPLICIT
  deriving DecidableEq, Repr

def TfPadding.text : TfPadding → String
  | .VALID => "VALID"
  | .SAME => "SAME"
  | .EXPLICIT => "EXPLICIT"

/-- What `MakePadding` makes of it: explicit padding is left out. -/
def TfPadding.built : TfPadding → TfPadding
  | .EXPLICIT => .VALID
  | padding => padding

/-- A spatial axis of the image and of the kernel, and what the attributes say
of it. -/
structure ConvAxis where
  dim : Nat
  kernel : Nat
  stride : Nat
  dilation : Nat
  explicit_before : Nat
  explicit_after : Nat
  deriving DecidableEq, Repr

namespace ConvAxis

/-- The kernel with its gaps. -/
def effective (axis : ConvAxis) : Int :=
  ((axis.kernel : Int) - 1) * axis.dilation + 1

/-- What TensorFlow adds before and after. -/
def amounts (axis : ConvAxis) : TfPadding → Int × Int
  | .VALID => (0, 0)
  | .SAME =>
      (sameTotal axis.dim axis.stride axis.effective / 2,
        sameTotal axis.dim axis.stride axis.effective -
          sameTotal axis.dim axis.stride axis.effective / 2)
  | .EXPLICIT => (axis.explicit_before, axis.explicit_after)

/-- The dimension of the result in TensorFlow. -/
def outputSize (axis : ConvAxis) : TfPadding → Nat
  | .VALID =>
      (((axis.dim : Int) - axis.effective + axis.stride) / axis.stride).toNat
  | .SAME => (((axis.dim : Int) + axis.stride - 1) / axis.stride).toNat
  | .EXPLICIT =>
      (((axis.dim : Int) + axis.explicit_before + axis.explicit_after -
          axis.effective + axis.stride) / axis.stride).toNat

def sweep (axis : ConvAxis) (padding : TfPadding) : Sweep where
  stride := axis.stride
  dilation := axis.dilation
  below := (axis.amounts padding).1
  above := (axis.amounts padding).2

/-- Positive numbers that fit into the attributes. -/
structure Regular (axis : ConvAxis) : Prop where
  stride : 0 < axis.stride ∧ axis.stride < 2 ^ 31
  dilation : 0 < axis.dilation ∧ axis.dilation < 2 ^ 31

theorem outputSize_eq {axis : ConvAxis} (regular : axis.Regular)
    (nonempty : 0 < axis.kernel) (padding : TfPadding) :
    axis.outputSize padding =
      (axis.sweep padding).places axis.dim axis.kernel := by
  have positive : 0 < (axis.sweep padding).stride := regular.stride.1
  cases padding with
  | VALID =>
      rw [Sweep.places_eq positive, Sweep.padded, outputSize]
      simp only [sweep, amounts, Int.add_zero]
      rfl
  | EXPLICIT =>
      rw [Sweep.places_eq positive]
      rfl
  | SAME =>
      have total : (axis.sweep .SAME).below + (axis.sweep .SAME).above =
          sameTotal axis.dim (axis.sweep .SAME).stride
            ((axis.sweep .SAME).reach axis.kernel) := by
        change sameTotal axis.dim axis.stride axis.effective / 2 +
          (sameTotal axis.dim axis.stride axis.effective -
            sameTotal axis.dim axis.stride axis.effective / 2) =
          sameTotal axis.dim axis.stride axis.effective
        omega
      exact (places_same positive nonempty total).symm

end ConvAxis

/-- An axis of a convolution; a list of pads that is empty has none. -/
def Convolution.sweep (attrs : Convolution) (axis : Nat) : Sweep where
  stride := attrs.strides.getD axis 1
  dilation := attrs.dilations.getD axis 1
  below := attrs.pads_begin.getD axis 0
  above := attrs.pads_end.getD axis 0

/-- Attributes for two spatial axes. -/
structure Convolution.Planar (attrs : Convolution) : Prop where
  strides : attrs.strides.length = 2
  dilations : attrs.dilations.length = 2
  pads : attrs.pads_begin = [] ∧ attrs.pads_end = [] ∨
    attrs.pads_begin.length = 2 ∧ attrs.pads_end.length = 2

/-- What nGraph documents for the shape of a convolution, and for the padding
that keeps the dimensions. -/
structure ConvolutionRules (opset : Opset) : Prop where
  convolution :
    ∀ (attrs : Convolution) (n c h w o channels kh kw : Nat) (result : Shape),
    attrs.Planar → opset.convolution attrs [n, c, h, w] [o, channels, kh, kw] =
      some result →
      channels = c ∧ (0 < kh ∧ 0 < kw) ∧
        ((attrs.sweep 0).Fits h kh ∧ (attrs.sweep 1).Fits w kw) ∧
        result = [n, o, (attrs.sweep 0).places h kh,
          (attrs.sweep 1).places w kw]
  infer_auto_padding : ∀ rows cols : ConvAxis, 0 < rows.stride →
    0 < cols.stride →
    opset.infer_auto_padding [0, 0, rows.dim, cols.dim]
      [rows.kernel, cols.kernel]
        [rows.stride, cols.stride] [rows.dilation, cols.dilation] =
      ([(rows.amounts .SAME).2, (cols.amounts .SAME).2],
        [(rows.amounts .SAME).1, (cols.amounts .SAME).1])

/-- What nGraph documents for the elements: every channel is correlated with its
kernel. -/
def Correlates {R : Type} [CommSemiring R] [Inhabited R] {opset : Opset}
    (library : Library R opset) : Prop :=
  ∀ (attrs : Convolution) (data filters result : Tensor R)
    (n c h w o kh kw : Nat), attrs.Planar → data.shape = [n, c, h, w] →
    filters.shape = [o, c, kh, kw] →
    library.convolution attrs data filters = some result →
    ∀ b < n, ∀ k < o, ∀ y < (attrs.sweep 0).places h kh,
    ∀ x < (attrs.sweep 1).places w kw,
      result.get [b, k, y, x] = ∑ channel ∈ Finset.range c,
        correlate (attrs.sweep 0) (attrs.sweep 1) h w kh kw
          (fun row col => data.get [b, channel, row, col])
          (fun i j => filters.get [k, channel, i, j]) y x

section Built

variable {opset : Opset} {rows cols : ConvAxis} {padding : TfPadding}

/-- The pads that are built. -/
def builtPads (padding : TfPadding) (rows cols : ConvAxis) :
    List Int × List Int :=
  match padding with
  | .VALID => ([0, 0], [0, 0])
  | .SAME =>
      ([(rows.amounts .SAME).1, (cols.amounts .SAME).1],
        [(rows.amounts .SAME).2, (cols.amounts .SAME).2])
  | .EXPLICIT => ([], [])

theorem makePadding_eq (rules : ConvolutionRules opset)
    (rowsRegular : rows.Regular) (colsRegular : cols.Regular) :
    makePadding opset padding.text [rows.dim, cols.dim]
    [rows.kernel, cols.kernel]
      [rows.stride, cols.stride]
      [rows.dilation, cols.dilation] = builtPads padding rows cols := by
  cases padding with
  | VALID => exact (if_neg (by decide)).trans (if_pos rfl)
  | EXPLICIT => exact (if_neg (by decide)).trans (if_neg (by decide))
  | SAME =>
      have inferred :=
        rules.infer_auto_padding rows cols rowsRegular.stride.1
          colsRegular.stride.1
      rw [makePadding, TfPadding.text, if_pos rfl, inferred]
      rfl

/-- The attributes that are built. -/
def builtConvolution (padding : TfPadding) (rows cols : ConvAxis) :
    Convolution where
  strides := [rows.stride, cols.stride]
  pads_begin := (builtPads padding rows cols).1
  pads_end := (builtPads padding rows cols).2
  dilations := [rows.dilation, cols.dilation]

theorem builtConvolution_planar :
    (builtConvolution padding rows cols).Planar where
  strides := rfl
  dilations := rfl
  pads := by
    cases padding with
    | VALID => exact .inr ⟨rfl, rfl⟩
    | SAME => exact .inr ⟨rfl, rfl⟩
    | EXPLICIT => exact .inl ⟨rfl, rfl⟩

theorem builtConvolution_sweep :
    (builtConvolution padding rows cols).sweep 0 = rows.sweep padding.built ∧
      (builtConvolution padding rows cols).sweep 1 =
        cols.sweep padding.built := by
  cases padding with
  | VALID => exact ⟨rfl, rfl⟩
  | SAME => exact ⟨rfl, rfl⟩
  | EXPLICIT => exact ⟨rfl, rfl⟩

theorem map_toUnsigned_image {is_nhwc : Bool} {batch depth : Int}
    {row col : Nat} (rowBelow : row < 2 ^ 31) (colBelow : col < 2 ^ 31) :
    (image is_nhwc batch depth (row : Int) col).map toUnsigned =
      image is_nhwc (toUnsigned batch) (toUnsigned depth) row col := by
  have kept : ∀ entry : Nat, entry < 2 ^ 31 →
      toUnsigned (entry : Int) = entry := by
    intro entry below
    rw [toUnsigned, Int.emod_eq_of_lt (by omega) (by omega), Int.toNat_natCast]
  rw [map_image, kept row rowBelow, kept col colBelow]

end Built

end NGraphBridge.NGraphBuilder
