import NGraphBridge.NGraphBuilder.Builder

/-!
# Channel orders

TensorFlow puts the channels of images last, nGraph puts them behind the batch.
-/

namespace NGraphBridge.NGraphBuilder

open NGraph (Shape)
open Axes

def nhwcToNCHW (opset : Opset) (is_nhwc : Bool) (node : Ng) : Translates Ng :=
  if is_nhwc then
    match (node.get_shape opset).length with
    | 4 => constructNgNode opset (.Transpose node [0, 3, 1, 2])
    | 5 => constructNgNode opset (.Transpose node [0, 4, 1, 2, 3])
    | _ => .ok node
  else .ok node

def nchwToNHWC (opset : Opset) (is_nhwc : Bool) (node : Ng) : Translates Ng :=
  if is_nhwc then
    match (node.get_shape opset).length with
    | 4 => constructNgNode opset (.Transpose node [0, 2, 3, 1])
    | 5 => constructNgNode opset (.Transpose node [0, 2, 3, 4, 1])
    | _ => .ok node
  else .ok node

/-- The entries at some places; subscripts are not checked. -/
def entriesAt (src : List Nat) : List Nat → Translates (List Nat)
  | [] => .ok []
  | place :: places =>
      match src[place]? with
      | none => .error .outOfBounds
      | some entry => do
          let entries ← entriesAt src places
          .ok (entry :: entries)

/-- The entries for the spatial axes, of which there are two or three. -/
def nhwcToHW (is_nhwc : Bool) (size : Nat) (src : List Nat) :
    Translates (List Nat) :=
  entriesAt src ((if is_nhwc then [1, 2, 3] else [2, 3, 4]).take size)

/-- The axes of an image in the order of nGraph. -/
def nchwOrder (is_nhwc : Bool) (size : Nat) : List Nat :=
  if is_nhwc then 0 :: (size + 1) :: List.range' 1 size
  else List.range (size + 2)

section Orders

variable {opset : Opset} {is_nhwc : Bool} {size : Nat} {node : Ng}
  {shape : Shape}

theorem isOrder_nchwOrder (isSize : size = 2 ∨ size = 3) :
    IsOrder (nchwOrder is_nhwc size) (size + 2) := by
  cases isSize with
  | inl two => subst two; cases is_nhwc <;> decide
  | inr three => subst three; cases is_nhwc <;> decide

theorem nhwcToHW_eq (isSize : size = 2 ∨ size = 3) {src : List Nat}
    (length : src.length = size + 2) :
    nhwcToHW is_nhwc size src =
      .ok ((permute (nchwOrder is_nhwc size) src).drop 2) := by
  cases isSize with
  | inl two =>
      subst two
      match src, length with
      | [_, _, _, _], _ => cases is_nhwc <;> rfl
  | inr three =>
      subst three
      match src, length with
      | [_, _, _, _, _], _ => cases is_nhwc <;> rfl

theorem permute_nchwOrder (isSize : size = 2 ∨ size = 3) {src : List Nat}
    (length : src.length = size + 2) :
    permute (nchwOrder is_nhwc size) src = src.getD 0 0 ::
      src.getD (if is_nhwc then size + 1 else 1) 0 ::
        (permute (nchwOrder is_nhwc size) src).drop 2 := by
  cases isSize with
  | inl two =>
      subst two
      match src, length with
      | [_, _, _, _], _ => cases is_nhwc <;> rfl
  | inr three =>
      subst three
      match src, length with
      | [_, _, _, _, _], _ => cases is_nhwc <;> rfl

theorem transpose_ok {order : List Nat}
    (isShape : node.shape opset = some shape)
    (isOrder : IsOrder order shape.length) :
    constructNgNode opset (.Transpose node order) =
      .ok (.Transpose node order) := by
  apply constructNgNode_ok
  rw [Ng.shape, isShape]
  exact if_pos isOrder

theorem nhwcToNCHW_eq (isSize : size = 2 ∨ size = 3)
    (isShape : node.shape opset = some shape) (rank : shape.length = size + 2) :
    nhwcToNCHW opset true node =
      .ok (.Transpose node (nchwOrder true size)) := by
  have isOrder : IsOrder (nchwOrder true size) shape.length :=
    rank.symm ▸ isOrder_nchwOrder isSize
  have built := transpose_ok isShape isOrder
  have length : (node.get_shape opset).length = size + 2 := by
    rw [Ng.get_shape_eq isShape, rank]
  rw [nhwcToNCHW, if_pos rfl, length]
  cases isSize with
  | inl two => subst two; exact built
  | inr three => subst three; exact built

theorem nchwToNHWC_eq (isSize : size = 2 ∨ size = 3)
    (isShape : node.shape opset = some shape) (rank : shape.length = size + 2) :
    nchwToNHWC opset true node =
      .ok (.Transpose node (inverse (nchwOrder true size))) := by
  have isOrder : IsOrder (inverse (nchwOrder true size)) shape.length :=
    rank.symm ▸ (isOrder_nchwOrder isSize).inverse
  have built := transpose_ok isShape isOrder
  have length : (node.get_shape opset).length = size + 2 := by
    rw [Ng.get_shape_eq isShape, rank]
  rw [nchwToNHWC, if_pos rfl, length]
  cases isSize with
  | inl two => subst two; exact built
  | inr three => subst three; exact built

end Orders

end NGraphBridge.NGraphBuilder
