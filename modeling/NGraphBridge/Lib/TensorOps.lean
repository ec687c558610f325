import NGraphBridge.Lib.Tensor

/-!
# Padding, concatenation and row-major order

Padding goes axis by axis and concatenation along one axis, so that both commute
with a transposition.  Giving a tensor another shape does not, unless the axes
of more than one entry keep their order.
-/

namespace NGraphBridge.Tensor

open Axes

inductive PadMode where
  | CONSTANT | EDGE | REFLECT | SYMMETRIC
  deriving DecidableEq, Repr

/-- A dimension, and how many entries are added before and after it. -/
abbrev PadAxis := Nat × Int × Int

/-- The entry that is repeated at a place of a padded axis. -/
def padSource (mode : PadMode) (axis : PadAxis) (i : Nat) : Option Nat :=
  let place : Int := i - axis.2.1
  let dim : Int := axis.1
  match mode with
  | .CONSTANT => if 0 ≤ place ∧ place < dim then some place.toNat else none
  | .EDGE => if dim = 0 then none else some (max 0 (min place (dim - 1))).toNat
  | .REFLECT =>
      if dim = 0 then none else if dim = 1 then some 0
      else
        let turned := place % (2 * (dim - 1))
        some (if turned < dim then turned else 2 * (dim - 1) - turned).toNat
  | .SYMMETRIC =>
      if dim = 0 then none
      else
        let turned := place % (2 * dim)
        some (if turned < dim then turned else 2 * dim - 1 - turned).toNat

/-- The padded dimension.  There is nothing to repeat on an empty axis. -/
def padDim (mode : PadMode) (axis : PadAxis) : Option Nat :=
  let size := axis.1 + axis.2.1 + axis.2.2
  if size < 0 then none
  else if mode ≠ .CONSTANT ∧ axis.1 = 0 ∧ size ≠ 0 then none
  else some size.toNat

def padAxes (shape : List Nat) (before after : List Int) : List PadAxis :=
  shape.zip (before.zip after)

def padShape (mode : PadMode) (before after : List Int) (shape : List Nat) :
    Option (List Nat) :=
  if before.length = shape.length ∧ after.length = shape.length then
    collect (padDim mode) (padAxes shape before after)
  else none

section Pad

variable {V : Type*} [Inhabited V]

/-- Where the element at an index of the padded tensor is read, unless it is
padding. -/
def padIndex (mode : PadMode) (axes : List PadAxis) (index : List Nat) :
    Option (List Nat) :=
  collect id (List.zipWith (padSource mode) axes index)

def pad (mode : PadMode) (before after : List Int) (value : V)
    (tensor : Tensor V) : Option (Tensor V) :=
  (padShape mode before after tensor.shape).map fun shape =>
    ofFn shape fun index =>
    match padIndex mode (padAxes tensor.shape before after) index with
    | some source => tensor.get source
    | none => value

variable {mode : PadMode} {order shape index : List Nat}
  {before after : List Int}

theorem length_padAxes (beforeLength : before.length = shape.length)
    (afterLength : after.length = shape.length) :
    (padAxes shape before after).length = shape.length := by
  rw [padAxes, List.length_zip, List.length_zip]
  omega

theorem padShape_inv {padded : List Nat}
    (fits : padShape mode before after shape = some padded) :
    before.length = shape.length ∧ after.length = shape.length ∧
    padded.length = shape.length := by
  unfold padShape at fits
  split at fits
  · next lengths =>
      have padded := (collect_iff.mp fits).length_eq
      rw [length_padAxes lengths.1 lengths.2] at padded
      exact ⟨lengths.1, lengths.2, padded.symm⟩
  · exact absurd fits (by simp)

theorem padAxes_permute (isOrder : IsOrder order shape.length)
    (beforeLength : before.length = shape.length)
    (afterLength : after.length = shape.length) :
    padAxes (permute order shape) (permute order before) (permute order after) =
      permute order (padAxes shape before after) := by
  have pairs : (before.zip after).length = shape.length := by
    rw [List.length_zip]
    omega
  rw [padAxes, padAxes, permute_zip isOrder.inside pairs.symm,
    permute_zip (beforeLength ▸ isOrder.inside)
      (beforeLength.trans afterLength.symm)]

theorem padShape_permute (isOrder : IsOrder order shape.length)
    (beforeLength : before.length = shape.length)
    (afterLength : after.length = shape.length) :
    padShape mode (permute order before) (permute order after)
      (permute order shape) =
      (padShape mode before after shape).map (permute order) := by
  have lengths := length_padAxes beforeLength afterLength
  have permuted : (permute order before).length = (permute order shape).length ∧
      (permute order after).length = (permute order shape).length := by
    rw [length_permute isOrder.inside,
      length_permute (beforeLength ▸ isOrder.inside),
      length_permute (afterLength ▸ isOrder.inside)]
    exact ⟨rfl, rfl⟩
  rw [padShape, padShape, if_pos permuted, if_pos ⟨beforeLength, afterLength⟩,
    padAxes_permute isOrder beforeLength afterLength,
    collect_permute_eq (lengths ▸ isOrder)]

theorem padIndex_permute {axes : List PadAxis}
    (isOrder : IsOrder order axes.length)
    (lengths : axes.length = index.length) :
    padIndex mode (permute order axes) (permute order index) =
      (padIndex mode axes index).map (permute order) := by
  have isOrderZip :
      IsOrder order (List.zipWith (padSource mode) axes index).length := by
    rwa [List.length_zipWith, ← lengths, Nat.min_self]
  rw [padIndex, padIndex, ← permute_zipWith _ isOrder.inside lengths,
    collect_permute_eq isOrderZip]

theorem padSource_lt {axis : PadAxis} {i source : Nat}
    (found : padSource mode axis i = some source) :
    source < axis.1 := by
  obtain ⟨dim, begin_, end_⟩ := axis
  cases mode with
  | CONSTANT =>
      simp only [padSource] at found
      split at found
      · rw [Option.some.injEq] at found
        dsimp only at *
        omega
      · exact absurd found (by simp)
  | EDGE =>
      simp only [padSource] at found
      split at found
      · exact absurd found (by simp)
      · rw [Option.some.injEq] at found
        dsimp only at *
        omega
  | REFLECT =>
      simp only [padSource] at found
      split at found
      · exact absurd found (by simp)
      · split at found
        · rw [Option.some.injEq] at found
          dsimp only at *
          omega
        · have positive : 0 < 2 * ((dim : Int) - 1) := by omega
          have nonneg :=
            Int.emod_nonneg ((i : Int) - begin_) (Int.ne_of_gt positive)
          have below := Int.emod_lt_of_pos ((i : Int) - begin_) positive
          rw [Option.some.injEq] at found
          dsimp only at *
          split at found <;> omega
  | SYMMETRIC =>
      simp only [padSource] at found
      split at found
      · exact absurd found (by simp)
      · have positive : 0 < 2 * (dim : Int) := by omega
        have nonneg :=
          Int.emod_nonneg ((i : Int) - begin_) (Int.ne_of_gt positive)
        have below := Int.emod_lt_of_pos ((i : Int) - begin_) positive
        rw [Option.some.injEq] at found
        dsimp only at *
        split at found <;> omega

/-- What is repeated is an element of the tensor. -/
theorem valid_padIndex {source : List Nat}
    (beforeLength : before.length = shape.length)
    (afterLength : after.length = shape.length)
    (indexLength : index.length = shape.length)
    (found : padIndex mode (padAxes shape before after) index = some source) :
    Valid shape source := by
  have related := collect_iff.mp found
  have lengths := related.length_eq
  rw [List.length_zipWith, length_padAxes beforeLength afterLength, indexLength,
    Nat.min_self] at lengths
  rw [Valid, List.forall₂_iff_get]
  refine ⟨lengths.symm, fun i bound shapeBound => ?_⟩
  have zipBound :
      i <
        (List.zipWith (padSource mode) (padAxes shape before after)
          index).length :=
    related.length_eq ▸ bound
  have here := related.get zipBound bound
  simp only [List.get_eq_getElem, List.getElem_zipWith, id_eq] at here
  have below := padSource_lt here
  simpa [padAxes] using below

theorem rank_pad {value : V} {tensor padded : Tensor V}
    (computed : pad mode before after value tensor = some padded) :
    padded.rank = tensor.rank := by
  rw [pad, Option.map_eq_some_iff] at computed
  obtain ⟨shape, fits, rfl⟩ := computed
  exact (padShape_inv fits).2.2

/-- To pad a transposed tensor is to pad the tensor by the pads for its own
axes. -/
theorem pad_transpose {value : V} {tensor : Tensor V}
    (isOrder : IsOrder order tensor.rank)
    (beforeLength : before.length = tensor.rank)
    (afterLength : after.length = tensor.rank) :
    pad mode (permute order before) (permute order after) value
      (tensor.transpose order) =
      (pad mode before after value tensor).map (transpose order) := by
  rw [pad, pad, shape_transpose,
    padShape_permute isOrder beforeLength afterLength, Option.map_map,
    Option.map_map]
  cases fits : padShape mode before after tensor.shape with
  | none => rfl
  | some shape =>
      have lengths := length_padAxes beforeLength afterLength
      have shapeLength : shape.length = tensor.rank := (padShape_inv fits).2.2
      have isOrderShape : IsOrder order shape.length := shapeLength ▸ isOrder
      rw [Option.map_some, Option.map_some]
      congr 1
      refine eq_transpose isOrderShape rfl fun index valid => ?_
      have valid : Valid shape index := valid
      have indexLength : index.length = tensor.shape.length :=
        valid.length.trans shapeLength
      rw [Function.comp_apply, get_ofFn _ (valid_permute isOrderShape valid),
        get_ofFn _ valid, padAxes_permute isOrder beforeLength afterLength,
        padIndex_permute (lengths ▸ isOrder) (lengths.trans indexLength.symm)]
      cases found : padIndex mode (padAxes tensor.shape before after) index with
      | none => rfl
      | some source =>
          exact get_transpose_permute isOrder
            (valid_padIndex beforeLength afterLength indexLength found)

end Pad

/-- Two shapes along an axis: the other dimensions have to agree. -/
def appendShape (axis : Nat) (left right : List Nat) : Option (List Nat) :=
  if axis < left.length ∧ left.set axis 0 = right.set axis 0 then
    some (left.set axis (left.getD axis 0 + right.getD axis 0))
  else none

def concatShape (axis : Nat) : List (List Nat) → Option (List Nat)
  | [] => none
  | [shape] => if axis < shape.length then some shape else none
  | shape :: shapes => (concatShape axis shapes).bind (appendShape axis shape)

section Concat

variable {V : Type*} [Inhabited V]

def append (axis : Nat) (left right : Tensor V) : Option (Tensor V) :=
  (appendShape axis left.shape right.shape).map fun shape =>
    ofFn shape fun index =>
    if index.getD axis 0 < left.shape.getD axis 0 then left.get index
    else right.get (index.set axis (index.getD axis 0 - left.shape.getD axis 0))

def concat (axis : Nat) : List (Tensor V) → Option (Tensor V)
  | [] => none
  | [tensor] => if axis < tensor.rank then some tensor else none
  | tensor :: tensors => (concat axis tensors).bind (append axis tensor)

variable {axis : Nat} {order left right index shape : List Nat}
  {shapes : List (List Nat)}

theorem concatShape_cons (axis : Nat) (first second : List Nat)
    (rest : List (List Nat)) :
    concatShape axis (first :: second :: rest) =
      (concatShape axis (second :: rest)).bind (appendShape axis first) :=
  rfl

theorem concat_cons (axis : Nat) (first second : Tensor V)
    (rest : List (Tensor V)) :
    concat axis (first :: second :: rest) = (concat axis (second :: rest)).bind
      (append axis first) :=
  rfl

theorem appendShape_iff : appendShape axis left right = some shape ↔
    axis < left.length ∧ left.set axis 0 = right.set axis 0 ∧
      shape = left.set axis (left.getD axis 0 + right.getD axis 0) := by
  unfold appendShape
  split
  next fits => simp [fits.1, fits.2, eq_comm]
  next differ =>
    simp only [reduceCtorEq, false_iff]
    intro fits
    exact differ ⟨fits.1, fits.2.1⟩

theorem appendShape_length (fits : appendShape axis left right = some shape) :
    left.length = shape.length ∧ right.length = shape.length := by
  obtain ⟨_, same, rfl⟩ := appendShape_iff.mp fits
  have lengths := congrArg List.length same
  rw [List.length_set, List.length_set] at lengths
  exact ⟨(List.length_set).symm, by rw [List.length_set, lengths]⟩

theorem appendShape_permute (isOrder : IsOrder order left.length)
    (lengths : left.length = right.length) (bound : axis < order.length) :
    appendShape axis (permute order left) (permute order right) =
      (appendShape order[axis] left right).map (permute order) := by
  have isOrderRight : IsOrder order right.length := lengths ▸ isOrder
  have axisBelow : axis < (permute order left).length := by
    rwa [length_permute isOrder.inside]
  have placeBelow : order[axis] < left.length :=
    isOrder.inside _ (List.getElem_mem bound)
  rw [appendShape, appendShape, ← permute_set isOrder bound,
    ← permute_set isOrderRight bound, getD_permute isOrder bound,
    getD_permute isOrderRight bound]
  by_cases same : left.set order[axis] 0 = right.set order[axis] 0
  · rw [if_pos ⟨axisBelow, congrArg _ same⟩, if_pos ⟨placeBelow, same⟩,
      Option.map_some, permute_set isOrder bound]
  · have differ : permute order (left.set order[axis] 0) ≠
        permute order (right.set order[axis] 0) := by
      intro permuted
      apply same
      apply permute_injective _ _ permuted
      · rwa [List.length_set]
      · rw [List.length_set, List.length_set, lengths]
    rw [if_neg (fun fits => differ fits.2), if_neg (fun fits => same fits.2),
      Option.map_none]

theorem concatShape_ne_nil (fits : concatShape axis shapes = some shape) :
    shapes ≠ [] := by
  rintro rfl
  exact absurd fits (by simp [concatShape])

theorem concatShape_length (fits : concatShape axis shapes = some shape) :
    axis < shape.length ∧
    ∀ operand ∈ shapes, operand.length = shape.length := by
  induction shapes generalizing shape with
  | nil => exact absurd rfl (concatShape_ne_nil fits)
  | cons first shapes ih =>
      cases shapes with
      | nil =>
          unfold concatShape at fits
          split at fits
          next below =>
            obtain rfl := Option.some.inj fits
            exact ⟨below, by simp⟩
          next => exact absurd fits (by simp)
      | cons second shapes =>
          obtain ⟨rest, found, appended⟩ := Option.bind_eq_some_iff.mp fits
          obtain ⟨firstLength, restLength⟩ := appendShape_length appended
          obtain ⟨below, lengths⟩ := ih found
          refine ⟨restLength ▸ below, fun operand member => ?_⟩
          cases List.mem_cons.mp member with
          | inl isFirst => rw [isFirst, firstLength]
          | inr isLater => rw [lengths operand isLater, restLength]

theorem concatShape_permute {rank : Nat} (isOrder : IsOrder order rank)
    (ranks : ∀ operand ∈ shapes, operand.length = rank)
    (bound : axis < order.length) :
    concatShape axis (shapes.map (permute order)) =
      (concatShape order[axis] shapes).map (permute order) := by
  induction shapes with
  | nil => rfl
  | cons first shapes ih =>
      have firstRank := ranks first (by simp)
      have isOrderFirst : IsOrder order first.length := firstRank ▸ isOrder
      have laterRanks :=
        fun operand member => ranks operand (List.mem_cons_of_mem _ member)
      have placeBelow : order[axis] < first.length :=
        isOrderFirst.inside _ (List.getElem_mem bound)
      cases shapes with
      | nil =>
          have axisBelow : axis < (permute order first).length := by
            rwa [length_permute isOrderFirst.inside]
          rw [List.map_cons, List.map_nil, concatShape, concatShape,
            if_pos axisBelow, if_pos placeBelow, Option.map_some]
      | cons second shapes =>
          have step := ih laterRanks
          rw [List.map_cons, List.map_cons, concatShape_cons, ← List.map_cons,
            step, concatShape_cons]
          cases found : concatShape order[axis] (second :: shapes) with
          | none => rfl
          | some rest =>
              have restRank : first.length = rest.length := by
                rw [firstRank, ← (concatShape_length found).2 second (by simp),
                  laterRanks second (by simp)]
              rw [Option.map_some, Option.bind_some, Option.bind_some,
                appendShape_permute isOrderFirst restRank bound]

theorem shape_append (left right : Tensor V) :
    (append axis left right).map Tensor.shape =
      appendShape axis left.shape right.shape := by
  rw [append, Option.map_map]
  exact Option.map_id'

theorem shape_concat (axis : Nat) (tensors : List (Tensor V)) :
    (concat axis tensors).map Tensor.shape =
      concatShape axis (tensors.map Tensor.shape) := by
  induction tensors with
  | nil => rfl
  | cons first tensors ih =>
      cases tensors with
      | nil =>
          rw [concat, List.map_cons, List.map_nil, concatShape, rank]
          split <;> rfl
      | cons second tensors =>
          rw [List.map_cons] at ih
          rw [concat_cons, List.map_cons, List.map_cons, concatShape_cons, ← ih]
          cases concat axis (second :: tensors) with
          | none => rfl
          | some rest => exact shape_append first rest

theorem rank_concat {tensors : List (Tensor V)} {tensor result : Tensor V}
    (computed : concat axis tensors = some result) (member : tensor ∈ tensors) :
    tensor.rank = result.rank := by
  have shapes := shape_concat axis tensors
  rw [computed, Option.map_some] at shapes
  exact (concatShape_length shapes.symm).2 tensor.shape
    (List.mem_map_of_mem member)

theorem valid_set {dim i : Nat} (below : axis < shape.length)
    (valid : Valid (shape.set axis dim) index) (fits : i < shape.getD axis 0) :
    Valid shape (index.set axis i) := by
  have lengths := valid.length
  rw [List.length_set] at lengths
  rw [Valid, List.forall₂_iff_get]
  refine ⟨by rwa [List.length_set], fun place bound shapeBound => ?_⟩
  have setBound : place < (shape.set axis dim).length := by
    rwa [List.length_set]
  have here := List.Forall₂.get valid (lengths.symm ▸ shapeBound) setBound
  simp only [List.get_eq_getElem, List.getElem_set] at here ⊢
  by_cases same : axis = place
  · subst same
    rw [getD_of_lt below] at fits
    simpa using fits
  · simpa [same] using here

theorem append_transpose {left right : Tensor V}
    (isOrder : IsOrder order left.rank) (ranks : left.rank = right.rank)
    (bound : axis < order.length) :
    append axis (left.transpose order) (right.transpose order) =
      (append order[axis] left right).map (transpose order) := by
  have isOrderRight : IsOrder order right.rank := ranks ▸ isOrder
  have placeBelow : order[axis] < left.shape.length :=
    isOrder.inside _ (List.getElem_mem bound)
  rw [append, append, shape_transpose, shape_transpose,
    appendShape_permute isOrder ranks bound, Option.map_map, Option.map_map]
  cases fits : appendShape order[axis] left.shape right.shape with
  | none => rfl
  | some shape =>
      obtain ⟨leftLength, rightLength⟩ := appendShape_length fits
      obtain ⟨_, same, isShape⟩ := appendShape_iff.mp fits
      have isOrderShape : IsOrder order shape.length := leftLength ▸ isOrder
      rw [Option.map_some, Option.map_some]
      congr 1
      refine eq_transpose isOrderShape rfl fun index valid => ?_
      have valid : Valid shape index := valid
      have isOrderIndex : IsOrder order index.length :=
        valid.length.symm ▸ isOrderShape
      rw [Function.comp_apply, get_ofFn _ (valid_permute isOrderShape valid),
        get_ofFn _ valid, getD_permute isOrderIndex bound,
        getD_permute isOrder bound]
      have place : index.getD order[axis] 0 < shape.getD order[axis] 0 := by
        have indexBound : order[axis] < index.length :=
          valid.length.symm ▸ leftLength ▸ placeBelow
        have shapeBound : order[axis] < shape.length := leftLength ▸ placeBelow
        rw [getD_of_lt indexBound, getD_of_lt shapeBound]
        exact List.Forall₂.get valid indexBound shapeBound
      split
      next below =>
        have unchanged : index.set order[axis] (index.getD order[axis] 0) =
            index := by
          have indexBound : order[axis] < index.length := by
            rw [valid.length, ← leftLength]
            exact placeBelow
          rw [getD_of_lt indexBound, List.set_getElem_self]
        have validLeft := valid_set placeBelow (isShape ▸ valid) below
        rw [unchanged] at validLeft
        exact get_transpose_permute isOrder validLeft
      next above =>
        rw [← permute_set isOrderIndex bound]
        refine get_transpose_permute isOrderRight ?_
        have shapeRight : shape =
            right.shape.set order[axis] (left.shape.getD order[axis] 0 +
              right.shape.getD order[axis] 0) := by
          have again := congrArg (List.set · order[axis]
            (left.shape.getD order[axis] 0 + right.shape.getD order[axis] 0))
            same
          rw [List.set_set, List.set_set] at again
          rw [isShape, again]
        have rightBelow : order[axis] < right.shape.length := by
          rw [rightLength, ← leftLength]
          exact placeBelow
        have inShape : shape.getD order[axis] 0 =
            left.shape.getD order[axis] 0 + right.shape.getD order[axis] 0 := by
          rw [isShape, List.getD_eq_getElem?_getD,
            List.getElem?_set_self placeBelow]
          rfl
        apply valid_set rightBelow (shapeRight ▸ valid)
        omega

/-- To concatenate transposed tensors is to concatenate along the axis that
`axis` was. -/
theorem concat_transpose {rank : Nat} {tensors : List (Tensor V)}
    (isOrder : IsOrder order rank)
    (ranks : ∀ tensor ∈ tensors, tensor.rank = rank)
    (bound : axis < order.length) :
    concat axis (tensors.map (transpose order)) =
      (concat order[axis] tensors).map (transpose order) := by
  induction tensors with
  | nil => rfl
  | cons first tensors ih =>
      have firstRank := ranks first (by simp)
      have isOrderFirst : IsOrder order first.rank := firstRank ▸ isOrder
      have laterRanks :=
        fun tensor member => ranks tensor (List.mem_cons_of_mem _ member)
      have placeBelow : order[axis] < first.rank :=
        isOrderFirst.inside _ (List.getElem_mem bound)
      cases tensors with
      | nil =>
          have axisBelow : axis < (first.transpose order).rank := by
            rw [rank_transpose isOrderFirst, ← isOrderFirst.length]
            exact bound
          rw [List.map_cons, List.map_nil, concat, concat, if_pos axisBelow,
            if_pos placeBelow, Option.map_some]
      | cons second tensors =>
          have step := ih laterRanks
          rw [List.map_cons, List.map_cons, concat_cons, ← List.map_cons, step,
            concat_cons]
          cases found : concat order[axis] (second :: tensors) with
          | none => rfl
          | some rest =>
              have restRank : first.rank = rest.rank := by
                rw [firstRank, ← laterRanks second (by simp)]
                exact rank_concat found List.mem_cons_self
              rw [Option.map_some, Option.bind_some, Option.bind_some,
                append_transpose isOrderFirst restRank bound]

end Concat

end NGraphBridge.Tensor
