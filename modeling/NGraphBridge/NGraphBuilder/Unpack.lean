import NGraphBridge.NGraphBuilder.SplitV

/-!
# Translating `Unpack`

The entries of an axis are sliced out one by one.
-/

namespace NGraphBridge.NGraphBuilder

open NGraph (Shape)
open TF Tensor

/-- `vector[place] = value`; the subscript is not checked. -/
def writeAt (vector : List Int) (place value : Int) : Translates (List Int) :=
  if 0 ≤ place ∧ place < vector.length then .ok (vector.set place.toNat value)
  else .error .outOfBounds

/-- The body of the loop for output `i`. -/
def unpackSlice (ng_input : Ng) (rank : Nat) (tf_axis : Int) (i : Nat) :
    Translates Ng := do
  let begin_ ← writeAt (List.replicate rank 0) tf_axis i
  let end_ ← writeAt (List.replicate rank 0) tf_axis (i + 1)
  let begin_mask ← writeAt (List.replicate rank 1) tf_axis 0
  let end_mask ← writeAt (List.replicate rank 1) tf_axis 0
  let new_axis_mask := List.replicate rank 0
  let shrink_axis_mask ← writeAt (List.replicate rank 0) tf_axis 1
  .ok (.StridedSlice ng_input begin_ end_ begin_mask end_mask new_axis_mask
      shrink_axis_mask)

/-- The loop from output `i` on. -/
def unpackOutputs (opset : Opset) (op_name : String) (ng_input : Ng)
    (rank : Nat) (tf_axis : Int) :
    Nat → Nat → OpMap → Translates OpMap
  | _, 0, ng_op_map => .ok ng_op_map
  | i, count + 1, ng_op_map => do
      let node ← unpackSlice ng_input rank tf_axis i
      let slice ← constructNgNode opset node
      unpackOutputs opset op_name ng_input rank tf_axis (i + 1) count
        (saveNgOp ng_op_map op_name slice)

def translateUnpackOp (opset : Opset) (op : OpNode) (ng_op_map : OpMap) :
    Translates OpMap := do
  validateInputCount op 1
  let ng_input ← getInputNode ng_op_map op 0
  let tf_axis ← returnIfError (getNodeAttrInt op.attrs "axis")
  let num_outputs ← returnIfError (getNodeAttrInt op.attrs "num")
  unpackOutputs opset op.name ng_input
    (ng_input.get_shape opset).length tf_axis 0
    num_outputs.toNat ng_op_map

/-- An op whose input is a tensor with an axis of as many entries as there are
outputs. -/
structure UnpackInputs (opset : Opset) (op : OpNode) (ng_op_map : OpMap)
    (data : Ng) (shape : Shape) (axis : Int) (num : Nat) : Prop where
  count : op.inputs.length = 1
  input : getInputNode ng_op_map op 0 = .ok data
  axisAttr : getNodeAttrInt op.attrs "axis" = .ok axis
  numAttr : getNodeAttrInt op.attrs "num" = .ok num
  isShape : data.shape opset = some shape
  axisAbove : -(shape.length : Int) ≤ axis
  axisBelow : axis < shape.length
  isNum : shape[splitAxis axis shape.length]? = some num

/-- Every output is stored, and is the entry at its place of the axis. -/
def UnpacksCorrectly (opset : Opset) (op : OpNode) (ng_op_map : OpMap)
    (data : Ng) (rank : Nat) (axis : Int) (num : Nat) : Prop :=
  ∃ after slices, translateUnpackOp opset op ng_op_map = .ok after ∧
    after.outputs op.name = ng_op_map.outputs op.name ++ slices ∧
    slices.length = num ∧
    ∀ i slice, slices[i]? = some slice →
      ∀ (V : Type) [Inhabited V] (library : Library V opset)
        (parameters : Nat → Tensor V) value, data.eval library parameters =
          some value →
          slice.eval library parameters =
            some (value.entry (splitAxis axis rank) i)

section Plan

variable {shape : Shape} {axis dim i : Nat}

theorem mapM_some {α β : Type} {f : α → Option β} {g : α → β} {items : List α}
    (each : ∀ item ∈ items, f item = some (g item)) :
    items.mapM f = some (items.map g) := by
  induction items with
  | nil => rfl
  | cons item items ih =>
      rw [List.forall_mem_cons] at each
      rw [List.mapM_cons, each.1, ih each.2]
      rfl

theorem entryAxes_eq_map :
    entryAxes shape axis i = (List.range shape.length).map fun j =>
      if j = axis then (i, none) else (0, some (shape.getD j 0)) := by
  induction shape generalizing axis with
  | nil => rfl
  | cons first shape ih =>
      rw [List.length_cons, List.range_succ_eq_map, List.map_cons, List.map_map]
      cases axis with
      | zero =>
          have rest : (shape.map fun dim => ((0, some dim) : SliceAxis)) =
              (List.range shape.length).map fun j =>
                (0, some (shape.getD j 0)) := by
            apply List.ext_getElem (by simp)
            intro j below _
            rw [List.length_map] at below
            simp [below]
          rw [entryAxes, rest]
          rfl
      | succ axis =>
          rw [entryAxes, ih]
          simp only [Function.comp_def, Nat.succ_eq_add_one,
            Nat.add_right_cancel_iff, List.getD_cons_succ]
          rfl

theorem getD_set_replicate {rank j : Nat} {value other : Int}
    (below : axis < rank) (inside : j < rank) :
    ((List.replicate rank other).set axis value).getD j 0 =
      if j = axis then value else other := by
  rw [List.getD_eq_getElem?_getD, List.getElem?_set]
  by_cases same : axis = j
  · rw [if_pos same, if_pos same.symm, if_pos (by simpa using below),
      Option.getD_some]
  · rw [if_neg same, if_neg (Ne.symm same), List.getElem?_replicate,
      if_pos inside, Option.getD_some]

/-- The bounds and masks of an output take one entry of the axis and all of the
others. -/
theorem slicePlan_entry (isDim : shape[axis]? = some dim) (inside : i < dim) :
    slicePlan shape ((List.replicate shape.length 0).set axis i)
      ((List.replicate shape.length 0).set axis (i + 1))
      ((List.replicate shape.length 1).set axis 0)
      ((List.replicate shape.length 1).set axis 0)
      (List.replicate shape.length 0)
      ((List.replicate shape.length 0).set axis 1) =
        some (entryAxes shape axis i) := by
  have below : axis < shape.length := (List.getElem?_eq_some_iff.mp isDim).1
  have noNew : (1 : Int) ∉ List.replicate shape.length 0 := by simp
  have isAxis : shape.getD axis 0 = dim := by
    rw [List.getD_eq_getElem?_getD, isDim, Option.getD_some]
  rw [slicePlan, if_neg noNew, entryAxes_eq_map]
  apply mapM_some
  intro j member
  have bound := List.mem_range.mp member
  have bounded :
      j < ((List.replicate shape.length (0 : Int)).set axis i).length := by
    rw [List.length_set, List.length_replicate]
    exact bound
  rw [if_pos bounded]
  simp only [getD_set_replicate below bound]
  by_cases same : j = axis
  · subst same
    have notTurned : ¬ ((i : Int) < 0) := by omega
    simp only [if_true, planAxis, decide_true, notTurned, if_false, isAxis,
      Int.toNat_natCast]
    rw [if_pos (by omega)]
  · simp [same, planAxis]

end Plan

section Outputs

variable {opset : Opset} {data : Ng} {shape : Shape} {axis num : Nat}

/-- The node of output `i` where the axis is not negative. -/
def entrySlice (data : Ng) (rank axis i : Nat) : Ng :=
  .StridedSlice data ((List.replicate rank 0).set axis i)
    ((List.replicate rank 0).set axis (i + 1))
    ((List.replicate rank 1).set axis 0) ((List.replicate rank 1).set axis 0)
    (List.replicate rank 0) ((List.replicate rank 0).set axis 1)

theorem writeAt_inside {rank : Nat} {other value : Int} (below : axis < rank) :
    writeAt (List.replicate rank other) axis value =
      .ok ((List.replicate rank other).set axis value) := by
  rw [writeAt, List.length_replicate, if_pos (by omega), Int.toNat_natCast]

theorem unpackSlice_eq {rank i : Nat} (below : axis < rank) :
    unpackSlice data rank axis i = .ok (entrySlice data rank axis i) := by
  rw [unpackSlice]
  simp only [bind, Except.bind, writeAt_inside below]
  rfl

theorem unpackSlice_negative {rank i : Nat} {tf_axis : Int}
    (negative : tf_axis < 0) :
    unpackSlice data rank tf_axis i = .error .outOfBounds := by
  have outside {other value : Int} :
      writeAt (List.replicate rank other) tf_axis value =
        .error .outOfBounds := by
    rw [writeAt, if_neg (by omega)]
  rw [unpackSlice]
  simp only [bind, Except.bind, outside]

theorem entrySlice_shape {i : Nat} (isShape : data.shape opset = some shape)
    (isNum : shape[axis]? = some num) (inside : i < num) :
    (entrySlice data shape.length axis i).shape opset =
      some (sliceShape (entryAxes shape axis i)) := by
  rw [entrySlice, Ng.shape, isShape]
  simp only [bind, Option.bind_some, slicePlan_entry isNum inside]

theorem entrySlice_eval {V : Type} [Inhabited V] {library : Library V opset}
    {parameters : Nat → Tensor V} {value : Tensor V} {i : Nat}
    (isShape : data.shape opset = some shape) (isNum : shape[axis]? = some num)
    (inside : i < num) (evaluates : data.eval library parameters = some value) :
    (entrySlice data shape.length axis i).eval library parameters =
      some (value.entry axis i) := by
  have same : shape = value.shape := by
    rw [eval_shape evaluates] at isShape
    exact (Option.some.inj isShape).symm
  subst same
  have below : axis < value.rank := (List.getElem?_eq_some_iff.mp isNum).1
  rw [entrySlice, Ng.eval, evaluates]
  simp only [bind, Option.bind_some, slicePlan_entry isNum inside,
    slice_entry i below]

theorem unpackOutputs_ok {op_name : String} {i count : Nat} {ng_op_map : OpMap}
    (isShape : data.shape opset = some shape) (isNum : shape[axis]? = some num)
    (inside : i + count ≤ num) :
    ∃ after, unpackOutputs opset op_name data shape.length axis i count
      ng_op_map = .ok after ∧
      after.outputs op_name = ng_op_map.outputs op_name ++
        (List.range' i count).map (entrySlice data shape.length axis) := by
  induction count generalizing i ng_op_map with
  | zero => exact ⟨ng_op_map, rfl, (List.append_nil _).symm⟩
  | succ count ih =>
      have below : axis < shape.length := (List.getElem?_eq_some_iff.mp isNum).1
      have built := constructNgNode_ok
        (entrySlice_shape isShape isNum (by omega : i < num))
      obtain ⟨after, rest, outputs⟩ := @ih (i + 1)
        (saveNgOp ng_op_map op_name (entrySlice data shape.length axis i))
        (by omega)
      refine ⟨after, ?_, ?_⟩
      · rw [unpackOutputs, unpackSlice_eq below]
        simp only [bind, Except.bind, built]
        exact rest
      · rw [outputs, outputs_saveNgOp_self, List.append_assoc, List.range'_succ,
          List.map_cons, List.singleton_append]

end Outputs

section Translate

variable {opset : Opset} {op : OpNode} {ng_op_map : OpMap} {data : Ng}
  {shape : Shape} {axis : Int} {num : Nat}

theorem UnpackInputs.translate
    (inputs : UnpackInputs opset op ng_op_map data shape axis num) :
    translateUnpackOp opset op ng_op_map =
      unpackOutputs opset op.name data shape.length axis 0 num ng_op_map := by
  have enough : validateInputCount op 1 = .ok () :=
    if_neg (not_not_intro inputs.count)
  have isShape := Ng.get_shape_eq inputs.isShape
  rw [translateUnpackOp, inputs.axisAttr, inputs.numAttr]
  simp only [bind, Except.bind, enough, inputs.input, returnIfError, isShape,
    Int.toNat_natCast]

/-- The outputs are right unless the axis is negative and there is an output to
write it for. -/
theorem translateUnpackOp_iff
    (inputs : UnpackInputs opset op ng_op_map data shape axis num) :
    UnpacksCorrectly opset op ng_op_map data shape.length axis num ↔ 0 ≤ axis ∨
    num = 0 := by
  constructor
  · intro correct
    obtain ⟨after, _, success, _⟩ := correct
    by_contra outside
    obtain ⟨negative, several⟩ := not_or.mp outside
    obtain ⟨count, rfl⟩ := Nat.exists_eq_succ_of_ne_zero several
    rw [inputs.translate, unpackOutputs,
      unpackSlice_negative (Int.not_le.mp negative)] at success
    exact absurd success (by simp [bind, Except.bind])
  · intro condition
    cases condition with
    | inl nonneg =>
        obtain ⟨place, rfl⟩ := Int.eq_ofNat_of_zero_le nonneg
        have isNum := inputs.isNum
        have isPlace : splitAxis (place : Int) shape.length = place := by
          rw [splitAxis, if_neg (Int.not_lt.mpr nonneg), Int.toNat_natCast]
        rw [isPlace] at isNum
        obtain ⟨after, success, outputs⟩ :=
          @unpackOutputs_ok _ _ _ _ _ op.name 0 num ng_op_map
            inputs.isShape isNum (by omega)
        rw [← List.range_eq_range'] at outputs
        refine ⟨after, _, inputs.translate.trans success, outputs, by simp, ?_⟩
        intro i slice stored V _ library parameters value evaluates
        obtain ⟨inside, rfl⟩ := List.getElem?_eq_some_iff.mp stored
        rw [List.length_map, List.length_range] at inside
        rw [List.getElem_map, List.getElem_range, isPlace]
        exact entrySlice_eval inputs.isShape isNum inside evaluates
    | inr none =>
        subst none
        refine ⟨ng_op_map, [], inputs.translate, (List.append_nil _).symm, rfl,
          ?_⟩
        intro i slice stored
        exact absurd stored (by simp)

end Translate

/-- An `Unpack` of two outputs. -/
def unpackOp (axis : Int) : OpNode where
  name := "unpack"
  type_string := "Unpack"
  attrs := [("axis", .i axis), ("num", .i 2)]
  listAttrs := []
  floatAttrs := []
  inputs := [(⟨"x", "_Arg", [], none⟩, 0)]

def unpackOpMap : OpMap := [("x", [.Parameter 0 [2]])]

/-- The only axis is counted from the end. -/
theorem translateUnpackOp_negative :
    UnpackInputs noRules (unpackOp (-1)) unpackOpMap (.Parameter 0 [2])
    [2] (-1) 2 ∧
      ¬ UnpacksCorrectly noRules (unpackOp (-1)) unpackOpMap
        (.Parameter 0 [2]) 1 (-1) 2 := by
  refine ⟨⟨rfl, rfl, rfl, rfl, rfl, by decide, by decide, rfl⟩,
    fun correct => ?_⟩
  obtain ⟨after, _, success, _⟩ := correct
  exact nomatch success

theorem translateUnpackOp_iff_zero :
    UnpacksCorrectly noRules (unpackOp 0) unpackOpMap
      (.Parameter 0 [2]) 1 0 2 :=
  (translateUnpackOp_iff ⟨rfl, rfl, rfl, rfl, rfl, by decide,
        by decide, rfl⟩).mpr
    (.inl (Int.le_refl 0))

end NGraphBridge.NGraphBuilder
