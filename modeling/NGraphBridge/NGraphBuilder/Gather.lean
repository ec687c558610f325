import NGraphBridge.NGraphBuilder.Slice

/-!
# Translating `GatherV2`

The indices may have batch dimensions, which an attribute says. The translator
does not read it.
-/

namespace NGraphBridge.NGraphBuilder

open NGraph (Shape)
open TF Tensor

def translateGatherV2Op (opset : Opset) (op : OpNode)
    (static_input_map : StaticInputMap) (ng_op_map : OpMap) :
    Translates OpMap := do
  let inputs ← getInputNodes ng_op_map op 3
  let tf_axis ← getStaticInputInt64s op 2 static_input_map
  if tf_axis.length > 1 then
    .error
      (.status (errors.internal ("Found axis in GatherV2 op (" ++ op.name ++
      ") translation to be non scalar, of size " ++ toString tf_axis.length)))
  else
    match tf_axis with
    | [] => .error .outOfBounds
    | tf_axis :: _ =>
        let ng_input_rank := ((inputs 0).get_shape opset).length
        -- `axis` has 32 bits
        let axis := toSigned 32
          (if tf_axis ≥ 0 then tf_axis else tf_axis + ng_input_rank)
        if axis < 0 ∨ axis ≥ ng_input_rank then
          .error
            (.status (errors.invalidArgument ("Expected axis in the range [-" ++
            toString ng_input_rank ++ ", " ++ toString ng_input_rank ++
            "), but got " ++
            toString tf_axis)))
        else do
          let gather_op ← constructNgNode opset
              (.Gather (inputs 0) (inputs 1) tf_axis)
          .ok (saveNgOp ng_op_map op.name gather_op)

/-- An axis of a shape, counted from the front. -/
def axisPlace (axis : Int) (rank : Nat) : Nat :=
  (if 0 ≤ axis then axis else axis + rank).toNat

/-- What nGraph documents: the indices take the place of the axis. -/
def GatherRules (opset : Opset) : Prop :=
  ∀ (axis : Int) (data indices : Shape), -(data.length : Int) ≤ axis →
    axis < data.length →
    opset.gather axis data indices =
      some (data.take (axisPlace axis data.length) ++ indices ++
      data.drop (axisPlace axis data.length + 1))

/-- Indices that are below a dimension. -/
def InRange {V : Type} [Inhabited V] (toIndex : V → Int) (dim : Nat)
    (indices : Tensor V) : Prop :=
  ∀ index, Valid indices.shape index →
    0 ≤ toIndex (indices.get index) ∧ toIndex (indices.get index) < dim

/-- What nGraph documents for the elements. -/
def Gathers {V : Type} [Inhabited V] {opset : Opset}
    (library : Library V opset) : Prop :=
  ∀ (axis : Int) (data indices result : Tensor V), -(data.rank : Int) ≤ axis →
    axis < data.rank →
    InRange library.toIndex
      (data.shape.getD (axisPlace axis data.rank) 0) indices →
    library.gather axis data indices = some result →
    ∀ before middle behind,
    Valid (data.shape.take (axisPlace axis data.rank)) before →
      Valid indices.shape middle →
      Valid (data.shape.drop (axisPlace axis data.rank + 1)) behind →
        result.get (before ++ middle ++ behind) =
          data.get (before ++ (library.toIndex (indices.get middle)).toNat ::
            behind)

/-- The shapes of the inputs of a `GatherV2`, and what it says of their
dimensions. -/
structure GatherCase where
  params : Shape
  indices : Shape
  axis : Int
  batch_dims : Int
  deriving DecidableEq, Repr

namespace GatherCase

def place (gather : GatherCase) : Nat :=
  axisPlace gather.axis gather.params.length

/-- The number of dimensions that the batch has; a negative one is counted from
the last. -/
def batch (gather : GatherCase) : Nat :=
  axisPlace gather.batch_dims gather.indices.length

/-- The shape of the result in TensorFlow. -/
def outputShape (gather : GatherCase) : Shape :=
  gather.params.take gather.place ++ gather.indices.drop gather.batch ++
    gather.params.drop (gather.place + 1)

/-- What TensorFlow admits. -/
structure Admitted (gather : GatherCase) : Prop where
  axisAbove : -(gather.params.length : Int) ≤ gather.axis
  axisBelow : gather.axis < gather.params.length
  batchAbove : -(gather.indices.length : Int) ≤ gather.batch_dims
  batchBelow : gather.batch_dims ≤ gather.indices.length
  batchBefore : gather.batch ≤ gather.place
  sameBatch : gather.params.take gather.batch = gather.indices.take gather.batch

/-- There are no batch dimensions. -/
def Plain (gather : GatherCase) : Prop :=
  gather.batch_dims = 0 ∨ gather.batch_dims = -(gather.indices.length : Int)

end GatherCase

/-- An op with this attribute and these inputs. -/
structure GatherInputs (opset : Opset) (op : OpNode)
    (static_input_map : StaticInputMap) (ng_op_map : OpMap) (data coords : Ng)
    (gather : GatherCase) : Prop where
  inputs : ∃ nodes, getInputNodes ng_op_map op 3 = .ok nodes ∧ nodes 0 = data ∧
    nodes 1 = coords
  axis : getStaticInputInt64s op 2 static_input_map = .ok [gather.axis]
  batchAttr : getNodeAttrInt op.attrs "batch_dims" = .ok gather.batch_dims
  dataShape : data.shape opset = some gather.params
  coordsShape : coords.shape opset = some gather.indices
  rank : gather.params.length < 2 ^ 31
  admitted : gather.Admitted

/-- TensorFlow's `GatherV2`: the indices of the same batch are used. -/
structure IsGather {V : Type} [Inhabited V] (toIndex : V → Int)
    (gather : GatherCase) (value coords result : Tensor V) : Prop where
  shape : result.shape = gather.outputShape
  element : ∀ before middle behind,
    Valid (gather.params.take gather.place) before →
    Valid (gather.indices.drop gather.batch) middle →
    Valid (gather.params.drop (gather.place + 1)) behind →
      result.get (before ++ middle ++ behind) = value.get (before ++
        (toIndex (coords.get (before.take gather.batch ++ middle))).toNat ::
        behind)

/-- The translation ends with an error, or what is stored is the result of
TensorFlow. -/
def GathersCorrectly (opset : Opset) (op : OpNode)
    (static_input_map : StaticInputMap) (ng_op_map : OpMap) (data coords : Ng)
    (gather : GatherCase) : Prop :=
  (∃ failure, failure ≠ .outOfBounds ∧
    translateGatherV2Op opset op static_input_map ng_op_map = .error failure) ∨
  ∃ node, translateGatherV2Op opset op static_input_map ng_op_map =
      .ok (saveNgOp ng_op_map op.name node) ∧
    node.shape opset = some gather.outputShape ∧
    ∀ (V : Type) [Inhabited V] (library : Library V opset)
      (parameters : Nat → Tensor V) value indices, Gathers library →
      data.eval library parameters = some value →
      coords.eval library parameters = some indices →
      InRange library.toIndex (gather.params.getD gather.place 0) indices →
        ∃ result, node.eval library parameters = some result ∧
          IsGather library.toIndex gather value indices result

section Axis

variable {axis : Int} {rank : Nat}

theorem toSigned_axis (small : rank < 2 ^ 31) (above : -(rank : Int) ≤ axis)
    (below : axis < rank) :
    toSigned 32 (if axis ≥ 0 then axis else axis + rank) =
      axisPlace axis rank := by
  rw [axisPlace]
  by_cases positive : 0 ≤ axis
  · rw [if_pos positive, toSigned_eq (by decide) (by omega) (by omega)]
    omega
  · rw [if_neg positive, toSigned_eq (by decide) (by omega) (by omega)]
    omega

theorem axisPlace_lt (above : -(rank : Int) ≤ axis) (below : axis < rank) :
    axisPlace axis rank < rank := by
  rw [axisPlace]
  split
  next => omega
  next => omega

end Axis

section Translate

variable {opset : Opset} {op : OpNode} {static_input_map : StaticInputMap}
  {ng_op_map : OpMap} {data coords : Ng} {gather : GatherCase}

theorem GatherCase.batch_le (admitted : gather.Admitted) :
    gather.batch ≤ gather.indices.length := by
  have above := admitted.batchAbove
  have below := admitted.batchBelow
  rw [batch, axisPlace]
  split
  next => omega
  next => omega

theorem GatherCase.plain_iff (admitted : gather.Admitted) : gather.Plain ↔
    gather.batch = 0 := by
  have above := admitted.batchAbove
  have below := admitted.batchBelow
  rw [Plain, batch, axisPlace]
  split
  next => omega
  next => omega

theorem GatherInputs.gather_shape
    (inputs : GatherInputs opset op static_input_map ng_op_map data
      coords gather)
    (rules : GatherRules opset) :
    (Ng.Gather data coords gather.axis).shape opset =
      some (gather.params.take gather.place ++ gather.indices ++
        gather.params.drop (gather.place + 1)) := by
  rw [Ng.shape, inputs.dataShape, inputs.coordsShape]
  exact rules _ _ _ inputs.admitted.axisAbove inputs.admitted.axisBelow

/-- The translation does not fail. -/
theorem GatherInputs.translate
    (inputs : GatherInputs opset op static_input_map ng_op_map data
      coords gather)
    (rules : GatherRules opset) :
    translateGatherV2Op opset op static_input_map ng_op_map =
      .ok (saveNgOp ng_op_map op.name (.Gather data coords gather.axis)) := by
  have built := constructNgNode_ok (inputs.gather_shape rules)
  obtain ⟨nodes, found, rfl, rfl⟩ := inputs.inputs
  have axis := toSigned_axis inputs.rank inputs.admitted.axisAbove
    inputs.admitted.axisBelow
  have inside :=
    axisPlace_lt inputs.admitted.axisAbove inputs.admitted.axisBelow
  have accepted : ¬((axisPlace gather.axis gather.params.length : Int) < 0 ∨
      (axisPlace gather.axis gather.params.length : Int) ≥
        gather.params.length) := by omega
  have scalar : ¬[gather.axis].length > 1 := by
    rw [List.length_singleton]
    exact Nat.lt_irrefl 1
  rw [translateGatherV2Op]
  simp only [bind, Except.bind, found, inputs.axis, if_neg scalar,
    Ng.get_shape_eq inputs.dataShape, axis, if_neg accepted, built]

/-- The elements of what is stored. -/
theorem GatherInputs.eval
    (inputs : GatherInputs opset op static_input_map ng_op_map data
      coords gather)
    (rules : GatherRules opset) (plain : gather.batch = 0) {V : Type}
    [Inhabited V] {library : Library V opset} {parameters : Nat → Tensor V}
    {value indices : Tensor V} (gathers : Gathers library)
    (evaluates : data.eval library parameters = some value)
    (indicesEvaluate : coords.eval library parameters = some indices)
    (inRange : InRange library.toIndex (gather.params.getD gather.place 0)
      indices) :
    ∃ result, (Ng.Gather data coords gather.axis).eval library parameters =
      some result ∧
      IsGather library.toIndex gather value indices result := by
  have valueShape :=
    Option.some.inj ((eval_shape evaluates).symm.trans inputs.dataShape)
  have indicesShape :=
    Option.some.inj ((eval_shape indicesEvaluate).symm.trans inputs.coordsShape)
  have valueRank : value.rank = gather.params.length :=
    congrArg List.length valueShape
  have made := library.gather_shape gather.axis value indices
  rw [valueShape, indicesShape,
    rules _ _ _ inputs.admitted.axisAbove inputs.admitted.axisBelow] at made
  obtain ⟨result, gathered, resultShape⟩ := Option.map_eq_some_iff.mp made
  have stored : (Ng.Gather data coords gather.axis).eval library parameters =
      some result := by
    rw [Ng.eval, evaluates, indicesEvaluate]
    exact gathered
  have elements := gathers gather.axis value indices result
  rw [valueRank, valueShape, indicesShape] at elements
  have elements :=
    elements inputs.admitted.axisAbove inputs.admitted.axisBelow
      inRange gathered
  refine ⟨result, stored, ?_, ?_⟩
  · rw [resultShape, GatherCase.outputShape, plain]
    rfl
  · rw [plain]
    intro before middle behind beforeValid middleValid behindValid
    exact elements before middle behind beforeValid middleValid behindValid

theorem GatherCase.outputShape_ne (admitted : gather.Admitted)
    (batched : gather.batch ≠ 0) :
    gather.params.take gather.place ++ gather.indices ++ gather.params.drop
      (gather.place + 1) ≠
      gather.outputShape := by
  intro same
  have lengths := congrArg List.length same
  have below := batch_le admitted
  rw [outputShape] at lengths
  simp only [List.length_append, List.length_drop] at lengths
  omega

theorem GatherInputs.batched
    (inputs : GatherInputs opset op static_input_map ng_op_map data
      coords gather)
    (rules : GatherRules opset) (batched : gather.batch ≠ 0) :
    ¬GathersCorrectly opset op static_input_map ng_op_map data coords
      gather := by
  have translated := inputs.translate rules
  intro correct
  cases correct with
  | inl failed =>
      obtain ⟨failure, _, failed⟩ := failed
      exact absurd (translated.symm.trans failed) (by simp)
  | inr stored =>
      obtain ⟨node, success, shape, _⟩ := stored
      obtain rfl := saveNgOp_injective
        (Except.ok.inj (translated.symm.trans success))
      exact GatherCase.outputShape_ne inputs.admitted batched
        (Option.some.inj ((inputs.gather_shape rules).symm.trans shape))

end Translate

/-- What is stored is TensorFlow's result exactly if there are no batch
dimensions. -/
theorem translateGatherV2Op_iff {opset : Opset} {op : OpNode}
    {static_input_map : StaticInputMap} {ng_op_map : OpMap} {data coords : Ng}
    {gather : GatherCase}
    (inputs : GatherInputs opset op static_input_map ng_op_map data
      coords gather)
    (rules : GatherRules opset) :
    GathersCorrectly opset op static_input_map ng_op_map data coords gather ↔
    gather.Plain := by
  rw [GatherCase.plain_iff inputs.admitted]
  constructor
  · intro correct
    by_contra batched
    exact inputs.batched rules batched correct
  · intro plain
    refine .inr ⟨_, inputs.translate rules, ?_, ?_⟩
    · rw [inputs.gather_shape rules, GatherCase.outputShape, plain]
      rfl
    · intro V _ library parameters value indices gathers evaluates
        indicesEvaluate inRange
      exact inputs.eval rules plain gathers evaluates indicesEvaluate inRange

/-- The rule as nGraph documents it. -/
def gatherOpset : Opset :=
  { noRules with
    gather := fun axis data indices =>
      if -(data.length : Int) ≤ axis ∧ axis < data.length then
        some (data.take (axisPlace axis data.length) ++ indices ++
          data.drop (axisPlace axis data.length + 1))
      else none }

theorem gatherOpset_rules : GatherRules gatherOpset := by
  intro axis data indices above below
  exact if_pos ⟨above, below⟩

section Library

variable {V : Type} [Inhabited V]

/-- The element that is gathered for an index. -/
def gathered (toIndex : V → Int) (place : Nat) (data indices : Tensor V)
    (index : List Nat) : V :=
  data.get (index.take place ++
    (toIndex (indices.get ((index.drop place).take indices.rank))).toNat ::
      index.drop (place + indices.rank))

def gatherLibrary (toIndex : V → Int) : Library V gatherOpset :=
  { defaultLibrary V gatherOpset with
    toIndex := toIndex
    gather := fun axis data indices =>
      (gatherOpset.gather axis data.shape indices.shape).map
        (ofFn · (gathered toIndex (axisPlace axis data.rank) data indices))
    gather_shape := fun _ _ _ => Option.map_map _ _ _ |>.trans Option.map_id' }

theorem gatherLibrary_gathers (toIndex : V → Int) :
    Gathers (gatherLibrary toIndex) := by
  intro axis data indices result above below inRange success before middle
    behind beforeValid middleValid behindValid
  obtain ⟨shape, accepts, rfl⟩ := Option.map_eq_some_iff.mp success
  obtain rfl := Option.some.inj
    ((gatherOpset_rules _ _ _ above below).symm.trans accepts)
  have inside := axisPlace_lt above below
  have beforeLength : before.length = axisPlace axis data.rank := by
    rw [beforeValid.length, List.length_take]
    exact Nat.min_eq_left (Nat.le_of_lt inside)
  have middleLength : middle.length = indices.rank := middleValid.length
  have valid := Valid.append (Valid.append beforeValid middleValid) behindValid
  have dropped :
      (before ++ (middle ++ behind)).drop (axisPlace axis data.rank) =
      middle ++ behind := List.drop_left' beforeLength
  refine (get_ofFn _ valid).trans ?_
  rw [gathered, List.append_assoc, ← List.drop_drop, dropped,
    List.take_left' beforeLength, List.take_left' middleLength,
    List.drop_left' middleLength]
  rfl

end Library

def rowsOp (batch_dims : Int) : OpNode where
  name := "gather"
  type_string := "GatherV2"
  attrs := [("batch_dims", .i batch_dims)]
  listAttrs := []
  floatAttrs := []
  inputs :=
    [(⟨"params", "_Arg", [], none⟩, 0), (⟨"indices", "_Arg", [], none⟩, 0),
    (constNode "axis" .DT_INT32 [1], 0)]

def rowsOpMap : OpMap :=
  [("params", [.Parameter 0 [2, 3]]), ("indices", [.Parameter 1 [2, 1]]),
    ("axis", [.Parameter 2 []])]

def rowsCase (batch_dims : Int) : GatherCase := ⟨[2, 3], [2, 1], 1, batch_dims⟩

theorem rowsOp_inputs {batch_dims : Int}
    (admitted : (rowsCase batch_dims).Admitted) :
    GatherInputs gatherOpset (rowsOp batch_dims)
    [] rowsOpMap (.Parameter 0 [2, 3])
      (.Parameter 1 [2, 1]) (rowsCase batch_dims) where
  inputs := ⟨_, rfl, rfl, rfl⟩
  axis := rfl
  batchAttr := rfl
  dataShape := rfl
  coordsShape := rfl
  rank := (by decide : 2 < 2 ^ 31)
  admitted := admitted

/-- An index of another row is used as well. -/
theorem translateGatherV2Op_rows :
    GatherRules gatherOpset ∧
      GatherInputs gatherOpset (rowsOp 1) [] rowsOpMap (.Parameter 0 [2, 3])
        (.Parameter 1 [2, 1]) (rowsCase 1) ∧
      ¬ GathersCorrectly gatherOpset (rowsOp 1)
      [] rowsOpMap (.Parameter 0 [2, 3])
        (.Parameter 1 [2, 1]) (rowsCase 1) := by
  have inputs := @rowsOp_inputs 1
    ⟨by decide, by decide, by decide, by decide, by decide, rfl⟩
  exact ⟨gatherOpset_rules, inputs,
    inputs.batched gatherOpset_rules (by decide)⟩

/-- Without a batch, with the library above. -/
theorem translateGatherV2Op_iff_plain :
    ∃ node, translateGatherV2Op gatherOpset (rowsOp 0) [] rowsOpMap =
        .ok (saveNgOp rowsOpMap "gather" node) ∧
      ∀ params indices : Tensor Int, params.shape = [2, 3] →
        indices.shape = [2, 1] →
        InRange id 3 indices → ∃ result,
          node.eval (gatherLibrary id)
            (fun i => [params, indices].getD i params) = some result ∧
          IsGather id (rowsCase 0) params indices result := by
  have inputs := @rowsOp_inputs 0
    ⟨by decide, by decide, by decide, by decide, by decide, rfl⟩
  have correct :=
    (translateGatherV2Op_iff inputs gatherOpset_rules).mpr (.inl rfl)
  cases correct with
  | inl failed =>
      obtain ⟨failure, _, failed⟩ := failed
      exact absurd ((inputs.translate gatherOpset_rules).symm.trans failed)
        (by simp)
  | inr stored =>
      obtain ⟨node, translated, _, elements⟩ := stored
      refine ⟨node, translated, ?_⟩
      intro params indices paramsShape indicesShape inRange
      apply elements Int (gatherLibrary id) _ params indices
        (gatherLibrary_gathers id)
      · exact if_pos paramsShape
      · exact if_pos indicesShape
      · exact inRange

end NGraphBridge.NGraphBuilder
