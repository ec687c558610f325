import NGraphBridge.TransposeSinking.Entries

/-!
# What a sunk concatenation computes

If all arguments are in one order, their transposes are done behind a
concatenation along another axis. Otherwise they are done in front of it.
-/

namespace NGraphBridge.TransposeSinking

open NGraph (Output Shape)
open Tensor Axes

/-- A concatenation, and the orders of the transposes that are pending behind
what it reads. -/
structure ConcatOperands (state : State) (n axis : Nat) (iargs : List Output)
    (order : Output → List Nat) (rank : Nat) (out : Shape) : Prop where
  op : (state.heap.node n).op = .Concat axis
  inputs : (state.heap.node n).input_values = iargs
  outputs : (state.heap.node n).output_shapes = [out]
  nonempty : iargs ≠ []
  pending : ∀ iarg ∈ iargs, ∃ t, Pending state iarg rank t (order iarg)
  valid : concatShape axis (iargs.map (entryShape state)) = some out
  others : ∀ iarg ∈ iargs, iarg.node ≠ n
  below : n < state.heap.size
  inputsBelow : ∀ id < state.heap.size,
    ∀ input ∈ (state.heap.node id).input_values, input.node < state.heap.size
  entries : ∀ output t, state.reorders output = some t →
    t < state.heap.size ∧ t ≠ n
  deletedBelow : ∀ t ∈ state.transposes_to_delete, t < state.heap.size
  notDeleted : n ∉ state.transposes_to_delete

/-- Values for the arguments, and for nothing that the rule makes or changes. -/
structure KnowsArgs {V : Type} (state : State) (n : Nat) (iargs : List Output)
    (rank : Nat) (known : Output → Option (Tensor V)) (x : Output → Tensor V) :
    Prop where
  args : ∀ iarg ∈ iargs, known iarg = some (x iarg)
  ranks : ∀ iarg ∈ iargs, (x iarg).rank = rank
  concat : known ⟨n, 0⟩ = none
  new : ∀ id, state.heap.size ≤ id → known ⟨id, 0⟩ = none

/-- A new concatenation of the same arguments takes the place of the old one,
and computes what is to be transposed. -/
def ConcatSinks (state after : State) (n axis : Nat) (iargs : List Output)
    (rank : Nat) (order : List Nat) : Prop :=
  ∃ new new_axis t, order[axis]? = some new_axis ∧ state.heap.size ≤ new ∧
    (∀ id < state.heap.size, after.heap.node id = { state.heap.node id with
      input_values := (state.heap.node id).input_values.map (rename n new) }) ∧
    (after.heap.node new).op = .Concat new_axis ∧
    (after.heap.node new).input_values = iargs ∧
    after.reorders ⟨new, 0⟩ = some t ∧
    (after.heap.node t).op = .Transpose order ∧
    ∀ (V : Type) [Inhabited V] (other : Inference) (library : Library V other)
      (known : Output → Option (Tensor V)) (x : Output → Tensor V),
      KnowsArgs state n iargs rank known x →
      (Tensor.concat new_axis (iargs.map x)).map (transpose order) =
        Tensor.concat axis (iargs.map fun iarg => (x iarg).transpose order) ∧
      ∀ value, Tensor.concat new_axis (iargs.map x) = some value →
        Evaluates library known after.transposes_to_delete after.heap
          ⟨new, 0⟩ value

/-- The concatenation stays where it is and reads its arguments in their orders;
what it computes is not to be transposed. -/
def ConcatStays (state after : State) (n axis : Nat) (iargs : List Output)
    (rank : Nat) (order : Output → List Nat) (out : Shape) : Prop :=
  (after.heap.node n).op = .Concat axis ∧
    (∀ id < state.heap.size, id ≠ n → after.heap.node id = state.heap.node id) ∧
    (after.heap.node n).input_values.length = iargs.length ∧
    (∀ j iarg, iargs[j]? = some iarg → Materialized state after n j iarg) ∧
    (∃ t, after.reorders ⟨n, 0⟩ = some t ∧
      (after.heap.node t).op = .Transpose (getDefaultOrder out)) ∧
    ∀ (V : Type) [Inhabited V] (other : Inference) (library : Library V other)
      (known : Output → Option (Tensor V)) (x : Output → Tensor V),
      KnowsArgs state n iargs rank known x → ∀ value,
      Tensor.concat axis
        (iargs.map fun iarg => (x iarg).transpose (order iarg)) = some value →
        Evaluates library known after.transposes_to_delete after.heap
          ⟨n, 0⟩ value

theorem Evaluates.concat {V : Type} [Inhabited V] {other : Inference}
    {library : Library V other} {known : Output → Option (Tensor V)}
    {deleted : List Nat} {heap : Heap} {id axis : Nat}
    {values : List (Tensor V)} {value : Tensor V}
    (unknown : known ⟨id, 0⟩ = none) (notDeleted : id ∉ deleted)
    (isConcat : (heap.node id).op = .Concat axis)
    (lengths : values.length = (heap.node id).input_values.length)
    (args : ∀ (i : Nat) input arg, (heap.node id).input_values[i]? =
      some input →
      values[i]? = some arg → Evaluates library known deleted heap input arg)
    (computed : Tensor.concat axis values = some value) :
    Evaluates library known deleted heap ⟨id, 0⟩ value := by
  have applied : (heap.node id).op.apply library values = some [value] := by
    rw [isConcat, Op.apply, computed]
    rfl
  exact .node unknown (fun both => notDeleted both.1) lengths args applied rfl

section ConcatOperands

variable {state : State} {n axis rank : Nat} {iargs : List Output}
  {order : Output → List Nat} {out : Shape}

theorem Pending.entryShape_length {iarg : Output} {t : Nat} {axes : List Nat}
    (pending : Pending state iarg rank t axes) :
    (entryShape state iarg).length = rank := by
  rw [entryShape, pending.entry, ← pending.isOrder.length]
  exact pending.isTranspose.shape_length

theorem ConcatOperands.shapes_length
    (operands : ConcatOperands state n axis iargs order rank out)
    {shape : Shape} (member : shape ∈ iargs.map (entryShape state)) :
    shape.length = rank := by
  obtain ⟨iarg, isArg, rfl⟩ := List.mem_map.mp member
  obtain ⟨_, pending⟩ := operands.pending iarg isArg
  exact pending.entryShape_length

theorem ConcatOperands.axis_lt
    (operands : ConcatOperands state n axis iargs order rank out) :
    axis < rank := by
  obtain ⟨first, isArg⟩ := List.exists_mem_of_ne_nil iargs operands.nonempty
  have member := List.mem_map_of_mem (f := entryShape state) isArg
  obtain ⟨below, lengths⟩ := concatShape_length operands.valid
  rw [← operands.shapes_length member, lengths _ member]
  exact below

theorem ConcatOperands.isOrder
    (operands : ConcatOperands state n axis iargs order rank out)
    {iarg : Output} (isArg : iarg ∈ iargs) : IsOrder (order iarg) rank := by
  obtain ⟨_, pending⟩ := operands.pending iarg isArg
  exact pending.isOrder

/-- The dummies can be concatenated along the axis that `axis` was. -/
theorem ConcatOperands.dummyValid
    (operands : ConcatOperands state n axis iargs order rank out)
    {axes : List Nat} (isOrder : IsOrder axes rank)
    (bound : axis < axes.length) :
    ∃ dummy_shape, concatShape axes[axis]
      ((iargs.map (entryShape state)).map (permute (inverse axes))) =
      some dummy_shape := by
  have ranks :
      ∀ dummy ∈ (iargs.map (entryShape state)).map (permute (inverse axes)),
      dummy.length = rank := by
    intro dummy member
    obtain ⟨shape, isShape, rfl⟩ := List.mem_map.mp member
    have length := operands.shapes_length isShape
    rw [length_permute (length.symm ▸ isOrder.inverse.inside), length_inverse,
      isOrder.length]
  have restored :
      ((iargs.map (entryShape state)).map (permute (inverse axes))).map
        (permute axes) =
      iargs.map (entryShape state) := by
    rw [List.map_map]
    conv_rhs => rw [← List.map_id (iargs.map (entryShape state))]
    apply List.map_congr_left
    intro shape isShape
    exact permute_inverse ((operands.shapes_length isShape).symm ▸ isOrder)
  have permuted := concatShape_permute isOrder ranks bound
  rw [restored, operands.valid] at permuted
  obtain ⟨dummy_shape, found, _⟩ := Option.map_eq_some_iff.mp permuted.symm
  exact ⟨dummy_shape, found⟩

theorem ConcatOperands.first
    (operands : ConcatOperands state n axis iargs order rank out) :
    ∃ first rest, iargs = first :: rest :=
  List.exists_cons_of_ne_nil operands.nonempty

theorem ConcatOperands.ordered
    (operands : ConcatOperands state n axis iargs order rank out)
    {iarg : Output} (isArg : iarg ∈ iargs) :
    Ordered state (order iarg) iarg (entryShape state iarg) := by
  obtain ⟨_, pending⟩ := operands.pending iarg isArg
  exact pending.ordered

theorem sinkConcat_sinks
    (operands : ConcatOperands state n axis iargs order rank out)
    {axes : List Nat} (same : ∀ iarg ∈ iargs, order iarg = axes) :
    ∃ after, sinkConcat n axis state = .ok after ∧
    ConcatSinks state after n axis iargs rank axes := by
  obtain ⟨first, rest, isCons⟩ := operands.first
  have isFirst : first ∈ iargs := by
    rw [isCons]
    exact List.mem_cons_self
  have isOrder : IsOrder axes rank :=
    same first isFirst ▸ operands.isOrder isFirst
  have bound : axis < axes.length := isOrder.length.symm ▸ operands.axis_lt
  obtain ⟨dummy_shape, valid⟩ := operands.dummyValid isOrder bound
  have ordered :
      List.Forall₂ (Ordered state axes) iargs
        (iargs.map (entryShape state)) := by
    rw [List.forall₂_map_right_iff, List.forall₂_same]
    intro iarg isArg
    exact same iarg isArg ▸ operands.ordered isArg
  obtain ⟨after, new, success, above, size, old, _, isNew, isTranspose, _,
    reorders, deleted, _⟩ :=
    sinkConcat_ok (operands.inputs.trans isCons) (isCons ▸ operands.others)
      (isOrder.length.symm ▸ isOrder) (isCons ▸ ordered)
      (List.getElem?_eq_getElem bound) valid
  refine ⟨after, success, new, axes[axis], new + 1,
    List.getElem?_eq_getElem bound, above, old, congrArg Node.op isNew, ?_, ?_,
    congrArg Node.op isTranspose, ?_⟩
  · rw [isNew, isCons]
  · rw [reorders]
    exact Function.update_self _ _ _
  · intro V _ other library known x knows
    constructor
    · have ranks : ∀ tensor ∈ iargs.map x, tensor.rank = rank := by
        intro tensor member
        obtain ⟨iarg, isArg, rfl⟩ := List.mem_map.mp member
        exact knows.ranks iarg isArg
      rw [← concat_transpose isOrder ranks bound, List.map_map]
      rfl
    · intro value computed
      have notDeleted : new ∉ after.transposes_to_delete := by
        rw [deleted]
        exact fun isDeleted => absurd (operands.deletedBelow new isDeleted)
          (Nat.not_lt.mpr above)
      have inputs : (after.heap.node new).input_values = iargs := by
        rw [isNew, isCons]
      apply Evaluates.concat (knows.new new above) notDeleted
        (congrArg Node.op isNew)
        ((List.length_map x).trans (congrArg List.length inputs.symm))
        _ computed
      intro i input arg atInput atValue
      rw [inputs] at atInput
      rw [List.getElem?_map, atInput] at atValue
      obtain rfl := Option.some.inj atValue
      exact .known (knows.args input (List.mem_of_getElem? atInput))

theorem sinkConcat_stays
    (operands : ConcatOperands state n axis iargs order rank out)
    (differ : ¬ ∃ axes, ∀ iarg ∈ iargs, order iarg = axes) :
    ∃ after, sinkConcat n axis state = .ok after ∧
      ConcatStays state after n axis iargs rank order out := by
  obtain ⟨first, rest, isCons⟩ := operands.first
  have isFirst : first ∈ iargs := by
    rw [isCons]
    exact List.mem_cons_self
  have isOrder := operands.isOrder isFirst
  have other : ∃ iarg ∈ iargs, order iarg ≠ order first := by
    apply Classical.byContradiction
    intro none
    refine differ ⟨order first, fun iarg isArg => ?_⟩
    exact Classical.byContradiction fun different =>
      none ⟨iarg, isArg, different⟩
  have barrier : sinkConcat n axis state = materializeShapes n state := by
    apply sinkConcat_other (operands.inputs.trans isCons)
      (isOrder.length.symm ▸ isOrder) (operands.ordered isFirst)
    · intro iarg isArg
      exact ⟨_, _, operands.ordered (isCons ▸ isArg)⟩
    · obtain ⟨iarg, isArg, different⟩ := other
      exact ⟨iarg, isCons ▸ isArg, _, _, operands.ordered isArg, different⟩
  have pendings : ∀ input ∈ (state.heap.node n).input_values, input.node ≠ n ∧
      ∃ rank t axes, Pending state input rank t axes := by
    rw [operands.inputs]
    intro input isArg
    obtain ⟨t, pending⟩ := operands.pending input isArg
    exact ⟨operands.others input isArg, rank, t, _, pending⟩
  obtain ⟨after, success, effect, _, length, defaults, materialized⟩ :=
    materializeShapes_ok operands.inputsBelow (fun output t isEntry =>
      (operands.entries output t isEntry).1) operands.deletedBelow
        operands.below pendings
  rw [operands.inputs] at length materialized
  have op := (effect.ops n operands.below).trans operands.op
  have isDefault : Defaulted state after n 0 := by
    apply defaults
    rw [operands.outputs]
    exact Nat.one_pos
  obtain ⟨t, recorded, _, _, isTranspose⟩ := isDefault
  have shape : state.heap.get_shape ⟨n, 0⟩ = out := by
    rw [Heap.get_shape, operands.outputs]
    rfl
  have unchanged : ∀ id < state.heap.size, id ≠ n →
      after.heap.node id = state.heap.node id := by
    intro id below different
    have inputs := effect.inputs id below different
    rw [rename_map_self] at inputs
    have ops := effect.ops id below
    have shapes := effect.shapes id below
    generalize after.heap.node id = node at *
    generalize state.heap.node id = oldNode at *
    cases node
    cases oldNode
    simp only [Node.mk.injEq]
    exact ⟨ops, inputs, shapes⟩
  refine ⟨after, barrier.trans success, op, unchanged, length, materialized,
    ⟨t, recorded, by rw [isTranspose, shape]⟩, ?_⟩
  intro V _ other library known x knows value computed
  have notDeleted : n ∉ after.transposes_to_delete := by
    intro isDeleted
    obtain isOld | ⟨output, isEntry⟩ | isNew := effect.deleted n isDeleted
    · exact operands.notDeleted isOld
    · exact (operands.entries output n isEntry).2 rfl
    · exact absurd operands.below (Nat.not_lt.mpr isNew.1)
  apply Evaluates.concat knows.concat notDeleted op
    ((List.length_map _).trans length.symm) _
    computed
  intro i input arg atInput atValue
  rw [List.getElem?_map] at atValue
  obtain ⟨iarg, atArg, rfl⟩ := Option.map_eq_some_iff.mp atValue
  have isArg := List.mem_of_getElem? atArg
  obtain ⟨t', pending⟩ := operands.pending iarg isArg
  obtain ⟨t, axes, isEntry, isOp, reads⟩ := materialized i iarg atArg
  obtain rfl := Option.some.inj (pending.entry.symm.trans isEntry)
  obtain rfl := Op.Transpose.inj (pending.isTranspose.op.symm.trans isOp)
  have isOrderX : IsOrder (order iarg) (x iarg).rank :=
    knows.ranks iarg isArg ▸ pending.isOrder
  cases reads with
  | inl direct =>
      obtain ⟨default, atPlace⟩ := direct
      have same : input = iarg := Option.some.inj (atInput.symm.trans atPlace)
      rw [same, default, pending.defaultOrder, ← knows.ranks iarg isArg,
        transpose_range]
      exact .known (knows.args iarg isArg)
  | inr inserted =>
      obtain ⟨id, shapes, atPlace, above, _, isNode, stays⟩ := inserted
      obtain rfl := Option.some.inj (atInput.symm.trans atPlace)
      apply Evaluates.single (knows.new id above) stays
        (congrArg Node.input_values isNode) (.known (knows.args iarg isArg))
      rw [isNode, Op.apply, if_pos isOrderX]

/-- The transposes of the arguments are done behind the concatenation if they
are in one order, and in front of it if they are not. -/
theorem sinkConcat_value
    (operands : ConcatOperands state n axis iargs order rank out) :
    ∃ after, sinkConcat n axis state = .ok after ∧
      (∀ axes, (∀ iarg ∈ iargs, order iarg = axes) →
        ConcatSinks state after n axis iargs rank axes) ∧
      ((¬ ∃ axes, ∀ iarg ∈ iargs, order iarg = axes) →
        ConcatStays state after n axis iargs rank order out) := by
  by_cases same : ∃ axes, ∀ iarg ∈ iargs, order iarg = axes
  · obtain ⟨axes, isSame⟩ := same
    obtain ⟨after, success, sinks⟩ := sinkConcat_sinks operands isSame
    refine ⟨after, success, fun axes' isSame' => ?_,
      fun differ => absurd ⟨axes, isSame⟩ differ⟩
    obtain ⟨first, isArg⟩ := List.exists_mem_of_ne_nil iargs operands.nonempty
    rw [← isSame' first isArg, isSame first isArg]
    exact sinks
  · obtain ⟨after, success, stays⟩ := sinkConcat_stays operands same
    exact ⟨after, success, fun axes isSame => absurd ⟨axes, isSame⟩ same,
      fun _ => stays⟩

end ConcatOperands

/-- Between two steps, what is asked of a concatenation and its arguments
holds. -/
theorem Shaped.concatOperands {other : Inference} {f : Function} {n axis : Nat}
    {todo : List Nat} {current : Nat → Nat} {state : State}
    (inv : Inv f (n :: todo) current state)
    (shaped : Shaped f (n :: todo) current state)
    (inferred : infer other (f.heap.node n).op
      ((f.heap.node n).input_values.map f.heap.get_shape) =
      some (f.heap.node n).output_shapes)
    (op : (f.heap.node n).op = .Concat axis) :
    ConcatOperands state n axis
      ((f.heap.node n).input_values.map (moved current)) (entryOrder state)
      (f.heap.get_shape ⟨n, 0⟩).length (f.heap.get_shape ⟨n, 0⟩) := by
  rw [op] at inferred
  obtain ⟨out, valid, outs⟩ := infer_concat inferred
  have lengths := (concatShape_length valid).2
  have shape := get_shape_of outs
  have isArg : ∀ iarg ∈ (f.heap.node n).input_values.map (moved current),
      ∃ input ∈
      (f.heap.node n).input_values, moved current input = iarg :=
    fun _ => List.mem_map.mp
  have entryShapes :
      ((f.heap.node n).input_values.map (moved current)).map
        (entryShape state) =
      (f.heap.node n).input_values.map f.heap.get_shape := by
    rw [List.map_map]
    apply List.map_congr_left
    intro input member
    obtain ⟨t, _, pending⟩ := inv.pending member
    rw [Function.comp_apply, entryShape, pending.entry]
    exact shaped.input inv member pending
  refine ⟨(inv.ops n inv.nodeBelow).trans op, inv.input_values,
    (inv.shapes n inv.nodeBelow).trans (shape.symm ▸ outs), ?nonempty, ?pending,
    ?valid, ?others, inv.nodeBelowState, inv.inputsBelow, ?entries,
    inv.deletedBelow, inv.notDeleted⟩
  case nonempty =>
    intro isNil
    exact concatShape_ne_nil valid
      (by rw [List.map_eq_nil_iff.mp isNil, List.map_nil])
  case pending =>
    intro iarg member
    obtain ⟨input, isInput, rfl⟩ := isArg iarg member
    obtain ⟨t, _, pending⟩ := inv.pending isInput
    have rank := lengths _ (List.mem_map_of_mem isInput)
    rw [pending.entryOrder, shape, ← rank]
    exact ⟨t, pending⟩
  case valid => rw [entryShapes, shape, valid]
  case others =>
    intro iarg member
    obtain ⟨input, isInput, rfl⟩ := isArg iarg member
    exact inv.input_ne isInput
  case entries =>
    intro output t recorded
    have above := (inv.entries output t recorded).2.1
    exact ⟨inv.entryBelow output t recorded,
      Nat.ne_of_gt (Nat.lt_of_lt_of_le inv.nodeBelow above)⟩

/-- Two parameters, each behind a transpose, are concatenated. -/
def concatFunction : Function where
  heap := .ofList
    [⟨.Parameter [2, 3], [], [[2, 3]]⟩, ⟨.Parameter [2, 4], [], [[2, 4]]⟩,
    ⟨.Transpose [1, 0], [⟨0, 0⟩], [[3, 2]]⟩,
    ⟨.Transpose [1, 0], [⟨1, 0⟩], [[4, 2]]⟩,
    ⟨.Concat 0, [⟨2, 0⟩, ⟨3, 0⟩], [[7, 2]]⟩, ⟨.Result, [⟨4, 0⟩], [[7, 2]]⟩]
  ops := [0, 1, 2, 3, 4, 5]
  results := [5]

/-- The state in which the main loop comes to the concatenation. -/
def concatState : State :=
  (sinkNodes [0, 1, 2, 3] concatFunction.init).toOption.getD
    concatFunction.init

theorem concatFunction_wellFormed :
    WellFormed (fun _ _ => none) concatFunction :=
  .of_range rfl (by decide) (by decide) (by decide) (by decide)

theorem concatState_operands : ConcatOperands concatState 4 0 [⟨8, 0⟩, ⟨9, 0⟩]
    (entryOrder concatState) 2 [7, 2] := by
  have start := Inv.init concatFunction_wellFormed
  have notYet : Shaped concatFunction concatFunction.ops id
      concatFunction.init :=
    fun n below notTodo =>
      absurd ((concatFunction_wellFormed.ops n).mpr below) notTodo
  have run := @Shaped.sinkNodes (fun _ _ => none) concatFunction id
    _ concatState [0, 1, 2, 3] [4, 5] (by decide) start notYet (by decide) rfl
  exact Shaped.concatOperands run.1 run.2
    (concatFunction_wellFormed.inferred 4 (by decide)) rfl

theorem sinkConcat_value_same :
    ∃ after, sinkConcat 4 0 concatState = .ok after ∧
    (∀ axes, (∀ iarg ∈ [⟨8, 0⟩, ⟨9, 0⟩], entryOrder concatState iarg = axes) →
      ConcatSinks concatState after 4 0 [⟨8, 0⟩, ⟨9, 0⟩] 2 axes) ∧
    ((¬ ∃ axes, ∀ iarg ∈ [⟨8, 0⟩, ⟨9, 0⟩], entryOrder concatState iarg = axes) →
      ConcatStays concatState after 4 0
        [⟨8, 0⟩, ⟨9, 0⟩] 2 (entryOrder concatState) [7, 2]) :=
  sinkConcat_value concatState_operands

end NGraphBridge.TransposeSinking
