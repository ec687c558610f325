import NGraphBridge.TransposeSinking.Sinks

/-!
# Sinking through a concatenation

Arguments in one order are concatenated along another axis; a dummy stands for
each of them while the shape is inferred.
-/

namespace NGraphBridge.TransposeSinking

open NGraph (Output Shape)
open Tensor Axes

def addLabels (heap : Heap) : List Shape → Heap
  | [] => heap
  | shape :: shapes => addLabels (heap.add (labelNode shape)) shapes

/-- The outputs of nodes that are made one after the other. -/
def outputsFrom (id : Nat) : Nat → List Output
  | 0 => []
  | count + 1 => ⟨id, 0⟩ :: outputsFrom (id + 1) count

section Labels

variable {heap : Heap} {shapes : List Shape}

theorem addLabels_size :
    (addLabels heap shapes).size = heap.size + shapes.length := by
  induction shapes generalizing heap with
  | nil => rfl
  | cons shape shapes ih =>
      rw [addLabels, ih, Heap.add_size, List.length_cons]
      omega

theorem addLabels_node {id : Nat} (below : id < heap.size) :
    (addLabels heap shapes).node id = heap.node id := by
  induction shapes generalizing heap with
  | nil => rfl
  | cons shape shapes ih =>
      rw [addLabels, ih (Nat.lt_succ_of_lt below), Heap.add_node below]

theorem addLabels_inputs {id : Nat} (above : heap.size ≤ id)
    (below : id < (addLabels heap shapes).size) :
    ((addLabels heap shapes).node id).input_values = [] := by
  induction shapes generalizing heap with
  | nil => exact absurd below (Nat.not_lt.mpr above)
  | cons shape shapes ih =>
      rw [addLabels] at below ⊢
      by_cases same : id = heap.size
      · rw [same, addLabels_node (Nat.lt_succ_self _), Heap.add_node_self]
        rfl
      · apply ih _ below
        rw [Heap.add_size]
        omega

theorem outputsFrom_shapes :
    (outputsFrom heap.size shapes.length).map
      (addLabels heap shapes).get_shape = shapes := by
  induction shapes generalizing heap with
  | nil => rfl
  | cons shape shapes ih =>
      rw [List.length_cons, outputsFrom, List.map_cons, addLabels]
      have rest := @ih (heap.add (labelNode shape))
      rw [Heap.add_size] at rest
      rw [rest, Heap.get_shape, addLabels_node (Nat.lt_succ_self _),
        Heap.add_node_self]
      rfl

end Labels

/-- An argument has a transpose of an order behind it, of a shape. -/
def Ordered (state : State) (order : List Nat) (iarg : Output)
    (shape : Shape) : Prop :=
  ∃ t < state.heap.size, state.reorders iarg = some t ∧
    (state.heap.node t).op = .Transpose order ∧
    state.heap.get_shape ⟨t, 0⟩ = shape ∧
    shape.length = order.length

theorem Ordered.add {state : State} {order : List Nat} {iarg : Output}
    {shape : Shape} {node : Node} (ordered : Ordered state order iarg shape) :
    Ordered { state with heap := state.heap.add node } order iarg shape := by
  obtain ⟨t, below, entry, op, stored, length⟩ := ordered
  refine ⟨t, Nat.lt_succ_of_lt below, entry, ?_, ?_, length⟩
  · exact (congrArg Node.op (Heap.add_node below)).trans op
  · exact (Heap.add_get_shape below).trans stored

/-- All arguments are in one order. -/
theorem concatArgs_same {state : State} {order : List Nat} {iargs : List Output}
    {shapes : List Shape} (isOrder : IsOrder order order.length)
    (ordered : List.Forall₂ (Ordered state order) iargs shapes) :
    concatArgs order (inverse order) iargs state =
      .ok (some (outputsFrom state.heap.size
      (shapes.map (permute (inverse order))).length,
        addLabels state.heap (shapes.map (permute (inverse order))))) := by
  induction iargs generalizing state shapes with
  | nil =>
      cases ordered with
      | nil => rfl
  | cons iarg iargs ih =>
      cases ordered with
      | @cons _ shape _ shapes first rest =>
          obtain ⟨t, _, entry, op, stored, length⟩ := first
          have permuted := @applyPermutation_ok _ _ (inverse order) shape
            (length.symm ▸ isOrder.inverse)
          have made : state.heap.make (.Label (permute (inverse order) shape))
              [] =
              .ok (state.heap.size,
                state.heap.add (labelNode (permute (inverse order) shape))) :=
            Heap.make_ok rfl
          have later := @ih { state with
            heap := state.heap.add (labelNode (permute (inverse order) shape)) }
            shapes (rest.imp fun _ _ isOrdered => isOrdered.add)
          have same : ¬ state.heap.get_axis_vector_val t ≠ order :=
            not_not_intro (get_axis_vector_val_eq op)
          unfold concatArgs
          simp only [bind, Except.bind, readTransposemap_ok entry]
          rw [if_neg same]
          simp only [stored, permuted, made, later]
          rfl

/-- One of the arguments is in another order. -/
theorem concatArgs_other {state : State} {order : List Nat}
    {iargs : List Output} (isOrder : IsOrder order order.length)
    (ordered : ∀ iarg ∈ iargs, ∃ another shape,
      Ordered state another iarg shape)
    (other : ∃ iarg ∈ iargs, ∃ another shape, Ordered state another iarg shape ∧
      another ≠ order) :
    concatArgs order (inverse order) iargs state = .ok none := by
  induction iargs generalizing state with
  | nil =>
      obtain ⟨_, member, _⟩ := other
      exact absurd member (by simp)
  | cons iarg iargs ih =>
      obtain ⟨another, shape, isOrdered⟩ := ordered iarg List.mem_cons_self
      obtain ⟨t, _, entry, op, stored, length⟩ := isOrdered
      have axes := get_axis_vector_val_eq op
      unfold concatArgs
      simp only [bind, Except.bind, readTransposemap_ok entry]
      by_cases same : another = order
      · subst same
        have permuted := @applyPermutation_ok _ _ (inverse another) shape
          (length.symm ▸ isOrder.inverse)
        have made : state.heap.make (.Label (permute (inverse another) shape))
            [] =
            .ok (state.heap.size,
              state.heap.add (labelNode (permute (inverse another) shape))) :=
          Heap.make_ok rfl
        have later := @ih { state with
          heap := state.heap.add (labelNode (permute (inverse another) shape)) }
          (by
            intro input member
            obtain ⟨order, shape, isOrdered⟩ :=
            ordered input (List.mem_cons_of_mem _ member)
            exact ⟨order, shape, isOrdered.add⟩)
          (by
            obtain ⟨input, member, order, shape, isOrdered, differ⟩ := other
            cases List.mem_cons.mp member with
            | inl isFirst =>
                obtain ⟨t', _, entry', op', _⟩ := isOrdered
                rw [isFirst] at entry'
                obtain rfl := Option.some.inj (entry.symm.trans entry')
                exact absurd (Op.Transpose.inj (op'.symm.trans op)) differ
            | inr isLater =>
                exact ⟨input, isLater, order, shape, isOrdered.add, differ⟩)
        rw [if_neg (not_not_intro axes)]
        simp only [stored, permuted, made, later]
        rfl
      · rw [if_pos (axes.trans_ne same)]

/-- What `sink_concat` builds over the dummies: the new concatenation reads the
arguments of the old one, and takes its place. -/
def concatHeap (heap : Heap) (n : Nat) (concat : Node)
    (inputs : List Output) : Heap :=
  ((heap.add concat).set heap.size
      { concat with input_values := inputs }).replace_node n heap.size

section ConcatHeap

variable {heap : Heap} {n id : Nat} {concat : Node} {inputs : List Output}

theorem concatHeap_node (below : id < heap.size) :
    (concatHeap heap n concat inputs).node id = { heap.node id with
      input_values :=
        (heap.node id).input_values.map (rename n heap.size) } := by
  rw [concatHeap, Heap.replace_node_node, Heap.set_node_ne (Nat.ne_of_lt below),
    Heap.add_node below]

theorem concatHeap_node_new (others : ∀ input ∈ inputs, input.node ≠ n) :
    (concatHeap heap n concat inputs).node heap.size =
      { concat with input_values := inputs } := by
  have isNew :
      ((heap.add concat).set heap.size
        { concat with input_values := inputs }).node heap.size =
        { concat with input_values := inputs } := Heap.set_node_self
  rw [concatHeap, Heap.replace_node_inputs_ne, isNew]
  rw [isNew]
  exact others

theorem concatHeap_get_shape :
    (concatHeap heap n concat inputs).get_shape ⟨heap.size, 0⟩ =
      concat.output_shapes.getD 0 [] := by
  have isNew :
      ((heap.add concat).set heap.size
        { concat with input_values := inputs }).node heap.size =
        { concat with input_values := inputs } := Heap.set_node_self
  rw [concatHeap, Heap.replace_node_get_shape, Heap.get_shape, isNew]

end ConcatHeap

section Concat

variable {f : Function} {n : Nat} {todo : List Nat} {current : Nat → Nat}
  {state : State}

theorem sinkConcat_other {first : Output} {rest : List Output} {axis : Nat}
    {order : List Nat} {shape : Shape}
    (inputs : (state.heap.node n).input_values = first :: rest)
    (isOrder : IsOrder order order.length)
    (isFirst : Ordered state order first shape)
    (ordered : ∀ iarg ∈ first :: rest, ∃ another shape,
      Ordered state another iarg shape)
    (other : ∃ iarg ∈ first :: rest, ∃ another shape,
      Ordered state another iarg shape ∧ another ≠ order) :
    sinkConcat n axis state = materializeShapes n state := by
  have read : state.heap.input_value n 0 = first := input_value_of inputs rfl
  obtain ⟨t, _, entry, op, _⟩ := isFirst
  unfold sinkConcat
  simp only [bind, Except.bind, read, readTransposemap_ok entry,
    get_axis_vector_val_eq op, permutationToDefaultOrder_ok isOrder, inputs,
    concatArgs_other isOrder ordered other]

/-- The new concatenation reads the arguments of the old one, and takes its
place. -/
theorem sinkConcat_ok {first : Output} {rest : List Output}
    {axis new_axis : Nat} {order : List Nat} {shapes : List Shape}
    {dummy_shape : Shape}
    (inputs : (state.heap.node n).input_values = first :: rest)
    (others : ∀ input ∈ first :: rest, input.node ≠ n)
    (isOrder : IsOrder order order.length)
    (ordered : List.Forall₂ (Ordered state order) (first :: rest) shapes)
    (isAxis : order[axis]? = some new_axis)
    (valid : concatShape new_axis (shapes.map (permute (inverse order))) =
      some dummy_shape) :
    ∃ after concat, sinkConcat n axis state = .ok after ∧
      state.heap.size ≤ concat ∧ after.heap.size = concat + 2 ∧
      (∀ id < state.heap.size, after.heap.node id = { state.heap.node id with
        input_values :=
          (state.heap.node id).input_values.map (rename n concat) }) ∧
      (∀ id, state.heap.size ≤ id → id < concat →
        (after.heap.node id).input_values = []) ∧
      after.heap.node concat =
        ⟨.Concat new_axis, first :: rest, [dummy_shape]⟩ ∧
      after.heap.node (concat + 1) =
        ⟨.Transpose order, [⟨concat, 0⟩], [permute order dummy_shape]⟩ ∧
      dummy_shape.length = order.length ∧
      after.reorders = Function.update state.reorders ⟨concat, 0⟩
        (some (concat + 1)) ∧
      after.transposes_to_delete = state.transposes_to_delete ∧
      after.orig_result_out_shape = state.orig_result_out_shape := by
  have read : state.heap.input_value n 0 = first := input_value_of inputs rfl
  have entry : ∃ t, state.reorders first = some t ∧
      (state.heap.node t).op = .Transpose order := by
    cases ordered with
    | cons isFirst _ =>
        obtain ⟨t, _, entry, op, _⟩ := isFirst
        exact ⟨t, entry, op⟩
  obtain ⟨firstEntry, entry, op⟩ := entry
  have dummies := concatArgs_same isOrder ordered
  have dummyShapes :=
    @outputsFrom_shapes state.heap (shapes.map (permute (inverse order)))
  have labelsSize :=
    @addLabels_size state.heap (shapes.map (permute (inverse order)))
  have labelsNode := fun id below =>
    @addLabels_node state.heap (shapes.map (permute (inverse order))) id below
  have labelsInputs := fun id above below =>
    @addLabels_inputs state.heap (shapes.map (permute (inverse order))) id
      above below
  generalize addLabels state.heap (shapes.map (permute (inverse order))) =
      labels at *
  generalize outputsFrom state.heap.size
      (shapes.map (permute (inverse order))).length = args at *
  have labelsAbove : state.heap.size ≤ labels.size :=
    labelsSize ▸ Nat.le_add_right _ _
  -- node `labels.size` is the new concatenation, the next its pending transpose
  generalize isConcat : Node.mk (.Concat new_axis) args [dummy_shape] = concat
  have made : labels.make (.Concat new_axis) args =
      .ok (labels.size, labels.add concat) := by
    rw [← isConcat]
    apply Heap.make_ok
    rw [dummyShapes, infer, valid, Option.map_some]
  have built :
      ((labels.add concat).set labels.size
        { (labels.add concat).node labels.size with
      input_values := first :: rest }).replace_node n labels.size =
        concatHeap labels n concat (first :: rest) := by
    rw [Heap.add_node_self]
    rfl
  have newShape :
      (concatHeap labels n concat (first :: rest)).get_shape ⟨labels.size, 0⟩ =
      dummy_shape := by
    rw [concatHeap_get_shape, ← isConcat]
    rfl
  have rank : dummy_shape.length = order.length := by
    cases ordered with
    | @cons _ shape _ shapes isFirst _ =>
        obtain ⟨_, _, _, _, _, length⟩ := isFirst
        have lengths :=
          (concatShape_length valid).2 (permute (inverse order) shape) (by simp)
        rw [← lengths, length_permute (length.symm ▸ isOrder.inverse.inside),
          length_inverse]
  have isOrderNew : IsOrder order dummy_shape.length := rank.symm ▸ isOrder
  have transposeMade :
      makeTranspose (concatHeap labels n concat (first :: rest))
        ⟨labels.size, 0⟩ order = .ok (labels.size + 1,
        (concatHeap labels n concat (first :: rest)).add
        ((concatHeap labels n concat (first :: rest)).transposeOf
          ⟨labels.size, 0⟩ order)) := by
    apply Heap.makeTranspose_ok
    rw [newShape]
    exact isOrderNew
  have success : sinkConcat n axis state = .ok (writeTransposemap { state with
      heap := (concatHeap labels n concat (first :: rest)).add
        ((concatHeap labels n concat (first :: rest)).transposeOf
          ⟨labels.size, 0⟩ order) }
      ⟨labels.size, 0⟩ (labels.size + 1)) := by
    unfold sinkConcat
    simp only [bind, Except.bind, read, readTransposemap_ok entry,
      get_axis_vector_val_eq op, permutationToDefaultOrder_ok isOrder, inputs,
      dummies, isAxis, made, built, transposeMade]
  refine ⟨_, labels.size, success, labelsAbove, rfl, ?_, ?_, ?_, ?_, rank,
    rfl, rfl, rfl⟩
  · intro id below
    have belowLabels := Nat.lt_of_lt_of_le below labelsAbove
    refine (Heap.add_node (Nat.lt_succ_of_lt belowLabels)).trans ?_
    rw [concatHeap_node belowLabels, labelsNode id below]
  · intro id above below
    refine (congrArg Node.input_values
        (Heap.add_node (Nat.lt_succ_of_lt below))).trans ?_
    rw [concatHeap_node below, labelsInputs id above below]
    rfl
  · refine (Heap.add_node (Nat.lt_succ_self _)).trans ?_
    rw [concatHeap_node_new others, ← isConcat]
  · refine Heap.add_node_self.trans ?_
    rw [Heap.transposeOf, newShape]

theorem Inv.sinkConcat_same (inv : Inv f (n :: todo) current state)
    {first : Output} {rest : List Output} {axis new_axis : Nat}
    {order : List Nat} {shapes : List Shape} {dummy_shape : Shape}
    (inputs : (state.heap.node n).input_values = first :: rest)
    (isOrder : IsOrder order order.length)
    (ordered : List.Forall₂ (Ordered state order) (first :: rest) shapes)
    (isAxis : order[axis]? = some new_axis)
    (valid : concatShape new_axis (shapes.map (permute (inverse order))) =
      some dummy_shape) :
    ∃ after concat t, sinkConcat n axis state = .ok after ∧
      Effect state after n concat ∧
      after.orig_result_out_shape = state.orig_result_out_shape ∧
      concat = after.heap.size - 2 ∧
      after.reorders ⟨n, 0⟩ = state.reorders ⟨n, 0⟩ ∧
      after.heap.node concat =
        ⟨.Concat new_axis, first :: rest, [dummy_shape]⟩ ∧
      after.heap.node t =
        ⟨.Transpose order, [⟨concat, 0⟩], [permute order dummy_shape]⟩ ∧
      after.reorders ⟨concat, 0⟩ = some t ∧
      after.transposes_to_delete = state.transposes_to_delete := by
  have others : ∀ input ∈ first :: rest, input.node ≠ n := by
    intro input member
    rw [← inputs, inv.input_values, List.mem_map] at member
    obtain ⟨source, isSource, rfl⟩ := member
    exact inv.input_ne isSource
  have inputsBelow : ∀ input ∈ first :: rest, input.node < state.heap.size := by
    intro input member
    rw [← inputs] at member
    exact inv.inputsBelow n inv.nodeBelowState input member
  obtain ⟨after, concat, success, above, size, isOld, isLabel, isConcat,
    isTranspose, rank, reorders, deleted, original⟩ :=
    sinkConcat_ok inputs others isOrder ordered isAxis valid
  have unchanged : after.reorders ⟨n, 0⟩ = state.reorders ⟨n, 0⟩ := by
    rw [reorders]
    apply Function.update_of_ne
    intro same
    have same : n = concat := congrArg Output.node same
    have nodeBelow := inv.nodeBelowState
    omega
  have recorded : after.reorders ⟨concat, 0⟩ = some (concat + 1) := by
    rw [reorders]
    exact Function.update_self _ _ _
  have pending : IsTranspose after.heap (concat + 1) order := by
    refine ⟨_, _, isTranspose, Nat.lt_succ_self _, ?_⟩
    rw [length_permute (rank.symm ▸ isOrder.inside)]
  have reads : ∀ id, state.heap.size ≤ id → id < after.heap.size →
      ∀ arg ∈ (after.heap.node id).input_values, arg = ⟨concat, 0⟩ ∨
      arg ∈ first :: rest := by
    intro id idAbove idBelow arg member
    have places : id < concat ∨ id = concat ∨ id = concat + 1 := by omega
    rcases places with isDummy | rfl | rfl
    · rw [isLabel id idAbove isDummy] at member
      exact absurd member (by simp)
    · rw [isConcat] at member
      exact .inr member
    · rw [isTranspose] at member
      exact .inl (List.mem_singleton.mp member)
  refine ⟨after, concat, concat + 1, success, ?_, original, by omega,
    unchanged, isConcat, isTranspose, recorded, deleted⟩
  refine @Inv.replaced _ _ _ _ _ _ inv concat (concat + 1) order
    (by omega) isOld ?new above
    (by omega) reorders (by omega) (by omega) pending
    (.inr ⟨?unread, Nat.succ_ne_self _⟩)
    (fun _ isDeleted => .inl (deleted ▸ isDeleted))
    (fun _ isDeleted => deleted.symm ▸ isDeleted)
  case new =>
    intro id idAbove idBelow arg member
    cases reads id idAbove idBelow arg member with
    | inl same =>
        subst same
        refine ⟨?_, .inl above⟩
        dsimp only
        omega
    | inr isInput =>
        have argBelow := inputsBelow arg isInput
        exact ⟨by omega, .inr ⟨arg, inputs ▸ isInput, rfl⟩⟩
  case unread =>
    intro reader below arg member isEntry
    by_cases isNew : state.heap.size ≤ reader
    · cases reads reader isNew below arg member with
      | inl same =>
          subst same
          exact absurd isEntry (Nat.ne_of_lt (Nat.lt_succ_self _))
      | inr isInput =>
          have argBelow := inputsBelow arg isInput
          omega
    · have readerBelow : reader < state.heap.size := by omega
      have member :=
        congrArg Node.input_values (isOld reader readerBelow) ▸ member
      obtain ⟨source, isSource, rfl⟩ := List.mem_map.mp member
      have sourceBelow := inv.inputsBelow reader readerBelow source isSource
      by_cases same : source.node = n
      · rw [rename, if_pos same] at isEntry
        exact absurd isEntry (Nat.ne_of_lt (Nat.lt_succ_self _))
      · rw [rename_ne same] at isEntry
        omega

/-- The order that is pending behind an output. -/
def entryOrder (state : State) (output : Output) : List Nat :=
  match state.reorders output with
  | some t => state.heap.get_axis_vector_val t
  | none => []

theorem Pending.entryOrder {output : Output} {rank t : Nat} {order : List Nat}
    (pending : Pending state output rank t order) :
    entryOrder state output = order := by
  rw [TransposeSinking.entryOrder, pending.entry]
  exact pending.axes

/-- The shape of the transpose that is pending behind an output. -/
def entryShape (state : State) (output : Output) : Shape :=
  match state.reorders output with
  | some t => state.heap.get_shape ⟨t, 0⟩
  | none => []

theorem Pending.ordered {output : Output} {rank t : Nat} {order : List Nat}
    (pending : Pending state output rank t order) :
    Ordered state order output (entryShape state output) := by
  rw [entryShape, pending.entry]
  exact ⟨t, pending.below, pending.entry, pending.isTranspose.op, rfl,
    pending.isTranspose.shape_length⟩

theorem Ordered.unique {order another : List Nat} {iarg : Output}
    {shape otherShape : Shape} (ordered : Ordered state order iarg shape)
    (ordered' : Ordered state another iarg otherShape) :
    order = another := by
  obtain ⟨t, _, entry, op, _⟩ := ordered
  obtain ⟨t', _, entry', op', _⟩ := ordered'
  obtain rfl := Option.some.inj (entry.symm.trans entry')
  exact Op.Transpose.inj (op.symm.trans op')

/-- The arguments are in one order, or the concatenation is a barrier. -/
theorem Inv.sinkConcat_cases (inv : Inv f (n :: todo) current state)
    {first : Output} {rest : List Output} (axis : Nat)
    (inputs : (f.heap.node n).input_values = first :: rest) :
    ∃ t order, Pending state (moved current first)
      (f.heap.get_shape first).length t order ∧
      (List.Forall₂ (Ordered state order) ((first :: rest).map (moved current))
          ((first :: rest).map fun input =>
            entryShape state (moved current input)) ∨
        sinkConcat n axis state = materializeShapes n state) := by
  have isFirst : first ∈ (f.heap.node n).input_values := by simp [inputs]
  obtain ⟨t, order, pending⟩ := inv.pending isFirst
  refine ⟨t, order, pending, ?_⟩
  have stateInputs := inv.input_values
  rw [inputs, List.map_cons] at stateInputs
  have ordered : ∀ input ∈ first :: rest, ∃ another,
      Ordered state another (moved current input)
        (entryShape state (moved current input)) := by
    intro input member
    obtain ⟨_, another, pending⟩ := inv.pending (inputs ▸ member)
    exact ⟨another, pending.ordered⟩
  by_cases same : ∀ input ∈ first :: rest,
      Ordered state order (moved current input)
        (entryShape state (moved current input))
  · refine .inl ?_
    rw [List.forall₂_map_left_iff, List.forall₂_map_right_iff,
      List.forall₂_same]
    exact same
  · refine .inr (sinkConcat_other stateInputs
        (pending.isOrder.length.symm ▸ pending.isOrder)
      pending.ordered ?_ ?_)
    · intro iarg member
      rw [← List.map_cons, List.mem_map] at member
      obtain ⟨input, isInput, rfl⟩ := member
      obtain ⟨another, isOrdered⟩ := ordered input isInput
      exact ⟨another, _, isOrdered⟩
    · obtain ⟨input, differs⟩ := not_forall.mp same
      obtain ⟨isInput, differs⟩ := Classical.not_imp.mp differs
      obtain ⟨another, isOrdered⟩ := ordered input isInput
      refine ⟨moved current input, ?_, another, _, isOrdered, fun isSame => ?_⟩
      · rw [← List.map_cons]
        exact List.mem_map_of_mem isInput
      · exact differs (isSame ▸ isOrdered)

end Concat

end NGraphBridge.TransposeSinking
