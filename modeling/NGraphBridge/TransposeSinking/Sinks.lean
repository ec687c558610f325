import NGraphBridge.TransposeSinking.LowerRank
import NGraphBridge.TransposeSinking.Rules

/-!
# The rules between two steps

What each rule does in a state that the main loop reaches.
-/

namespace NGraphBridge.TransposeSinking

open NGraph (Output Shape)
open Tensor Axes

section Sinks

variable {f : Function} {n : Nat} {todo : List Nat} {current : Nat → Nat}
  {state after : State}

theorem Inv.entryBelow (inv : Inv f todo current state)
    (output : Output) (t : Nat) (recorded : state.reorders output = some t) :
    t < state.heap.size :=
  (inv.entries output t recorded).1

theorem Inv.deletedBelow (inv : Inv f todo current state) (t : Nat)
    (isDeleted : t ∈ state.transposes_to_delete) : t < state.heap.size :=
  (inv.deleted t isDeleted).1

theorem Inv.refl (inv : Inv f (n :: todo) current state) :
    Effect state state n n :=
  .refl inv.nodeBelowState (inv.inputsBelow n inv.nodeBelowState)

theorem Inv.notDeleted (inv : Inv f (n :: todo) current state) :
    n ∉ state.transposes_to_delete :=
  fun isDeleted =>
    absurd inv.nodeBelow (Nat.not_lt.mpr (inv.deleted n isDeleted).2.1)

/-- A barrier. -/
theorem Inv.materializeShapes_ok (inv : Inv f (n :: todo) current state) :
    ∃ after, materializeShapes n state = .ok after ∧ Effect state after n n ∧
      after.orig_result_out_shape = state.orig_result_out_shape ∧
      (after.heap.node n).input_values.length =
        (f.heap.node n).input_values.length ∧
      (∀ i < (f.heap.node n).output_shapes.length, Defaulted state after n i) ∧
      ∀ j input, (f.heap.node n).input_values[j]? = some input →
        Materialized state after n j (moved current input) := by
  have inputs := inv.input_values
  obtain ⟨after, success, effect, original, length, defaults, materialized⟩ :=
    @TransposeSinking.materializeShapes_ok state n inv.inputsBelow
      inv.entryBelow inv.deletedBelow inv.nodeBelowState (by
        intro input member
        rw [inputs, List.mem_map] at member
        obtain ⟨original, isOriginal, rfl⟩ := member
        obtain ⟨t, order, pending⟩ := inv.pending isOriginal
        exact ⟨inv.input_ne isOriginal, _, t, order, pending⟩)
  refine ⟨after, success, effect, original, ?_, ?_, ?_⟩
  · rw [length, inputs, List.length_map]
  · rw [← inv.shapes n inv.nodeBelow]
    exact defaults
  · intro j input atInput
    apply materialized
    rw [inputs, List.getElem?_map, atInput, Option.map_some]

theorem Inv.sinkUnary_ok (inv : Inv f (n :: todo) current state)
    {input : Output} (inputs : (f.heap.node n).input_values = [input]) :
    ∃ t order,
      Pending state (moved current input)
        (f.heap.get_shape input).length t order ∧
      sinkUnary n state = .ok (writeTransposemap state ⟨n, 0⟩ t) ∧
      Effect state (writeTransposemap state ⟨n, 0⟩ t) n n := by
  obtain ⟨t, order, pending⟩ :=
    inv.pending (by rw [inputs]; exact List.mem_singleton_self _)
  have read : state.heap.input_value n 0 = moved current input := by
    refine input_value_of inv.input_values ?_
    rw [inputs]
    rfl
  refine ⟨t, order, pending, ?_, inv.refl.write pending.entry⟩
  unfold sinkUnary
  simp only [bind, Except.bind, read, pending.read]

/-- The operands of a binary op that is reached. -/
theorem Inv.operands (inv : Inv f (n :: todo) current state)
    {type_name : String} {first second : Output}
    (op : (f.heap.node n).op = .Binary type_name)
    (inputs : (f.heap.node n).input_values = [first, second]) :
    ∃ left_t right_t p q,
      Pending state (moved current first) (f.heap.get_shape first).length
        left_t p ∧
      Pending state (moved current second) (f.heap.get_shape second).length
        right_t q ∧
      Operands state n type_name (moved current first) (moved current second)
        left_t right_t p q := by
  have isFirst : first ∈ (f.heap.node n).input_values := by simp [inputs]
  have isSecond : second ∈ (f.heap.node n).input_values := by simp [inputs]
  obtain ⟨left_t, p, left⟩ := inv.pending isFirst
  obtain ⟨right_t, q, right⟩ := inv.pending isSecond
  refine ⟨left_t, right_t, p, q, left, right, ?_⟩
  exact {
    op := (inv.ops n inv.nodeBelow).trans op
    inputs := by rw [inv.input_values, inputs]; rfl
    leftEntry := left.entry
    rightEntry := right.entry
    leftOrder := left.isTranspose.op
    rightOrder := right.isTranspose.op
    isLeft := left.stored.symm ▸ left.isOrder
    isRight := right.stored.symm ▸ right.isOrder
    leftOther := inv.input_ne isFirst
    rightOther := inv.input_ne isSecond
    binaryBelow := inv.nodeBelowState
    leftBelow := left.outputBelow
    rightBelow := right.outputBelow
    leftEntryBelow := left.below
    rightEntryBelow := right.below
    deletedBelow := inv.deletedBelow
    notDeleted := inv.notDeleted }

theorem Effect.converted {s : State} (effect : Effect state s n n)
    (inv : Inv f (n :: todo) current state) {node : Node} {arg old : Output}
    {t i : Nat} (reads : node.input_values = [arg])
    (isInput : arg ∈ (state.heap.node n).input_values)
    (isEntry : state.reorders old = some t) :
    Effect state (TransposeSinking.converted n i node t s) n n := by
  have notEntry : ∀ output, s.reorders output ≠ some s.heap.size :=
    fun output recorded =>
    absurd (effect.entryBelow inv.entryBelow recorded) (Nat.lt_irrefl _)
  have added := effect.add inv.inputsBelow inv.nodeBelowState reads
    (.inr ⟨arg, isInput, rfl⟩)
  have replaced := @Effect.replaceSource _ _ _ added i s.heap.size effect.sizes
    (Nat.lt_succ_self _) notEntry inv.nodeBelowState
  exact (replaced.mark isEntry).write isEntry

theorem orderNode_input_values (heap : Heap) (left : Output)
    (order : List Nat) :
    (orderNode heap left order).input_values = [left] := by
  unfold orderNode
  split <;> rfl

/-- The transpose that `sink_binary` passes on. -/
def passedOn (heap : Heap) (binary : Nat) (left right : Output)
    (left_t right_t : Nat) : Nat :=
  let left_order := heap.get_axis_vector_val left_t
  let right_order := heap.get_axis_vector_val right_t
  if left_order = right_order ∨
    (left_order = getDefaultOrder (heap.get_shape left) ∧
      right_order = getDefaultOrder (heap.get_shape right)) then
    if heap.get_shape ⟨binary, 0⟩ = heap.get_shape left then left_t else right_t
  else if left_order = getDefaultOrder (heap.get_shape left) then right_t
  else left_t

theorem Inv.sinkBinary_effect (inv : Inv f (n :: todo) current state)
    {type_name : String} {left right : Output} {left_t right_t : Nat}
    {p q : List Nat}
    (operands : Operands state n type_name left right left_t right_t p q)
    (success : sinkBinary n state = .ok after) :
    Effect state after n n ∧
      after.orig_result_out_shape = state.orig_result_out_shape ∧
      after.reorders ⟨n, 0⟩ =
        some (passedOn state.heap n left right left_t right_t) := by
  have isLeftInput : left ∈ (state.heap.node n).input_values := by
    simp [operands.inputs]
  have isRightInput : right ∈ (state.heap.node n).input_values := by
    simp [operands.inputs]
  have isP : IsOrder p p.length := operands.isLeft.length.symm ▸ operands.isLeft
  have isQ : IsOrder q q.length :=
    operands.isRight.length.symm ▸ operands.isRight
  have reduced : passedOn state.heap n left right left_t right_t =
      if p = q ∨ (p = getDefaultOrder (state.heap.get_shape left) ∧
          q = getDefaultOrder (state.heap.get_shape right)) then
        if state.heap.get_shape ⟨n, 0⟩ = state.heap.get_shape left then left_t
        else right_t
      else if p = getDefaultOrder (state.heap.get_shape left) then right_t
      else left_t := by
    rw [passedOn, get_axis_vector_val_eq operands.leftOrder,
      get_axis_vector_val_eq operands.rightOrder]
  rw [reduced]
  by_cases matching : p = q ∨ (p = getDefaultOrder (state.heap.get_shape left) ∧
      q = getDefaultOrder (state.heap.get_shape right))
  · rw [if_pos matching]
    rw [sinkBinary_matching operands matching] at success
    obtain rfl := Except.ok.inj success
    have isEntry : ∃ old, state.reorders old =
        some (if state.heap.get_shape ⟨n, 0⟩ = state.heap.get_shape left then
          left_t
          else right_t) := by
      split
      · exact ⟨left, operands.leftEntry⟩
      · exact ⟨right, operands.rightEntry⟩
    obtain ⟨old, isEntry⟩ := isEntry
    exact ⟨((inv.refl.write isEntry).mark operands.leftEntry).mark
      operands.rightEntry, rfl, writeTransposemap_self⟩
  · rw [if_neg matching]
    obtain ⟨differ, mismatch⟩ := not_or.mp matching
    rw [sinkBinary_differing operands differ mismatch] at success
    have readsLeft := orderNode_input_values state.heap left q
    have readsRight := orderNode_input_values state.heap right p
    by_cases qDefault : q = getDefaultOrder (state.heap.get_shape right)
    · have pOther : p ≠ getDefaultOrder (state.heap.get_shape left) :=
        fun pDefault => mismatch ⟨pDefault, qDefault⟩
      rw [if_neg (not_not_intro qDefault), Except.bind,
        if_pos pOther] at success
      rw [if_neg pOther]
      by_cases fits : (state.heap.get_shape right).length ≤ p.length
      · rw [operands.convert_right isP fits] at success
        obtain rfl := Except.ok.inj success
        exact ⟨inv.refl.converted inv readsRight isRightInput
          operands.leftEntry, rfl, converted_reorders_self⟩
      · rw [convertBinaryToDefaultOrder_error operands.rightInput
          operands.leftEntry
          operands.leftOrder isP (Nat.lt_of_not_le fits)] at success
        exact absurd success (by simp)
    · rw [if_pos qDefault] at success
      by_cases fits : (state.heap.get_shape left).length ≤ q.length
      · rw [operands.convert_left isQ fits, Except.bind] at success
        have first := @Effect.converted _ _ _ _ _ _ inv.refl inv _ _ _ _ 0
          readsLeft isLeftInput operands.rightEntry
        by_cases pDefault : p = getDefaultOrder (state.heap.get_shape left)
        · rw [if_neg (not_not_intro pDefault)] at success
          obtain rfl := Except.ok.inj success
          rw [if_pos pDefault]
          exact ⟨first, rfl, converted_reorders_self⟩
        · rw [if_pos pDefault] at success
          rw [if_neg pDefault]
          by_cases fits : (state.heap.get_shape right).length ≤ p.length
          · rw [operands.convert_again isP fits] at success
            obtain rfl := Except.ok.inj success
            exact ⟨first.converted inv readsRight isRightInput
              operands.leftEntry, rfl, converted_reorders_self⟩
          · rw [operands.convert_again_error isP (Nat.lt_of_not_le fits)]
              at success
            exact absurd success (by simp)
      · rw [convertBinaryToDefaultOrder_error operands.leftInput
          operands.rightEntry
          operands.rightOrder isQ (Nat.lt_of_not_le fits)] at success
        exact absurd success (by simp [Except.bind])

/-- A new node takes the place of the one that is gone over. -/
theorem Inv.replaced (inv : Inv f (n :: todo) current state)
    {replacement t : Nat} {order : List Nat}
    (sizes : state.heap.size ≤ after.heap.size)
    (old : ∀ id < state.heap.size,
      after.heap.node id = { state.heap.node id with
      input_values :=
        (state.heap.node id).input_values.map (rename n replacement) })
    (new : ∀ id, state.heap.size ≤ id → id < after.heap.size →
      ∀ input ∈ (after.heap.node id).input_values,
        input.node < after.heap.size ∧
        (state.heap.size ≤ input.node ∨
          ∃ old ∈ (state.heap.node n).input_values, old.node = input.node))
    (above : state.heap.size ≤ replacement)
    (below : replacement < after.heap.size)
    (reorders : after.reorders = Function.update state.reorders
      ⟨replacement, 0⟩ (some t))
    (tAbove : state.heap.size ≤ t) (tBelow : t < after.heap.size)
    (isTranspose : IsTranspose after.heap t order)
    (pending : t ∈ after.transposes_to_delete ∨ Unread after.heap t ∧
      t ≠ replacement)
    (deleted : ∀ t' ∈ after.transposes_to_delete,
      t' ∈ state.transposes_to_delete ∨
      (∃ output, state.reorders output = some t') ∨ t' = t)
    (kept : ∀ t' ∈ state.transposes_to_delete,
      t' ∈ after.transposes_to_delete) :
    Effect state after n replacement := by
  refine ⟨sizes, ?ops, ?shapes, ?inputs, ?made, below, .inr above, ?reorders,
    ?entries, ?deleted, kept⟩
  case ops =>
    intro id idBelow
    rw [old id idBelow]
  case shapes =>
    intro id idBelow
    rw [old id idBelow]
  case inputs =>
    intro id idBelow _
    rw [old id idBelow]
  case made =>
    intro id idBelow isMade input member
    by_cases isNew : state.heap.size ≤ id
    · obtain ⟨inputBelow, origin⟩ := new id isNew idBelow input member
      exact ⟨inputBelow, .inr origin⟩
    · have isNode : id = n := by omega
      subst isNode
      rw [old id inv.nodeBelowState, List.mem_map] at member
      obtain ⟨original, isOriginal, rfl⟩ := member
      have inputs := inv.input_values
      have isImage := isOriginal
      rw [inputs, List.mem_map] at isImage
      obtain ⟨source, isSource, rfl⟩ := isImage
      rw [rename_ne (inv.input_ne isSource)]
      exact ⟨Nat.lt_of_lt_of_le
        (inv.inputsBelow id inv.nodeBelowState _ isOriginal) sizes,
        .inr (.inr ⟨_, isOriginal, rfl⟩)⟩
  case reorders =>
    intro output outputBelow _
    rw [reorders]
    apply Function.update_of_ne
    intro same
    rw [same] at outputBelow
    exact absurd outputBelow (Nat.not_lt.mpr above)
  case entries =>
    intro output t' recorded
    rw [reorders] at recorded
    by_cases here : output = ⟨replacement, 0⟩
    · subst here
      rw [Function.update_self] at recorded
      obtain rfl := Option.some.inj recorded
      exact .inr ⟨tAbove, tBelow, ⟨order, isTranspose⟩, pending⟩
    · rw [Function.update_of_ne here] at recorded
      exact .inl ⟨output, recorded⟩
  case deleted =>
    intro t' isDeleted
    refine (deleted t' isDeleted).imp_right fun marked =>
      marked.imp_right fun same => ?_
    subst same
    exact ⟨tAbove, tBelow, order, isTranspose⟩

/-- The node that the combined transpose of `sink_transpose` is. -/
theorem Inv.sinkTranspose_ok (inv : Inv f (n :: todo) current state)
    {input : Output} {second : List Nat}
    (op : (f.heap.node n).op = .Transpose second)
    (inputs : (f.heap.node n).input_values = [input])
    (isSecond : IsOrder second (f.heap.get_shape input).length) :
    ∃ after t order,
      Pending state (moved current input)
        (f.heap.get_shape input).length t order ∧
      sinkTranspose n state = .ok after ∧ Effect state after n state.heap.size ∧
      after.orig_result_out_shape = state.orig_result_out_shape ∧
      after.heap.node state.heap.size =
        state.heap.transposeOf (moved current input) (permute second order) ∧
      after.reorders ⟨state.heap.size, 0⟩ = some state.heap.size ∧
      state.heap.size ∈ after.transposes_to_delete := by
  have isInput : input ∈ (f.heap.node n).input_values := by simp [inputs]
  obtain ⟨t, order, pending⟩ := inv.pending isInput
  have read : state.heap.input_value n 0 = moved current input := by
    refine input_value_of inv.input_values ?_
    rw [inputs]
    rfl
  have nodeOrder : state.heap.get_axis_vector_val n = second :=
    get_axis_vector_val_eq ((inv.ops n inv.nodeBelow).trans op)
  have isOrder := pending.isOrder
  have isCombined :
      IsOrder (permute second order) (f.heap.get_shape input).length :=
    isOrder.permute isSecond
  have combined : combineTransposes state.heap t n = .ok (state.heap.size,
      state.heap.add
        (state.heap.transposeOf (moved current input)
          (permute second order))) := by
    have first : applyPermutation
        (getDefaultOrder (state.heap.get_shape ⟨t, 0⟩)) order =
        .ok order := by
      rw [getDefaultOrder, pending.isTranspose.shape_length, isOrder.length,
        applyPermutation_ok, permute_range isOrder.inside]
      rw [List.length_range]
      exact isOrder
    unfold combineTransposes
    simp only [bind, Except.bind, pending.axes, first, nodeOrder, read,
      applyPermutation_ok
        (isOrder.length.symm ▸ isSecond : IsOrder second order.length)]
    apply Heap.makeTranspose_ok
    rw [pending.stored]
    exact isCombined
  have newNode : ((state.heap.add (state.heap.transposeOf (moved current input)
      (permute second order))).replace_node n state.heap.size).node
      state.heap.size =
        state.heap.transposeOf (moved current input)
          (permute second order) := by
    rw [Heap.replace_node_node, Heap.add_node_self]
    have other : rename n state.heap.size (moved current input) =
        moved current input :=
      rename_ne (inv.input_ne isInput)
    simp only [Heap.transposeOf, List.map_cons, List.map_nil, other]
  have isTranspose :
      IsTranspose ((state.heap.add (state.heap.transposeOf (moved current input)
      (permute second order))).replace_node n state.heap.size) state.heap.size
        (permute second order) := by
    refine ⟨_, _, newNode, pending.outputBelow, ?_⟩
    rw [length_permute]
    rw [pending.stored]
    exact isCombined.inside
  have success :
      sinkTranspose n state = .ok (writeTransposemap (markTransposeForDeletion
      { markTransposeForDeletion state t with
        heap := (state.heap.add (state.heap.transposeOf (moved current input)
          (permute second order))).replace_node n state.heap.size }
      state.heap.size) ⟨state.heap.size, 0⟩ state.heap.size) := by
    unfold sinkTranspose
    simp only [bind, Except.bind, read, pending.read, combined]
  refine ⟨_, t, order, pending, success, ?_, rfl, newNode,
    writeTransposemap_self, List.mem_insert_self⟩
  refine @Inv.replaced _ _ _ _ _ _ inv _ state.heap.size (permute second order)
    (Nat.le_succ _)
    ?old ?new (Nat.le_refl _) (Nat.lt_succ_self _) rfl (Nat.le_refl _)
    (Nat.lt_succ_self _) isTranspose (.inl List.mem_insert_self) ?deleted ?kept
  case old =>
    intro id below
    refine Heap.replace_node_node.trans ?_
    rw [Heap.add_node below]
  case new =>
    intro id above below arg member
    have isNew : id = state.heap.size := by
      have below : id < state.heap.size + 1 := below
      omega
    subst isNew
    have member : arg ∈
        (((state.heap.add (state.heap.transposeOf (moved current input)
      (permute second order))).replace_node n state.heap.size).node
        state.heap.size).input_values := member
    rw [newNode] at member
    obtain rfl := List.mem_singleton.mp member
    refine ⟨Nat.lt_succ_of_lt pending.outputBelow,
      .inr ⟨moved current input, ?_, rfl⟩⟩
    rw [inv.input_values]
    exact List.mem_map_of_mem isInput
  case deleted =>
    intro t' isDeleted
    cases List.mem_insert_iff.mp isDeleted with
    | inl same => exact .inr (.inr same)
    | inr isDeleted =>
        cases List.mem_insert_iff.mp isDeleted with
        | inl same => exact .inr (.inl ⟨_, same ▸ pending.entry⟩)
        | inr isDeleted => exact .inl isDeleted
  case kept =>
    exact fun t' isDeleted =>
      List.mem_insert_of_mem (List.mem_insert_of_mem isDeleted)

theorem Inv.padOperand (inv : Inv f (n :: todo) current state)
    {first second : Output} {pads_begin pads_end : List Int}
    {pad_mode : PadMode} {t : Nat} {order : List Nat}
    (op : (f.heap.node n).op = .Pad pads_begin pads_end pad_mode)
    (inputs : (f.heap.node n).input_values = [first, second])
    (scalar : f.heap.get_shape second = [])
    (beginLength : pads_begin.length = (f.heap.get_shape first).length)
    (endLength : pads_end.length = (f.heap.get_shape first).length)
    (pending : Pending state (moved current first)
      (f.heap.get_shape first).length t order) :
    PadOperand state n pads_begin pads_end pad_mode (moved current first)
      (moved current second) t order (state.heap.get_shape ⟨t, 0⟩) := by
  have isFirst : first ∈ (f.heap.node n).input_values := by simp [inputs]
  have isSecond : second ∈ (f.heap.node n).input_values := by simp [inputs]
  obtain ⟨_, _, value⟩ := inv.pending isSecond
  have length : (state.heap.get_shape ⟨t, 0⟩).length =
      (f.heap.get_shape first).length :=
    pending.isTranspose.shape_length.trans pending.isOrder.length
  have valueRank := value.stored
  rw [scalar] at valueRank
  exact {
    op := (inv.ops n inv.nodeBelow).trans op
    inputs := by rw [inv.input_values, inputs]; rfl
    entry := pending.entry
    isTranspose := pending.isTranspose.op
    stored := rfl
    isOrder := length.symm ▸ pending.isOrder
    beginLength := beginLength.trans length.symm
    endLength := endLength.trans length.symm
    scalar := List.length_eq_zero_iff.mp valueRank
    inputOther := inv.input_ne isFirst
    valueOther := inv.input_ne isSecond
    inputBelow := pending.outputBelow
    valueBelow := value.outputBelow
    inputsBelow := inv.inputsBelow }

theorem Inv.sinkPad_ok (inv : Inv f (n :: todo) current state)
    {input value : Output} {pads_begin pads_end : List Int} {pad_mode : PadMode}
    {t : Nat} {order shape dummy_shape : List Nat}
    (operand : PadOperand state n pads_begin pads_end pad_mode input value t
      order shape)
    (valid : padShape pad_mode (permute (inverse order) pads_begin)
      (permute (inverse order) pads_end) (permute (inverse order) shape) =
      some dummy_shape) :
    ∃ after, sinkPad n pads_begin pads_end pad_mode state = .ok after ∧
      Effect state after n (state.heap.size + 1) ∧
      after.orig_result_out_shape = state.orig_result_out_shape ∧
      after.heap.node (state.heap.size + 1) =
        ⟨.Pad (permute (inverse order) pads_begin)
          (permute (inverse order) pads_end) pad_mode,
          [⟨input.node, 0⟩, value], [dummy_shape]⟩ ∧
      after.heap.node (state.heap.size + 2) =
        ⟨.Transpose order, [⟨state.heap.size + 1, 0⟩],
          [permute order dummy_shape]⟩ ∧
      after.reorders ⟨state.heap.size + 1, 0⟩ = some (state.heap.size + 2) ∧
      after.transposes_to_delete = state.transposes_to_delete := by
  obtain ⟨after, success, size, old, isLabel, isNew, isTranspose, reorders,
    deleted, original⟩ :=
    TransposeSinking.sinkPad_ok operand valid
  have recorded : after.reorders ⟨state.heap.size + 1, 0⟩ =
      some (state.heap.size + 2) := by
    rw [reorders]
    exact Function.update_self _ _ _
  refine ⟨after, success, ?_, original, isNew, isTranspose, recorded, deleted⟩
  have places : ∀ id, state.heap.size ≤ id → id < after.heap.size →
      id = state.heap.size ∨ id = state.heap.size + 1 ∨
      id = state.heap.size + 2 := by
    intro id above below
    omega
  -- the dummy reads nothing, the new pad reads old nodes, the pending transpose
  -- reads the pad
  have reads : ∀ id, state.heap.size ≤ id → id < after.heap.size →
      ∀ arg ∈ (after.heap.node id).input_values,
      arg = ⟨state.heap.size + 1, 0⟩ ∨
        arg.node < state.heap.size ∧
          ∃ old ∈ (state.heap.node n).input_values, old.node = arg.node := by
    intro id above below arg member
    rcases places id above below with rfl | rfl | rfl
    · rw [isLabel] at member
      exact absurd member (by simp [labelNode])
    · rw [isNew] at member
      have inputs := operand.inputs
      cases List.mem_cons.mp member with
      | inl isInput =>
          subst isInput
          exact .inr ⟨operand.inputBelow, input, by simp [inputs], rfl⟩
      | inr isValue =>
          obtain rfl := List.mem_singleton.mp isValue
          exact .inr ⟨operand.valueBelow, arg, by simp [inputs], rfl⟩
    · rw [isTranspose] at member
      exact .inl (List.mem_singleton.mp member)
  have rank : dummy_shape.length = order.length := by
    rw [(padShape_inv valid).2.2, length_permute operand.isOrder.inverse.inside,
      length_inverse]
  have orderInside : Inside order dummy_shape.length := by
    rw [rank, operand.isOrder.length]
    exact operand.isOrder.inside
  have sinkTranspose : IsTranspose after.heap (state.heap.size + 2) order := by
    refine ⟨_, _, isTranspose, Nat.lt_succ_self _, ?_⟩
    rw [length_permute orderInside]
  refine @Inv.replaced _ _ _ _ _ _ inv _ (state.heap.size + 2) order
    (by omega) old ?new
    (Nat.le_succ _) (by omega) reorders (by omega) (by omega) sinkTranspose
    (.inr ⟨?unread, by omega⟩) (fun t' isDeleted => .inl (deleted ▸ isDeleted))
    (fun t' isDeleted => deleted.symm ▸ isDeleted)
  case new =>
    intro id above below arg member
    cases reads id above below arg member with
    | inl same =>
        subst same
        exact ⟨by dsimp only; omega, .inl (Nat.le_succ _)⟩
    | inr isOld => exact ⟨by omega, .inr isOld.2⟩
  case unread =>
    intro reader below arg member isEntry
    by_cases above : state.heap.size ≤ reader
    · cases reads reader above below arg member with
      | inl same =>
          subst same
          dsimp only at isEntry
          omega
      | inr isOld => omega
    · have isOld : reader < state.heap.size := by omega
      rw [old reader isOld, List.mem_map] at member
      obtain ⟨source, isSource, rfl⟩ := member
      have sourceBelow := inv.inputsBelow reader isOld source isSource
      by_cases same : source.node = n
      · rw [rename, if_pos same] at isEntry
        dsimp only at isEntry
        omega
      · rw [rename_ne same] at isEntry
        omega

end Sinks

end NGraphBridge.TransposeSinking
