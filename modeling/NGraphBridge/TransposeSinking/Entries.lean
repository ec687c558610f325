import NGraphBridge.TransposeSinking.Invariant

/-!
# The map of pending transposes

For every output that has been gone over there is an entry of its rank. The
shape of the entry is the shape of the output as long as transposes are not
combined over another shape, and the operand whose entry a binary op takes has
the shape of the result.
-/

namespace NGraphBridge.TransposeSinking

open NGraph (Output Shape)
open Tensor Axes

/-- The node that stands for `n` after the step over it. -/
def replacement (n : Nat) (state after : State) : Nat :=
  match (state.heap.node n).op with
  | .Transpose _ => state.heap.size
  | .Pad _ _ _ => state.heap.size + 1
  | .Concat _ =>
      if after.reorders ⟨n, 0⟩ = state.reorders ⟨n, 0⟩ then
        after.heap.size - 2 else n
  | _ => n

/-- The nodes that stand for the ones of the original function after some
steps. -/
def standsFor : List Nat → State → (Nat → Nat) → Nat → Nat
  | [], _, current => current
  | n :: ops, state, current =>
      match sinkNode n state with
      | .error _ => current
      | .ok after =>
          standsFor ops after
            (Function.update current n (replacement n state after))

/-- A condition on every step of a run. -/
def Along (P : State → Nat → Prop) : List Nat → State → Prop
  | [], _ => True
  | n :: ops, state => P state n ∧
      match sinkNode n state with
      | .error _ => True
      | .ok after => Along P ops after

instance Along.decidable (P : State → Nat → Prop)
    [∀ state n, Decidable (P state n)] :
    (ops : List Nat) → (state : State) → Decidable (Along P ops state)
  | [], _ => .isTrue trivial
  | n :: ops, state => by
      unfold Along
      cases sinkNode n state with
      | error thrown => exact inferInstanceAs (Decidable (P state n ∧ True))
      | ok after =>
          have := Along.decidable P ops after
          exact inferInstanceAs (Decidable (P state n ∧ Along P ops after))

/-- `sink_binary` passes on the transpose of its left operand. -/
def PassesLeft (state : State) (n : Nat) : Prop :=
  let left := state.heap.input_value n 0
  let right := state.heap.input_value n 1
  let left_order := entryOrder state left
  let right_order := entryOrder state right
  if left_order = right_order ∨
    (left_order = getDefaultOrder (state.heap.get_shape left) ∧
      right_order = getDefaultOrder (state.heap.get_shape right)) then
    state.heap.get_shape ⟨n, 0⟩ = state.heap.get_shape left
  else left_order ≠ getDefaultOrder (state.heap.get_shape left)

instance (state : State) (n : Nat) : Decidable (PassesLeft state n) := by
  unfold PassesLeft
  infer_instance

/-- What a step asks of the operands: the order that is pending behind the
argument of a transpose leads from the shape that the argument has by now to its
original one, and the operand of a binary op whose transpose is passed on is not
broadcast. -/
def KeepsShape (f : Function) (state : State) (n : Nat) : Prop :=
  match (state.heap.node n).op with
  | .Transpose _ =>
      let arg := state.heap.input_value n 0
      permute (entryOrder state arg) (state.heap.get_shape arg) =
        f.heap.get_shape (f.heap.input_value n 0)
  | .Binary _ =>
      f.heap.get_shape
        (f.heap.input_value n (if PassesLeft state n then 0 else 1)) =
        f.heap.get_shape ⟨n, 0⟩
  | _ => True

instance (f : Function) (state : State) (n : Nat) :
    Decidable (KeepsShape f state n) := by
  unfold KeepsShape
  split <;> infer_instance

theorem passedOn_eq {state : State} {n : Nat} {type_name : String}
    {left right : Output} {left_t right_t leftRank rightRank : Nat}
    {p q : List Nat}
    (operands : Operands state n type_name left right left_t right_t p q)
    (leftPending : Pending state left leftRank left_t p)
    (rightPending : Pending state right rightRank right_t q) :
    passedOn state.heap n left right left_t right_t =
      if PassesLeft state n then left_t else right_t := by
  have test : PassesLeft state n ↔
      if p = q ∨ (p = getDefaultOrder (state.heap.get_shape left) ∧
          q = getDefaultOrder (state.heap.get_shape right)) then
        state.heap.get_shape ⟨n, 0⟩ = state.heap.get_shape left
      else p ≠ getDefaultOrder (state.heap.get_shape left) := by
    unfold PassesLeft
    simp only [operands.leftInput, operands.rightInput, leftPending.entryOrder,
      rightPending.entryOrder]
  rw [passedOn, get_axis_vector_val_eq operands.leftOrder,
    get_axis_vector_val_eq operands.rightOrder]
  by_cases matching : p = q ∨ (p = getDefaultOrder (state.heap.get_shape left) ∧
      q = getDefaultOrder (state.heap.get_shape right))
  · rw [if_pos matching] at test
    exact (if_pos matching).trans (if_congr test.symm rfl rfl)
  · rw [if_neg matching] at test
    refine (if_neg matching).trans ?_
    by_cases pDefault : p = getDefaultOrder (state.heap.get_shape left)
    · rw [if_pos pDefault, if_neg fun passes => test.mp passes pDefault]
    · rw [if_neg pDefault, if_pos (test.mpr pDefault)]

/-- The entries of outputs that have been gone over have their shapes. -/
def Shaped (f : Function) (todo : List Nat) (current : Nat → Nat)
    (state : State) : Prop :=
  ∀ n < f.heap.size, n ∉ todo → ∀ i < (f.heap.node n).output_shapes.length, ∀ t,
    state.reorders ⟨current n, i⟩ = some t →
      state.heap.get_shape ⟨t, 0⟩ = f.heap.get_shape ⟨n, i⟩

section Step

variable {other : Inference} {f : Function} {n : Nat} {todo : List Nat}
  {current : Nat → Nat} {state after : State}

theorem Shaped.step {replacement : Nat}
    (shaped : Shaped f (n :: todo) current state)
    (inv : Inv f (n :: todo) current state)
    (effect : Effect state after n replacement)
    (newShape : ∀ i < (f.heap.node n).output_shapes.length, ∀ t,
      after.reorders ⟨replacement, i⟩ = some t →
        after.heap.get_shape ⟨t, 0⟩ = f.heap.get_shape ⟨n, i⟩) :
    Shaped f todo (Function.update current n replacement) after := by
  intro m below isDone i bound t recorded
  by_cases same : m = n
  · subst same
    rw [Function.update_self] at recorded
    exact newShape i bound t recorded
  · rw [Function.update_of_ne same] at recorded
    rw [effect.reorders _ (inv.below m below) (inv.current_ne below same)]
      at recorded
    have notTodo : m ∉ n :: todo := by
      intro member
      cases List.mem_cons.mp member with
      | inl isNode => exact same isNode
      | inr isTodo => exact isDone isTodo
    rw [effect.get_shape (inv.entryBelow _ t recorded)]
    exact shaped m below notTodo i bound t recorded

theorem Shaped.original (shaped : Shaped f todo current state)
    (orig_result_out_shape : Nat → Shape) :
    Shaped f todo current
      { state with orig_result_out_shape := orig_result_out_shape } :=
  shaped

theorem Shaped.step_one {replacement t : Nat} {shape : List Nat}
    (shaped : Shaped f (n :: todo) current state)
    (inv : Inv f (n :: todo) current state)
    (outs : (f.heap.node n).output_shapes = [shape])
    (effect : Effect state after n replacement)
    (recorded : after.reorders ⟨replacement, 0⟩ = some t)
    (newShape : after.heap.get_shape ⟨t, 0⟩ = shape) :
    Shaped f todo (Function.update current n replacement) after := by
  refine shaped.step inv effect fun i bound t' recorded' => ?_
  rw [outs] at bound
  obtain rfl := Nat.lt_one_iff.mp bound
  obtain rfl := Option.some.inj (recorded.symm.trans recorded')
  rw [get_shape_of outs, newShape]

theorem Shaped.input (shaped : Shaped f (n :: todo) current state)
    (inv : Inv f (n :: todo) current state) {input : Output}
    (member : input ∈ (f.heap.node n).input_values) {rank t : Nat}
    {order : List Nat}
    (pending : Pending state (moved current input) rank t order) :
    state.heap.get_shape ⟨t, 0⟩ = f.heap.get_shape input := by
  obtain ⟨below, done, bound⟩ := inv.inputs member
  exact shaped _ below done _ bound t pending.entry

theorem Shaped.step_materialize (shaped : Shaped f (n :: todo) current state)
    (inv : Inv f (n :: todo) current state) (effect : Effect state after n n)
    (defaults : ∀ i < (f.heap.node n).output_shapes.length,
      Defaulted state after n i) :
    Shaped f todo (Function.update current n n) after := by
  refine shaped.step inv effect fun i bound t recorded => ?_
  obtain ⟨t', recorded', _, _, isNode⟩ := defaults i bound
  obtain rfl := Option.some.inj (recorded'.symm.trans recorded)
  rw [Heap.get_shape, isNode]
  change state.heap.get_shape ⟨n, i⟩ = _
  rw [Heap.get_shape, Heap.get_shape, inv.shapes n inv.nodeBelow]

section Rules

variable (inv : Inv f (n :: todo) current state)
  (shaped : Shaped f (n :: todo) current state)
  (inferred : infer other (f.heap.node n).op
    ((f.heap.node n).input_values.map f.heap.get_shape) =
    some (f.heap.node n).output_shapes)

include inv shaped inferred

theorem Shaped.sinkTranspose {second : List Nat}
    (op : (f.heap.node n).op = .Transpose second) (keeps : KeepsShape f state n)
    (success : sinkTranspose n state = .ok after) :
    Inv f todo (Function.update current n state.heap.size) after ∧
      Shaped f todo (Function.update current n state.heap.size) after := by
  rw [op] at inferred
  obtain ⟨shape, shapes, isSecond, outs⟩ := infer_transpose inferred
  obtain ⟨input, inputs, inputShape⟩ := map_singleton shapes
  subst inputShape
  obtain ⟨after', t, order, pending, success', effect, _, newNode,
    recorded, _⟩ :=
    inv.sinkTranspose_ok op inputs isSecond
  obtain rfl := Except.ok.inj (success.symm.trans success')
  have read : state.heap.input_value n 0 = moved current input := by
    refine input_value_of inv.input_values ?_
    rw [inputs]
    rfl
  have stateOp := (inv.ops n inv.nodeBelow).trans op
  have original : f.heap.input_value n 0 = input := input_value_of inputs rfl
  have keeps : permute (permute second order)
      (state.heap.get_shape (moved current input)) =
      permute second (f.heap.get_shape input) := by
    unfold KeepsShape at keeps
    simp only [stateOp, read, original, pending.entryOrder] at keeps
    rw [← keeps, permute_permute (pending.stored ▸ pending.isOrder.inside)
      (pending.isOrder.length.symm ▸ isSecond.inside)]
  have newShape : after.heap.get_shape ⟨state.heap.size, 0⟩ =
      permute second (f.heap.get_shape input) := by
    rw [Heap.get_shape, newNode]
    exact keeps
  have isCombined :
      IsOrder (permute second order)
        (permute second (f.heap.get_shape input)).length := by
    rw [length_permute isSecond.inside, isSecond.length]
    exact pending.isOrder.permute isSecond
  have isTranspose :
      (after.heap.node state.heap.size).op =
        .Transpose (permute second order) := by
    rw [newNode]
    rfl
  exact ⟨inv.step_one outs effect recorded isTranspose isCombined
    (by rw [newShape]), shaped.step_one inv outs effect recorded newShape⟩

theorem Shaped.sinkUnary {type_name : String}
    (op : (f.heap.node n).op = .Unary type_name)
    (success : sinkUnary n state = .ok after) :
    Inv f todo (Function.update current n n) after ∧
      Shaped f todo (Function.update current n n) after := by
  rw [op] at inferred
  obtain ⟨shape, shapes, outs⟩ := infer_unary inferred
  obtain ⟨input, inputs, inputShape⟩ := map_singleton shapes
  subst inputShape
  obtain ⟨t, order, pending, success', effect⟩ := inv.sinkUnary_ok inputs
  obtain rfl := Except.ok.inj (success.symm.trans success')
  exact ⟨inv.step_stays outs effect writeTransposemap_self
    pending.isTranspose.op pending.isOrder,
    shaped.step_one inv outs effect writeTransposemap_self
      (shaped.input inv (by simp [inputs]) pending)⟩

theorem Shaped.sinkBinary {type_name : String}
    (op : (f.heap.node n).op = .Binary type_name) (keeps : KeepsShape f state n)
    (success : sinkBinary n state = .ok after) :
    Inv f todo (Function.update current n n) after ∧
      Shaped f todo (Function.update current n n) after := by
  rw [op] at inferred
  obtain ⟨_, _, shape, shapes, _, outs⟩ := infer_binary inferred
  obtain ⟨first, second, inputs, _, _⟩ := map_pair shapes
  obtain ⟨left_t, right_t, p, q, left, right, operands⟩ :=
    inv.operands op inputs
  obtain ⟨effect, _, recorded⟩ := inv.sinkBinary_effect operands success
  have stateOp := (inv.ops n inv.nodeBelow).trans op
  rw [passedOn_eq operands left right] at recorded
  have firstShape := shaped.input inv (by simp [inputs]) left
  have secondShape := shaped.input inv (by simp [inputs]) right
  have firstInput : f.heap.input_value n 0 = first := input_value_of inputs rfl
  have secondInput : f.heap.input_value n 1 = second :=
    input_value_of inputs rfl
  unfold KeepsShape at keeps
  simp only [stateOp] at keeps
  have resultShape : f.heap.get_shape ⟨n, 0⟩ = shape := get_shape_of outs
  have isEntry : ∃ t order, after.reorders ⟨n, 0⟩ = some t ∧
      t < state.heap.size ∧
      IsTranspose state.heap t order ∧ IsOrder order order.length ∧
      state.heap.get_shape ⟨t, 0⟩ = shape := by
    by_cases passesLeft : PassesLeft state n
    · rw [if_pos passesLeft] at recorded keeps
      rw [firstInput, resultShape] at keeps
      exact ⟨left_t, p, recorded, left.below, left.isTranspose,
        left.isOrder.length.symm ▸ left.isOrder, firstShape.trans keeps⟩
    · rw [if_neg passesLeft] at recorded keeps
      rw [secondInput, resultShape] at keeps
      exact ⟨right_t, q, recorded, right.below, right.isTranspose,
        right.isOrder.length.symm ▸ right.isOrder, secondShape.trans keeps⟩
  obtain ⟨t, order, recorded, tBelow, isTranspose, isOrder, keeps⟩ := isEntry
  have length : order.length = shape.length :=
    isTranspose.shape_length.symm.trans (congrArg List.length keeps)
  have op' := (effect.ops t tBelow).trans isTranspose.op
  exact ⟨inv.step_stays outs effect recorded op' (length ▸ isOrder),
    shaped.step_one inv outs effect recorded
      ((effect.get_shape tBelow).trans keeps)⟩

theorem Shaped.sinkPad {pads_begin pads_end : List Int} {pad_mode : PadMode}
    (op : (f.heap.node n).op = .Pad pads_begin pads_end pad_mode)
    (success : sinkPad n pads_begin pads_end pad_mode state = .ok after) :
    Inv f todo (Function.update current n (state.heap.size + 1)) after ∧
      Shaped f todo (Function.update current n (state.heap.size + 1))
        after := by
  rw [op] at inferred
  obtain ⟨shape, padded, shapes, valid, outs⟩ := infer_pad inferred
  obtain ⟨first, second, inputs, firstShape, scalar⟩ := map_pair shapes
  subst firstShape
  have isFirst : first ∈ (f.heap.node n).input_values := by simp [inputs]
  obtain ⟨t, order, pending⟩ := inv.pending isFirst
  obtain ⟨beginLength, endLength, paddedLength⟩ := padShape_inv valid
  have operand := inv.padOperand op inputs scalar beginLength endLength pending
  rw [shaped.input inv isFirst pending] at operand
  have isOrder := pending.isOrder
  have dummyValid :=
    @padShape_permute pad_mode _ _ _ _ isOrder.inverse beginLength endLength
  rw [valid, Option.map_some] at dummyValid
  obtain ⟨after', success', effect, _, isNew, isTranspose, recorded, _⟩ :=
    inv.sinkPad_ok operand dummyValid
  obtain rfl := Except.ok.inj (success.symm.trans success')
  have isOrderPadded : IsOrder order padded.length :=
    paddedLength.symm ▸ isOrder
  have newShape : after.heap.get_shape ⟨state.heap.size + 2, 0⟩ = padded := by
    rw [Heap.get_shape, isTranspose]
    exact permute_inverse isOrderPadded
  have rank : (after.heap.get_shape ⟨state.heap.size + 1, 0⟩).length =
      padded.length := by
    rw [Heap.get_shape, isNew]
    change (permute (inverse order) padded).length = _
    rw [length_permute isOrderPadded.inverse.inside,
      isOrderPadded.inverse.length]
  exact ⟨inv.step_one outs effect recorded (congrArg Node.op isTranspose)
    isOrderPadded rank, shaped.step_one inv outs effect recorded newShape⟩

theorem Shaped.sinkConcat {axis : Nat} (op : (f.heap.node n).op = .Concat axis)
    (success : sinkConcat n axis state = .ok after) :
    Inv f todo (Function.update current n (replacement n state after)) after ∧
      Shaped f todo (Function.update current n (replacement n state after))
        after := by
  rw [op] at inferred
  obtain ⟨shape, valid, outs⟩ := infer_concat inferred
  have stateOp := (inv.ops n inv.nodeBelow).trans op
  have nonempty : (f.heap.node n).input_values ≠ [] := fun noInput =>
    concatShape_ne_nil valid (by rw [noInput, List.map_nil])
  obtain ⟨first, rest, inputs⟩ := List.exists_cons_of_ne_nil nonempty
  obtain ⟨t, order, pending, ordered | barrier⟩ :=
    inv.sinkConcat_cases axis inputs
  · have isOrder := pending.isOrder
    have shapes :
        ((first :: rest).map fun input =>
          entryShape state (moved current input)) =
        (first :: rest).map f.heap.get_shape := by
      apply List.map_congr_left
      intro input member
      have isInput : input ∈ (f.heap.node n).input_values := inputs ▸ member
      obtain ⟨t, _, pending⟩ := inv.pending isInput
      rw [entryShape, pending.entry]
      exact shaped.input inv isInput pending
    rw [shapes] at ordered
    rw [inputs] at valid
    obtain ⟨axisBelow, lengths⟩ := concatShape_length valid
    have rank : (f.heap.get_shape first).length = shape.length :=
      lengths _ (List.mem_map_of_mem List.mem_cons_self)
    have isOrderShape : IsOrder order shape.length := rank ▸ isOrder
    have axisBound : axis < order.length := isOrderShape.length.symm ▸ axisBelow
    have newBound : order[axis] < (inverse order).length := by
      rw [length_inverse, isOrderShape.length]
      exact isOrderShape.inside _ (List.getElem_mem axisBound)
    have dummyValid := concatShape_permute isOrderShape.inverse lengths newBound
    rw [getElem_inverse_self isOrderShape axisBound newBound, valid,
      Option.map_some] at dummyValid
    obtain ⟨after', concat, t', success', effect, _, isLast, kept, isConcat,
      isTranspose, recorded, _⟩ :=
      inv.sinkConcat_same (by rw [inv.input_values, inputs]; rfl)
        (isOrder.length.symm ▸ isOrder) ordered
        (List.getElem?_eq_getElem axisBound) dummyValid
    obtain rfl := Except.ok.inj (success.symm.trans success')
    have isReplacement : replacement n state after = concat := by
      simp only [replacement, stateOp]
      rw [if_pos kept, isLast]
    rw [isReplacement]
    have newShape : after.heap.get_shape ⟨t', 0⟩ = shape := by
      rw [Heap.get_shape, isTranspose]
      exact permute_inverse isOrderShape
    have newRank : (after.heap.get_shape ⟨concat, 0⟩).length =
        shape.length := by
      rw [Heap.get_shape, isConcat]
      change (permute (inverse order) shape).length = _
      rw [length_permute isOrderShape.inverse.inside,
        isOrderShape.inverse.length]
    exact ⟨inv.step_one outs effect recorded (congrArg Node.op isTranspose)
      isOrderShape newRank, shaped.step_one inv outs effect recorded newShape⟩
  · rw [barrier] at success
    obtain ⟨after', success', effect, _, _, defaults, _⟩ :=
      inv.materializeShapes_ok
    obtain rfl := Except.ok.inj (success.symm.trans success')
    have isReplacement : replacement n state after = n := by
      obtain ⟨t', recorded, _, above, _⟩ := defaults 0 (by simp [outs])
      simp only [replacement, stateOp]
      rw [if_neg]
      intro kept
      exact absurd (inv.entryBelow _ t' (kept.symm.trans recorded))
        (Nat.not_lt.mpr above)
    rw [isReplacement]
    exact ⟨inv.step_materialize effect defaults,
      shaped.step_materialize inv effect defaults⟩

omit inferred in
theorem Shaped.barrier (stays : replacement n state after = n)
    (success : materializeShapes n state = .ok after) :
    Inv f todo (Function.update current n (replacement n state after)) after ∧
      Shaped f todo (Function.update current n (replacement n state after))
        after := by
  obtain ⟨after', success', effect, _, _, defaults, _⟩ :=
    inv.materializeShapes_ok
  obtain rfl := Except.ok.inj (success.symm.trans success')
  rw [stays]
  exact ⟨inv.step_materialize effect defaults,
    shaped.step_materialize inv effect defaults⟩

/-- A step of the main loop. -/
theorem Shaped.sinkNode (keeps : KeepsShape f state n)
    (success : sinkNode n state = .ok after) :
    Inv f todo (Function.update current n (replacement n state after)) after ∧
      Shaped f todo (Function.update current n (replacement n state after))
        after := by
  cases op : (f.heap.node n).op with
  | Transpose second =>
      have stateOp := (inv.ops n inv.nodeBelow).trans op
      simp only [TransposeSinking.sinkNode, stateOp] at success
      simp only [replacement, stateOp]
      exact shaped.sinkTranspose inv inferred op keeps success
  | Unary type_name =>
      have stateOp := (inv.ops n inv.nodeBelow).trans op
      simp only [TransposeSinking.sinkNode, stateOp] at success
      simp only [replacement, stateOp]
      exact shaped.sinkUnary inv inferred op success
  | Binary type_name =>
      have stateOp := (inv.ops n inv.nodeBelow).trans op
      simp only [TransposeSinking.sinkNode, stateOp] at success
      simp only [replacement, stateOp]
      exact shaped.sinkBinary inv inferred op keeps success
  | Pad pads_begin pads_end pad_mode =>
      have stateOp := (inv.ops n inv.nodeBelow).trans op
      simp only [TransposeSinking.sinkNode, stateOp] at success
      simp only [replacement, stateOp]
      exact shaped.sinkPad inv inferred op success
  | Concat axis =>
      have stateOp := (inv.ops n inv.nodeBelow).trans op
      simp only [TransposeSinking.sinkNode, stateOp] at success
      exact shaped.sinkConcat inv inferred op success
  | Result =>
      have stateOp := (inv.ops n inv.nodeBelow).trans op
      simp only [TransposeSinking.sinkNode, stateOp] at success
      have stays : replacement n state after = n := by
        simp only [replacement, stateOp]
      rw [stays]
      obtain ⟨after', success', effect, _, _, defaults, _⟩ :=
        (inv.original _).materializeShapes_ok
      obtain rfl := Except.ok.inj (success.symm.trans success')
      exact ⟨(inv.original _).step_materialize effect defaults,
        (shaped.original _).step_materialize (inv.original _) effect defaults⟩
  | Parameter shape =>
      have stateOp := (inv.ops n inv.nodeBelow).trans op
      simp only [TransposeSinking.sinkNode, stateOp] at success
      exact shaped.barrier inv (by simp only [replacement, stateOp]) success
  | Reshape shape =>
      have stateOp := (inv.ops n inv.nodeBelow).trans op
      simp only [TransposeSinking.sinkNode, stateOp] at success
      exact shaped.barrier inv (by simp only [replacement, stateOp]) success
  | Label shape =>
      have stateOp := (inv.ops n inv.nodeBelow).trans op
      simp only [TransposeSinking.sinkNode, stateOp] at success
      exact shaped.barrier inv (by simp only [replacement, stateOp]) success
  | Other type_name =>
      have stateOp := (inv.ops n inv.nodeBelow).trans op
      simp only [TransposeSinking.sinkNode, stateOp] at success
      exact shaped.barrier inv (by simp only [replacement, stateOp]) success

end Rules

/-- Steps of the main loop. -/
theorem Shaped.sinkNodes {done rest : List Nat}
    (inferred : ∀ n ∈ done, infer other (f.heap.node n).op
      ((f.heap.node n).input_values.map f.heap.get_shape) =
      some (f.heap.node n).output_shapes)
    (inv : Inv f (done ++ rest) current state)
    (shaped : Shaped f (done ++ rest) current state)
    (keeps : Along (KeepsShape f) done state)
    (success : sinkNodes done state = .ok after) :
    Inv f rest (standsFor done state current) after ∧
      Shaped f rest (standsFor done state current) after := by
  induction done generalizing state current with
  | nil =>
      obtain rfl := Except.ok.inj success
      exact ⟨inv, shaped⟩
  | cons n done ih =>
      obtain ⟨keepsHere, keepsLater⟩ := keeps
      obtain ⟨mid, first, later⟩ := bind_ok success
      rw [first] at keepsLater
      obtain ⟨invNext, shapedNext⟩ := Shaped.sinkNode inv shaped
        (inferred n List.mem_cons_self) keepsHere first
      rw [standsFor, first]
      exact ih (fun m member => inferred m (List.mem_cons_of_mem _ member))
        invNext shapedNext keepsLater later

end Step

/-- An entry of the rank and of the shape that an output had in the original
function: over the node that stands for it, the order is one of its axes, and
the dummy that a rule makes of the entry gives the shape in this order. -/
def EntryMatches (f : Function) (state : State) (node : Nat)
    (output : Output) : Prop :=
  ∃ t order, state.reorders ⟨node, output.index⟩ = some t ∧
    (state.heap.node t).op = .Transpose order ∧
    state.heap.get_shape ⟨t, 0⟩ = f.heap.get_shape output ∧
    IsOrder order (f.heap.get_shape output).length ∧
    IsOrder order (state.heap.get_shape ⟨node, output.index⟩).length ∧
    permute order (permute (inverse order) (state.heap.get_shape ⟨t, 0⟩)) =
      f.heap.get_shape output

/-- In every state of a run whose steps keep shapes, the entries match. -/
theorem sinkNodes_entries {other : Inference} {f : Function}
    (wellFormed : WellFormed other f) {done rest : List Nat} {state : State}
    (split : f.ops = done ++ rest) (keeps : Along (KeepsShape f) done f.init)
    (success : sinkNodes done f.init = .ok state) :
    ∀ n ∈ done, ∀ i < (f.heap.node n).output_shapes.length,
      EntryMatches f state (standsFor done f.init id n) ⟨n, i⟩ := by
  have start := Inv.init wellFormed
  have notYet : Shaped f f.ops id f.init :=
    fun n below notTodo => absurd ((wellFormed.ops n).mpr below) notTodo
  rw [split] at start notYet
  have isOp : ∀ n ∈ done, n ∈ f.ops := fun n member => by simp [split, member]
  obtain ⟨inv, shaped⟩ :=
    Shaped.sinkNodes (fun n member => wellFormed.inferred n (isOp n member))
      start notYet keeps success
  intro n member i bound
  have below := (wellFormed.ops n).mp (isOp n member)
  have isDone : n ∉ rest := by
    have nodup := wellFormed.nodup
    rw [split] at nodup
    exact fun isRest => (List.nodup_append.mp nodup).2.2 n member n isRest rfl
  obtain ⟨t, order, recorded, isTranspose, isOrder, _⟩ :=
    inv.entry n below isDone i bound
  have shape := shaped n below isDone i bound t recorded
  refine ⟨t, order, recorded, isTranspose, shape, isOrder, ?_, ?_⟩
  · exact (inv.rank n below isDone i bound).symm ▸ isOrder
  · rw [shape]
    exact permute_inverse isOrder

/-- A column of two and a vector of three are added. -/
def broadcastFunction : Function where
  heap := .ofList
    [⟨.Parameter [2, 1], [], [[2, 1]]⟩, ⟨.Parameter [3], [], [[3]]⟩,
      ⟨.Binary "Add", [⟨0, 0⟩, ⟨1, 0⟩], [[2, 3]]⟩,
      ⟨.Result, [⟨2, 0⟩], [[2, 3]]⟩]
  ops := [0, 1, 2, 3]
  results := [3]

theorem broadcastFunction_wellFormed :
    WellFormed (fun _ _ => none) broadcastFunction :=
  .of_range rfl (by decide) (by decide) (by decide) (by decide)

/-- The entry of the sum is the default transpose of the vector. -/
theorem broadcastFunction_entry :
    WellFormed (fun _ _ => none) broadcastFunction ∧
    ∃ state, sinkNodes [0, 1, 2] broadcastFunction.init = .ok state ∧
      ¬ EntryMatches broadcastFunction state
        (standsFor [0, 1, 2] broadcastFunction.init id 2)
        ⟨2, 0⟩ := by
  refine ⟨broadcastFunction_wellFormed, _, rfl, ?_⟩
  rintro ⟨t, order, recorded, _, stored, _⟩
  have isEntry : t = 5 := (Option.some.inj recorded).symm
  subst isEntry
  exact absurd stored (by decide)

/-- Constants without dimensions are the other ops. -/
def scalarInference : Inference :=
  fun type_name _ => if type_name = "Constant" then some [[]] else none

/-- A bias is added behind a transpose, and the sum is padded. -/
def biasPadFunction : Function where
  heap := .ofList [⟨.Parameter [2, 3, 4], [], [[2, 3, 4]]⟩,
    ⟨.Transpose [1, 2, 0], [⟨0, 0⟩], [[3, 4, 2]]⟩, ⟨.Parameter [2], [], [[2]]⟩,
    ⟨.Binary "Add", [⟨1, 0⟩, ⟨2, 0⟩], [[3, 4, 2]]⟩,
    ⟨.Other "Constant", [], [[]]⟩,
    ⟨.Pad [1, 0, 0] [0, 2, 3] .CONSTANT, [⟨3, 0⟩, ⟨4, 0⟩], [[4, 6, 5]]⟩,
    ⟨.Result, [⟨5, 0⟩], [[4, 6, 5]]⟩]
  ops := [0, 1, 2, 3, 4, 5, 6]
  results := [6]

theorem biasPadFunction_wellFormed :
    WellFormed scalarInference biasPadFunction :=
  .of_range rfl (by decide) (by decide) (by decide) (by decide)

theorem sinkNodes_entries_biasPad :
    ∃ state, sinkNodes [0, 1, 2, 3, 4, 5] biasPadFunction.init = .ok state ∧
      EntryMatches biasPadFunction state
        (standsFor [0, 1, 2, 3, 4, 5] biasPadFunction.init id 3) ⟨3, 0⟩ ∧
      EntryMatches biasPadFunction state
        (standsFor [0, 1, 2, 3, 4, 5] biasPadFunction.init id 5) ⟨5, 0⟩ := by
  have entries :=
    @sinkNodes_entries _ _ biasPadFunction_wellFormed
      [0, 1, 2, 3, 4, 5] [6] _ rfl (by decide) rfl
  exact ⟨_, rfl, entries 3 (by decide) 0 (by decide),
    entries 5 (by decide) 0 (by decide)⟩

end NGraphBridge.TransposeSinking
