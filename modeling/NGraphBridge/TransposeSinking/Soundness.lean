import NGraphBridge.TransposeSinking.Values

/-!
# Values behind each rule

The rules keep what stands for the outputs, if none of them goes wrong.
-/

namespace NGraphBridge.TransposeSinking

open NGraph (Output Shape)
open Tensor Axes

/-- The pad reads the first output of its producer, and the dummy can be
padded. -/
def PadMeets (state : State) (n : Nat) (pads_begin pads_end : List Int)
    (pad_mode : PadMode) : Prop :=
  let input := state.heap.input_value n 0
  let def_order := inverse (entryOrder state input)
  input.index = 0 ∧
    (padShape pad_mode (permute def_order pads_begin)
      (permute def_order pads_end)
      (permute def_order (entryShape state input))).isSome

/-- The dummies can be concatenated, if all arguments are in one order. -/
def ConcatMeets (state : State) (n concatenation_axis : Nat) : Prop :=
  let iargs := (state.heap.node n).input_values
  let order := entryOrder state (state.heap.input_value n 0)
  (∀ iarg ∈ iargs, entryOrder state iarg = order) →
    (concatShape (order.getD concatenation_axis 0)
      ((iargs.map (entryShape state)).map (permute (inverse order)))).isSome

/-- Operands of the shapes `a` and `b`, transposed by `p` and `q`: the rule
brings them in one order, an operand of lower rank has nothing to move, and the
order that is passed on has the rank of the result. -/
def OperandsMeet (left_shape right_shape : Shape) (p q : List Nat)
    (a b shape : Shape) : Prop :=
  if a.length = b.length then
    p = q ∨ p = List.range a.length ∨ q = List.range b.length ∨
      (Fixes q a ∧ Fixes q b) ∨
      (0 ∈ shape ∧ stretchAll (permute p (permute (inverse q) a)) b =
        some shape)
  else if a.length < b.length then
    p = List.range a.length ∧ (q = List.range b.length ∨
      (left_shape = a ∧ (0 ∈ shape ∨ Keeps (inverse q) (extend b.length a))))
  else
    q = List.range b.length ∧ if p = List.range a.length then
      left_shape = shape else
      right_shape = b ∧ (0 ∈ shape ∨ Keeps (inverse p) (extend a.length b))

instance (left_shape right_shape : Shape) (p q : List Nat) (a b shape : Shape) :
    Decidable (OperandsMeet left_shape right_shape p q a b shape) := by
  unfold OperandsMeet
  infer_instance

def BinaryMeets (f : Function) (state : State) (n : Nat) : Prop :=
  let left := state.heap.input_value n 0
  let right := state.heap.input_value n 1
  let p := entryOrder state left
  let q := entryOrder state right
  OperandsMeet (state.heap.get_shape left) (state.heap.get_shape right) p q
    (permute (inverse p) (f.heap.get_shape (f.heap.input_value n 0)))
    (permute (inverse q) (f.heap.get_shape (f.heap.input_value n 1)))
    (f.heap.get_shape ⟨n, 0⟩)

def OpMeets (f : Function) (state : State) (n : Nat) : Op → Prop
  | .Binary _ => BinaryMeets f state n
  | .Pad pads_begin pads_end pad_mode =>
      PadMeets state n pads_begin pads_end pad_mode
  | .Concat concatenation_axis => ConcatMeets state n concatenation_axis
  | _ => True

/-- The condition under which a step keeps the values. -/
def Meets (f : Function) (state : State) (n : Nat) : Prop :=
  OpMeets f state n (state.heap.node n).op

instance (f : Function) (state : State) (n : Nat) :
    Decidable (BinaryMeets f state n) :=
  inferInstanceAs (Decidable (OperandsMeet _ _ _ _ _ _ _))

instance (state : State) (n : Nat) (pads_begin pads_end : List Int)
    (pad_mode : PadMode) :
    Decidable (PadMeets state n pads_begin pads_end pad_mode) :=
  inferInstanceAs (Decidable (_ ∧ _))

instance (state : State) (n concatenation_axis : Nat) :
    Decidable (ConcatMeets state n concatenation_axis) := by
  have := List.decidableBAll
    (fun iarg => entryOrder state iarg =
      entryOrder state (state.heap.input_value n 0))
    (state.heap.node n).input_values
  unfold ConcatMeets
  infer_instance

instance OpMeets.decidable (f : Function) (state : State) (n : Nat) :
    (op : Op) → Decidable (OpMeets f state n op)
  | .Binary _ => inferInstanceAs (Decidable (BinaryMeets f state n))
  | .Pad pads_begin pads_end pad_mode =>
      inferInstanceAs
        (Decidable (PadMeets state n pads_begin pads_end pad_mode))
  | .Concat concatenation_axis =>
      inferInstanceAs (Decidable (ConcatMeets state n concatenation_axis))
  | .Parameter _ | .Transpose _ | .Reshape _ | .Unary _ | .Result | .Label
    _ | .Other _ =>
      .isTrue trivial

instance (f : Function) (state : State) (n : Nat) :
    Decidable (Meets f state n) :=
  OpMeets.decidable f state n (state.heap.node n).op

section Operands

variable {state : State} {binary left_t right_t : Nat} {type_name : String}
  {left right : Output} {p q a b shape : List Nat}
  (operands : Operands state binary type_name left right left_t right_t p q)
  (leftRank : (state.heap.get_shape left).length = a.length)
  (rightRank : (state.heap.get_shape right).length = b.length)

include operands leftRank rightRank

theorem sinksCorrectly_of_meets
    (fits : broadcastShape (permute p a) (permute q b) = some shape)
    (outShape : state.heap.get_shape ⟨binary, 0⟩ = shape)
    (meets : OperandsMeet (state.heap.get_shape left)
      (state.heap.get_shape right) p q a b shape) :
    SinksCorrectly state binary type_name left right p q a b := by
  obtain ⟨_, _, isP, isQ⟩ := operands.defaults leftRank rightRank
  unfold OperandsMeet at meets
  by_cases sameRank : a.length = b.length
  · rw [if_pos sameRank] at meets
    have isQ' : IsOrder q a.length := sameRank ▸ isQ
    have rightRank' := rightRank.trans sameRank.symm
    have ranks : (permute p a).length = (permute q b).length := by
      rw [length_permute isP.inside, length_permute isQ.inside, isP.length,
        isQ.length, sameRank]
    rw [broadcastShape, extend_self (Nat.le_of_eq ranks.symm),
      extend_self (Nat.le_of_eq ranks)]
      at fits
    by_cases ordered : p = q ∨ p = List.range a.length ∨ q = List.range a.length
    · exact sinksCorrectly_of_default operands isP isQ' leftRank rightRank' rfl
        sameRank.symm ordered
    · rw [sinksCorrectly_crossed operands isP isQ' leftRank rightRank' rfl
        sameRank.symm fits ordered]
      rw [← sameRank] at meets
      rcases meets with isSame | isDefault | isDefault | crossed
      · exact absurd (.inl isSame) ordered
      · exact absurd (.inr (.inl isDefault)) ordered
      · exact absurd (.inr (.inr isDefault)) ordered
      · exact crossed
  · rw [if_neg sameRank] at meets
    by_cases lower : a.length < b.length
    · rw [if_pos lower] at meets
      obtain ⟨pDefault, meets⟩ := meets
      by_cases qDefault : q = List.range b.length
      · exact sinksCorrectly_lower_defaults operands leftRank rightRank lower
          pDefault qDefault fits outShape
      · rw [sinksCorrectly_lower_left operands leftRank rightRank lower
          pDefault qDefault (meets.resolve_left qDefault).1 fits]
        exact (meets.resolve_left qDefault).2
    · rw [if_neg lower] at meets
      obtain ⟨qDefault, meets⟩ := meets
      have higher : b.length < a.length := by omega
      by_cases pDefault : p = List.range a.length
      · rw [if_pos pDefault] at meets
        have outRank := rank_broadcast isP isQ fits
        rw [sinksCorrectly_defaults operands leftRank rightRank sameRank
          pDefault qDefault fits, if_pos (outShape.trans meets.symm)]
        omega
      · rw [if_neg pDefault] at meets
        rw [sinksCorrectly_lower_right operands leftRank rightRank higher
          pDefault qDefault meets.1 fits]
        exact meets.2

end Operands

section Rules

variable {V : Type} [Inhabited V] {other : Inference}
  {library : Library V other} {f : Function} {argument : Nat → Tensor V}
  {n replacement : Nat} {todo : List Nat} {current : Nat → Nat}
  {state after : State}

theorem Effect.notMarked (effect : Effect state after n replacement)
    (inv : Inv f (n :: todo) current state) :
    n ∉ after.transposes_to_delete := by
  intro isMarked
  obtain before | ⟨old, isEntry⟩ | ⟨isNew, _⟩ := effect.deleted n isMarked
  · exact inv.notDeleted before
  · exact absurd inv.nodeBelow (Nat.not_lt.mpr (inv.entries old n isEntry).2.1)
  · exact absurd inv.nodeBelowState (Nat.not_lt.mpr isNew)

/-- An input that is read in its order has the value of the original input. -/
theorem Sound.materialized
    (sound : Sound library f argument (n :: todo) current state)
    (effect : Effect state after n n) {j : Nat} {input : Output}
    (member : input ∈ (f.heap.node n).input_values)
    (materialized : Materialized state after n j (moved current input))
    {value : Tensor V}
    (evaluates : Evaluates library (given f argument) [] f.heap input value) :
    ∃ arg, (after.heap.node n).input_values[j]? = some arg ∧
      Evaluates library (given f argument) after.transposes_to_delete after.heap
        arg value := by
  obtain ⟨below, done, _⟩ := sound.inv.inputs member
  obtain ⟨t, order, isEntry, op, reads⟩ := materialized
  obtain ⟨t', order', tensor, isEntry', op', evaluated, isOrder, isValue⟩ :=
    sound.input member evaluates
  obtain rfl := Option.some.inj (isEntry.symm.trans isEntry')
  obtain rfl := Op.Transpose.inj (op.symm.trans op')
  have kept := effect.evaluates sound.inv below done evaluated
  cases reads with
  | inl direct =>
      obtain ⟨isDefault, atPlace⟩ := direct
      have rank : order = List.range tensor.rank := by
        rw [← isOrder.length, isDefault, getDefaultOrder, List.length_range]
      rw [rank, transpose_range] at isValue
      exact ⟨_, atPlace, isValue ▸ kept⟩
  | inr inserted =>
      obtain ⟨id, shapes, atPlace, above, _, isNode, stays⟩ := inserted
      have isNew : f.heap.size ≤ id := Nat.le_trans sound.inv.sizes above
      refine ⟨_, atPlace,
        .single (given_new isNew) stays
          (congrArg Node.input_values isNode) kept ?_⟩
      rw [isNode, Op.apply, if_pos isOrder, isValue]

/-- The node reads the values of the original inputs. -/
theorem Sound.evaluates_barrier
    (sound : Sound library f argument (n :: todo) current state)
    (effect : Effect state after n n)
    (length : (after.heap.node n).input_values.length =
      (f.heap.node n).input_values.length)
    (materialized : ∀ j input, (f.heap.node n).input_values[j]? = some input →
      Materialized state after n j (moved current input)) {i : Nat}
    {value : Tensor V}
    (evaluates : Evaluates library (given f argument) [] f.heap ⟨n, i⟩ value) :
    Evaluates library (given f argument) after.transposes_to_delete after.heap
      ⟨n, i⟩ value := by
  have inv := sound.inv
  cases isGiven : given f argument ⟨n, i⟩ with
  | some tensor =>
      rw [evaluates.unique (.known isGiven)]
      exact .known isGiven
  | none =>
      obtain ⟨val, outputs, args, applied, picked⟩ :=
        evaluates.apply_inv isGiven fun both => List.not_mem_nil both.1
      have op : (after.heap.node n).op = (f.heap.node n).op :=
        (effect.ops n inv.nodeBelowState).trans (inv.ops n inv.nodeBelow)
      refine .node isGiven (fun both => effect.notMarked inv both.1)
        ((List.length_map val).trans length.symm) ?_ (op ▸ applied) picked
      intro j arg tensor atArg atTensor
      rw [List.getElem?_map] at atTensor
      obtain ⟨input, atInput, rfl⟩ := Option.map_eq_some_iff.mp atTensor
      have member := List.mem_of_getElem? atInput
      obtain ⟨arg', atArg', evaluated⟩ :=
        sound.materialized effect member (materialized j input atInput)
          (args input member)
      obtain rfl := Option.some.inj (atArg.symm.trans atArg')
      exact evaluated

/-- Values for the operands in front of other ones. -/
def knowingFirst (known : Output → Option (Tensor V)) (left right : Output)
    (l r : Tensor V) (output : Output) : Option (Tensor V) :=
  if output = left then some l else if output = right then some r
  else known output

omit [Inhabited V] in
theorem Operands.knowsFirst {left_t right_t : Nat} {type_name : String}
    {left right : Output} {p q : List Nat} {known : Output → Option (Tensor V)}
    {l r : Tensor V}
    (operands : Operands state n type_name left right left_t right_t p q)
    (oneValue : left = right → r = l) (unknown : known ⟨n, 0⟩ = none)
    (new : ∀ id, state.heap.size ≤ id → known ⟨id, 0⟩ = none) :
    Knows state n left right (knowingFirst known left right l r) l r where
  left := if_pos rfl
  right := by
    unfold knowingFirst
    split
    · next same => rw [oneValue same.symm]
    · exact if_pos rfl
  binary := by
    have notLeft : (⟨n, 0⟩ : Output) ≠ left :=
      fun same => operands.leftOther (same ▸ rfl)
    have notRight : (⟨n, 0⟩ : Output) ≠ right :=
      fun same => operands.rightOther (same ▸ rfl)
    rw [knowingFirst, if_neg notLeft, if_neg notRight, unknown]
  new := by
    intro id above
    have notLeft : (⟨id, 0⟩ : Output) ≠ left := fun same =>
      absurd operands.leftBelow (Nat.not_lt.mpr (same ▸ above))
    have notRight : (⟨id, 0⟩ : Output) ≠ right := fun same =>
      absurd operands.rightBelow (Nat.not_lt.mpr (same ▸ above))
    rw [knowingFirst, if_neg notLeft, if_neg notRight, new id above]

/-- Where the operands evaluate to the values, these need not be given. -/
theorem Evaluates.cut_knowingFirst {known : Output → Option (Tensor V)}
    {deleted : List Nat} {heap : Heap} {left right output : Output}
    {l r value : Tensor V}
    (evaluated : Evaluates library (knowingFirst known left right l r) deleted
      heap output value)
    (atLeft : Evaluates library known deleted heap left l)
    (atRight : Evaluates library known deleted heap right r) :
    Evaluates library known deleted heap output value := by
  refine evaluated.cut ?_ ?_
  · intro output value isKnown
    unfold knowingFirst at isKnown
    split at isKnown
    · next same =>
        obtain rfl := Option.some.inj isKnown
        exact same ▸ atLeft
    · split at isKnown
      · next same =>
          obtain rfl := Option.some.inj isKnown
          exact same ▸ atRight
      · exact .known isKnown
  · intro output unknown
    unfold knowingFirst at unknown
    split at unknown
    · exact absurd unknown (by simp)
    · split at unknown
      · exact absurd unknown (by simp)
      · exact unknown

/-- A concatenation of tensors in one order, along the axis that `axis` was. -/
theorem Evaluates.concat_ordered {known : Output → Option (Tensor V)}
    {deleted : List Nat} {heap : Heap} {new axis : Nat} {order : List Nat}
    {bound : axis < order.length} {inputs : List Output}
    {source : Output → Output} {val : Output → Tensor V} {result : Tensor V}
    (unknown : known ⟨new, 0⟩ = none) (notDeleted : new ∉ deleted)
    (op : (heap.node new).op = .Concat order[axis])
    (isInputs : (heap.node new).input_values = inputs.map source)
    (nonempty : inputs ≠ []) (isOrder : IsOrder order order.length)
    (each : ∀ input ∈ inputs, ∃ tensor,
      Evaluates library known deleted heap (source input) tensor ∧
      IsOrder order tensor.rank ∧ tensor.transpose order = val input)
    (computed : Tensor.concat axis (inputs.map val) = some result) :
    ∃ pending, Evaluates library known deleted heap ⟨new, 0⟩ pending ∧
      IsOrder order pending.rank ∧ pending.transpose order = result := by
  have : Nonempty (Tensor V) := ⟨.ofFn [] fun _ => default⟩
  choose! tensor isTensor using each
  have ranks : ∀ x ∈ inputs.map tensor, x.rank = order.length := by
    intro x member
    obtain ⟨input, isInput, rfl⟩ := List.mem_map.mp member
    exact (isTensor input isInput).2.1.length.symm
  have restored : (inputs.map tensor).map (transpose order) =
      inputs.map val := by
    rw [List.map_map]
    exact List.map_congr_left fun input member => (isTensor input member).2.2
  rw [← restored, concat_transpose isOrder ranks bound,
    Option.map_eq_some_iff] at computed
  obtain ⟨pending, computed, isValue⟩ := computed
  refine ⟨pending, ?_, ?_, isValue⟩
  · refine .concat unknown notDeleted op ?_ ?_ computed
    · rw [isInputs, List.length_map, List.length_map]
    · intro i input arg atInput atValue
      rw [isInputs, List.getElem?_map] at atInput
      obtain ⟨original, atOriginal, rfl⟩ := Option.map_eq_some_iff.mp atInput
      rw [List.getElem?_map, atOriginal] at atValue
      obtain rfl := Option.some.inj atValue
      exact (isTensor original (List.mem_of_getElem? atOriginal)).1
  · obtain ⟨first, isFirst⟩ := List.exists_mem_of_ne_nil inputs nonempty
    rw [← rank_concat computed (List.mem_map_of_mem isFirst)]
    exact (isTensor first isFirst).2.1

section Shapes

variable (sound : Sound library f argument (n :: todo) current state)
  (wellFormed : WellFormed other f) (accepts : Accepts f argument)

include sound wellFormed accepts

theorem Sound.materializeShapes (original : (f.heap.node n).op = .Result →
    state.orig_result_out_shape n = f.heap.get_shape ⟨n, 0⟩) :
    ∃ after, materializeShapes n state = .ok after ∧
      Sound library f argument todo (Function.update current n n) after := by
  have inv := sound.inv
  obtain ⟨after, success, effect, originals, length, defaults, materialized⟩ :=
    inv.materializeShapes_ok
  have evaluated : ∀ i value,
      Evaluates library (given f argument) [] f.heap ⟨n, i⟩ value →
      Evaluates library (given f argument) after.transposes_to_delete after.heap
        ⟨n, i⟩ value :=
    fun i value => sound.evaluates_barrier effect length materialized
  refine ⟨after, success,
    sound.step effect (inv.step_materialize effect defaults) ?_ ?_ ?_ ?_⟩
  · intro m _
    rw [originals]
  · intro i bound value evaluates
    obtain ⟨t, recorded, _, _, isTranspose⟩ := defaults i bound
    have rank : getDefaultOrder (state.heap.get_shape ⟨n, i⟩) =
        List.range value.rank := by
      rw [getDefaultOrder, Heap.get_shape, inv.shapes n inv.nodeBelow,
        Tensor.rank, wellFormed.value_get_shape accepts inv.nodeBelow evaluates,
        Heap.get_shape]
    rw [rank] at isTranspose
    exact ⟨t, _, value, recorded, congrArg Node.op isTranspose,
      evaluated i value evaluates, isOrder_range _, transpose_range value⟩
  · intro isResult
    rw [originals]
    exact ⟨original isResult, rfl, evaluated 0⟩
  · intro noInput
    rw [noInput] at length
    exact List.length_eq_zero_iff.mp length

/-- An output of a node with one output stands for it. -/
theorem Sound.step_one {t : Nat} {order shape : List Nat} {input : Output}
    (member : input ∈ (f.heap.node n).input_values)
    (notResult : (f.heap.node n).op ≠ .Result)
    (outs : (f.heap.node n).output_shapes = [shape])
    (effect : Effect state after n replacement)
    (original : after.orig_result_out_shape = state.orig_result_out_shape)
    (recorded : after.reorders ⟨replacement, 0⟩ = some t)
    (isTranspose : (after.heap.node t).op = .Transpose order)
    (rank : (after.heap.get_shape ⟨replacement, 0⟩).length = shape.length)
    (newValue : ∀ value,
      Evaluates library (given f argument) [] f.heap ⟨n, 0⟩ value →
      ∃ pending, Evaluates library (given f argument) after.transposes_to_delete
        after.heap ⟨replacement, 0⟩ pending ∧ IsOrder order pending.rank ∧
        pending.transpose order = value) :
    Sound library f argument todo (Function.update current n replacement)
      after := by
  have inv := sound.inv
  have bound : 0 < (f.heap.node n).output_shapes.length := by
    rw [outs]
    exact Nat.one_pos
  obtain ⟨value, evaluates⟩ := wellFormed.evaluates accepts inv.nodeBelow bound
  obtain ⟨pending, _, isOrder, isValue⟩ := newValue value evaluates
  have isOrderShape : IsOrder order shape.length := by
    have valueShape :=
      wellFormed.value_get_shape accepts inv.nodeBelow evaluates
    rw [get_shape_of outs] at valueShape
    rw [← valueShape, ← isValue]
    have lengths := rank_transpose isOrder
    rw [Tensor.rank] at lengths
    rwa [lengths]
  refine sound.step effect
    (inv.step_one outs effect recorded isTranspose isOrderShape rank)
    (fun m _ => congrFun original m) ?_
    (fun isResult => absurd isResult notResult) ?_
  · intro i bound value evaluates
    rw [outs] at bound
    obtain rfl := Nat.lt_one_iff.mp bound
    obtain ⟨pending, evaluated, isOrder, isValue⟩ := newValue value evaluates
    exact ⟨t, order, pending, recorded, isTranspose, evaluated,
      isOrder, isValue⟩
  · intro noInput
    rw [noInput] at member
    exact absurd member List.not_mem_nil

theorem Sound.sinkTranspose {second : List Nat}
    (op : (f.heap.node n).op = .Transpose second) :
    ∃ after, sinkTranspose n state = .ok after ∧
      Sound library f argument todo (Function.update current n state.heap.size)
        after := by
  have inv := sound.inv
  have inferred := wellFormed.inferred n ((wellFormed.ops n).mpr inv.nodeBelow)
  rw [op] at inferred
  obtain ⟨shape, shapes, isSecond, outs⟩ := infer_transpose inferred
  obtain ⟨input, inputs, rfl⟩ := map_singleton shapes
  have member : input ∈ (f.heap.node n).input_values := by simp [inputs]
  obtain ⟨inputBelow, inputDone, _⟩ := inv.inputs member
  obtain ⟨after, t, order, pending, success, effect, original, newNode,
    recorded, isDeleted⟩ :=
    inv.sinkTranspose_ok op inputs isSecond
  have isTranspose :
      (after.heap.node state.heap.size).op =
        .Transpose (permute second order) := by
    rw [newNode]
    rfl
  have isCombined := pending.isOrder.permute isSecond
  refine ⟨after, success, sound.step_one wellFormed accepts member
    (fun isResult => Op.noConfusion (op.symm.trans isResult)) outs effect
    original recorded isTranspose ?_ ?_⟩
  · rw [Heap.get_shape, newNode, Heap.transposeOf]
    change (permute _ _).length = _
    rw [length_permute (pending.stored.symm ▸ isCombined.inside),
      isCombined.length, length_permute isSecond.inside, isSecond.length]
  · intro value evaluates
    have unknown : given f argument ⟨n, 0⟩ = none :=
      given_none op fun _ => Op.noConfusion
    obtain ⟨val, outputs, args, applied, picked⟩ :=
      evaluates.apply_inv unknown fun both => List.not_mem_nil both.1
    rw [op, inputs, List.map_singleton, Op.apply] at applied
    obtain ⟨tensor, evaluated, isOrder, isValue⟩ :=
      (sound.input member (args input member)).pending pending
    have isOrderSecond : IsOrder second (val input).rank := by
      split at applied
      · assumption
      · exact absurd applied (by simp)
    rw [if_pos isOrderSecond, Option.some.injEq] at applied
    subst applied
    obtain rfl := Option.some.inj picked
    have isSecondTensor : IsOrder second tensor.rank := by
      rw [← isValue, rank_transpose isOrder] at isOrderSecond
      exact isOrderSecond
    refine ⟨tensor, ?_, isOrder.permute isSecondTensor, ?_⟩
    · apply Evaluates.deleted (given_new inv.sizes) isDeleted
      rw [input_value_of (congrArg Node.input_values newNode) rfl]
      exact effect.evaluates inv inputBelow inputDone evaluated
    · rw [← isValue, transpose_transpose isOrder isSecondTensor]

theorem Sound.sinkUnary {type_name : String}
    (op : (f.heap.node n).op = .Unary type_name) :
    ∃ after, sinkUnary n state = .ok after ∧
      Sound library f argument todo (Function.update current n n) after := by
  have inv := sound.inv
  have inferred := wellFormed.inferred n ((wellFormed.ops n).mpr inv.nodeBelow)
  rw [op] at inferred
  obtain ⟨shape, shapes, outs⟩ := infer_unary inferred
  obtain ⟨input, inputs, rfl⟩ := map_singleton shapes
  have member : input ∈ (f.heap.node n).input_values := by simp [inputs]
  obtain ⟨inputBelow, inputDone, _⟩ := inv.inputs member
  obtain ⟨t, order, pending, success, effect⟩ := inv.sinkUnary_ok inputs
  have unknown : given f argument ⟨n, 0⟩ = none :=
    given_none op fun _ => Op.noConfusion
  refine ⟨_, success, sound.step_one wellFormed accepts member
    (fun isResult => Op.noConfusion (op.symm.trans isResult)) outs effect rfl
    writeTransposemap_self pending.isTranspose.op ?_ ?_⟩
  · rw [effect.get_shape inv.nodeBelowState, Heap.get_shape,
      inv.shapes n inv.nodeBelow, outs]
    rfl
  · intro value evaluates
    obtain ⟨val, outputs, args, applied, picked⟩ :=
      evaluates.apply_inv unknown fun both => List.not_mem_nil both.1
    rw [op, inputs, List.map_singleton, Op.apply, Option.some.injEq] at applied
    subst applied
    obtain rfl := Option.some.inj picked
    obtain ⟨tensor, evaluated, isOrder, isValue⟩ :=
      (sound.input member (args input member)).pending pending
    refine ⟨tensor.map (library.unary type_name), ?_, isOrder, ?_⟩
    · refine .single unknown (effect.notMarked inv) ?_
        (effect.evaluates inv inputBelow inputDone evaluated) ?_
      · change (state.heap.node n).input_values = _
        rw [inv.input_values, inputs]
        rfl
      · change (state.heap.node n).op.apply library _ = _
        rw [inv.ops n inv.nodeBelow, op]
        rfl
    · rw [← isValue, map_transpose _ isOrder]

theorem Sound.sinkPad {pads_begin pads_end : List Int} {pad_mode : PadMode}
    (op : (f.heap.node n).op = .Pad pads_begin pads_end pad_mode)
    (meets : PadMeets state n pads_begin pads_end pad_mode) :
    ∃ after, sinkPad n pads_begin pads_end pad_mode state = .ok after ∧
      Sound library f argument todo
        (Function.update current n (state.heap.size + 1)) after := by
  have inv := sound.inv
  have inferred := wellFormed.inferred n ((wellFormed.ops n).mpr inv.nodeBelow)
  rw [op] at inferred
  obtain ⟨shape, padded, shapes, valid, outs⟩ := infer_pad inferred
  obtain ⟨first, second, inputs, rfl, scalar⟩ := map_pair shapes
  have isFirst : first ∈ (f.heap.node n).input_values := by simp [inputs]
  have isSecond : second ∈ (f.heap.node n).input_values := by simp [inputs]
  obtain ⟨firstBelow, firstDone, _⟩ := inv.inputs isFirst
  obtain ⟨secondBelow, secondDone, _⟩ := inv.inputs isSecond
  obtain ⟨t, order, pending⟩ := inv.pending isFirst
  obtain ⟨_, _, pendingSecond⟩ := inv.pending isSecond
  obtain ⟨beginLength, endLength, paddedLength⟩ := padShape_inv valid
  have operand := inv.padOperand op inputs scalar beginLength endLength pending
  have read : state.heap.input_value n 0 = moved current first := by
    refine input_value_of inv.input_values ?_
    rw [inputs]
    rfl
  obtain ⟨isZero, dummyValid⟩ := meets
  have stored : entryShape state (moved current first) = state.heap.get_shape
      ⟨t, 0⟩ := by
    rw [entryShape, pending.entry]
  rw [read, pending.entryOrder, stored] at dummyValid
  rw [read] at isZero
  obtain ⟨dummy_shape, dummyValid⟩ := Option.isSome_iff_exists.mp dummyValid
  obtain ⟨after, success, effect, original, isNew, isTranspose, recorded,
    deleted⟩ :=
    inv.sinkPad_ok operand dummyValid
  have sameInput : (⟨(moved current first).node, 0⟩ : Output) =
      moved current first := by
    rw [← isZero]
  have unknown : given f argument ⟨n, 0⟩ = none :=
    given_none op fun _ => Op.noConfusion
  have notDeleted : state.heap.size + 1 ∉ after.transposes_to_delete := by
    rw [deleted]
    exact fun isDeleted => absurd (inv.deletedBelow _ isDeleted)
      (Nat.not_lt.mpr (Nat.le_succ _))
  refine ⟨after, success, sound.step_one wellFormed accepts isFirst
    (fun isResult => Op.noConfusion (op.symm.trans isResult)) outs effect
    original recorded (congrArg Node.op isTranspose) ?_ ?_⟩
  · rw [Heap.get_shape, isNew]
    change dummy_shape.length = _
    rw [(padShape_inv dummyValid).2.2,
      length_permute operand.isOrder.inverse.inside, length_inverse,
      pending.isOrder.length, paddedLength]
  · intro value evaluates
    obtain ⟨val, outputs, args, applied, picked⟩ :=
      evaluates.apply_inv unknown fun both => List.not_mem_nil both.1
    rw [op, inputs, List.map_cons, List.map_singleton, Op.apply] at applied
    have valueShape :=
      wellFormed.value_get_shape accepts secondBelow (args second isSecond)
    rw [scalar] at valueShape
    rw [if_pos valueShape, Option.map_eq_some_iff] at applied
    obtain ⟨result, computed, rfl⟩ := applied
    obtain rfl := Option.some.inj picked
    obtain ⟨tensor, evaluated, isOrder, isValue⟩ :=
      (sound.input isFirst (args first isFirst)).pending pending
    obtain ⟨scalarTensor, evaluatedScalar, isOrderScalar, isScalar⟩ :=
      (sound.input isSecond (args second isSecond)).pending pendingSecond
    have noAxes : scalarTensor = val second := by
      rw [← isScalar,
        transpose_scalar isOrderScalar (by rw [isScalar, valueShape])]
    have tensorRank : tensor.rank = (f.heap.get_shape first).length := by
      rw [← isOrder.length, pending.isOrder.length]
    rw [← isValue, ← pad_permuted isOrder (beginLength.trans tensorRank.symm)
      (endLength.trans tensorRank.symm), Option.map_eq_some_iff] at computed
    obtain ⟨result', computed, isResult⟩ := computed
    refine ⟨result', ?_, ?_, isResult⟩
    · refine .pair (given_new (Nat.le_succ_of_le inv.sizes)) notDeleted ?_
        (effect.evaluates inv firstBelow firstDone evaluated)
        (effect.evaluates inv secondBelow secondDone evaluatedScalar) ?_
      · rw [isNew, sameInput]
        rfl
      · rw [isNew, Op.apply, noAxes, if_pos valueShape, computed]
        rfl
    · rwa [rank_pad computed]

theorem Sound.sinkConcat {axis : Nat} (op : (f.heap.node n).op = .Concat axis)
    (meets : ConcatMeets state n axis) :
    ∃ after replacement, sinkConcat n axis state = .ok after ∧
      Sound library f argument todo (Function.update current n replacement)
        after := by
  have inv := sound.inv
  have inferred := wellFormed.inferred n ((wellFormed.ops n).mpr inv.nodeBelow)
  rw [op] at inferred
  obtain ⟨shape, valid, outs⟩ := infer_concat inferred
  have notResult : (f.heap.node n).op ≠ .Result :=
    fun isResult => Op.noConfusion (op.symm.trans isResult)
  have nonempty : (f.heap.node n).input_values ≠ [] := fun noInput =>
    concatShape_ne_nil valid (by rw [noInput, List.map_nil])
  obtain ⟨first, rest, inputs⟩ := List.exists_cons_of_ne_nil nonempty
  have isFirst : first ∈ (f.heap.node n).input_values := by simp [inputs]
  obtain ⟨t, order, pending, ordered | barrier⟩ :=
    inv.sinkConcat_cases axis inputs
  · have isOrder := pending.isOrder
    obtain ⟨axisBelow, lengths⟩ := concatShape_length valid
    have rank : (f.heap.get_shape first).length = shape.length :=
      lengths _ (List.mem_map_of_mem isFirst)
    have bound : axis < order.length := by rwa [isOrder.length, rank]
    have stateInputs := inv.input_values
    rw [inputs] at stateInputs
    have sameOrder : ∀ input ∈ first :: rest, ∃ t,
        Pending state (moved current input) (f.heap.get_shape input).length t
          order := by
      intro input member
      obtain ⟨t', order', pending'⟩ := inv.pending (inputs ▸ member)
      rw [List.forall₂_map_left_iff, List.forall₂_map_right_iff,
        List.forall₂_same] at ordered
      have same := (ordered input member).unique pending'.ordered
      exact ⟨t', same ▸ pending'⟩
    have read : state.heap.input_value n 0 = moved current first :=
      input_value_of stateInputs rfl
    have dummyValid := meets (by
      intro iarg member
      rw [stateInputs, List.mem_map] at member
      obtain ⟨input, isInput, rfl⟩ := member
      obtain ⟨_, pending'⟩ := sameOrder input isInput
      rw [read, pending.entryOrder, pending'.entryOrder])
    have entryShapes :
        ((first :: rest).map (moved current)).map (entryShape state) =
        (first :: rest).map fun input =>
          entryShape state (moved current input) := List.map_map
    rw [read, pending.entryOrder, stateInputs, entryShapes,
      List.getD_eq_getElem?_getD, List.getElem?_eq_getElem bound,
      Option.getD_some] at dummyValid
    obtain ⟨dummy_shape, dummyValid⟩ := Option.isSome_iff_exists.mp dummyValid
    obtain ⟨after, new, t', success, effect, original, _, _, isConcat,
      isTranspose, recorded, deleted⟩ := inv.sinkConcat_same stateInputs
      (isOrder.length.symm ▸ isOrder) ordered
        (List.getElem?_eq_getElem bound) dummyValid
    have newInputs :
        (after.heap.node new).input_values =
          (first :: rest).map (moved current) :=
      congrArg Node.input_values isConcat
    have unknown : given f argument ⟨n, 0⟩ = none :=
      given_none op fun _ => Op.noConfusion
    have newUnknown : given f argument ⟨new, 0⟩ = none := by
      cases effect.replacementNew with
      | inl isNode => exact isNode ▸ unknown
      | inr isNew => exact given_new (Nat.le_trans inv.sizes isNew)
    have notDeleted : new ∉ after.transposes_to_delete := by
      cases effect.replacementNew with
      | inl isNode => exact isNode ▸ effect.notMarked inv
      | inr isNew =>
          rw [deleted]
          exact fun isDeleted => absurd (inv.deletedBelow new isDeleted)
            (Nat.not_lt.mpr isNew)
    refine ⟨after, new, success,
      sound.step_one wellFormed accepts isFirst notResult outs effect
      original recorded (congrArg Node.op isTranspose) ?_ ?_⟩
    · rw [Heap.get_shape, isConcat]
      change dummy_shape.length = _
      have dummyLength := (concatShape_length dummyValid).2
        (permute (inverse order) (entryShape state (moved current first)))
        (by simp)
      have stored : (entryShape state (moved current first)).length =
          order.length :=
        pending.entryShape_length.trans isOrder.length.symm
      rw [← dummyLength, length_permute, length_inverse, isOrder.length, rank]
      rw [stored, isOrder.length]
      exact isOrder.inverse.inside
    · intro value evaluates
      obtain ⟨val, outputs, args, applied, picked⟩ :=
        evaluates.apply_inv unknown fun both => List.not_mem_nil both.1
      rw [op, inputs, Op.apply, Option.map_eq_some_iff] at applied
      obtain ⟨result, computed, rfl⟩ := applied
      obtain rfl := Option.some.inj picked
      have each : ∀ input ∈ first :: rest, ∃ tensor,
          Evaluates library (given f argument)
          after.transposes_to_delete after.heap (moved current input) tensor ∧
            IsOrder order tensor.rank ∧ tensor.transpose order = val input := by
        intro input member
        have isInput : input ∈ (f.heap.node n).input_values := inputs ▸ member
        obtain ⟨below, done, _⟩ := inv.inputs isInput
        obtain ⟨_, pending'⟩ := sameOrder input member
        obtain ⟨tensor, evaluated, isTensor⟩ :=
          (sound.input isInput (args input isInput)).pending pending'
        exact ⟨tensor, effect.evaluates inv below done evaluated, isTensor⟩
      exact Evaluates.concat_ordered newUnknown notDeleted
        (congrArg Node.op isConcat) newInputs
        (List.cons_ne_nil _ _) (isOrder.length.symm ▸ isOrder) each computed
  · obtain ⟨after, success, next⟩ := sound.materializeShapes wellFormed accepts
      fun isResult => absurd isResult notResult
    exact ⟨after, n, barrier.trans success, next⟩

theorem Sound.sinkBinary {type_name : String}
    (op : (f.heap.node n).op = .Binary type_name)
    (meets : BinaryMeets f state n) :
    ∃ after, sinkBinary n state = .ok after ∧
      Sound library f argument todo (Function.update current n n) after := by
  have inv := sound.inv
  have inferred := wellFormed.inferred n ((wellFormed.ops n).mpr inv.nodeBelow)
  rw [op] at inferred
  obtain ⟨_, _, shape, shapes, fits, outs⟩ := infer_binary inferred
  obtain ⟨first, second, inputs, rfl, rfl⟩ := map_pair shapes
  have isFirst : first ∈ (f.heap.node n).input_values := by simp [inputs]
  have isSecond : second ∈ (f.heap.node n).input_values := by simp [inputs]
  obtain ⟨firstBelow, firstDone, _⟩ := inv.inputs isFirst
  obtain ⟨secondBelow, secondDone, _⟩ := inv.inputs isSecond
  obtain ⟨left_t, right_t, p, q, left, right, operands⟩ :=
    inv.operands op inputs
  have firstRead : f.heap.input_value n 0 = first := input_value_of inputs rfl
  have secondRead : f.heap.input_value n 1 = second := input_value_of inputs rfl
  have outShape : state.heap.get_shape ⟨n, 0⟩ = shape := by
    rw [Heap.get_shape, inv.shapes n inv.nodeBelow, outs]
    rfl
  unfold BinaryMeets at meets
  simp only [operands.leftInput, operands.rightInput, left.entryOrder,
    right.entryOrder, firstRead, secondRead, get_shape_of outs] at meets
  have lengthOf : ∀ {order : List Nat} {shape : Shape},
      IsOrder order shape.length →
      (permute (inverse order) shape).length = shape.length := by
    intro order shape isOrder
    rw [length_permute isOrder.inverse.inside, length_inverse, isOrder.length]
  have fits' : broadcastShape
      (permute p (permute (inverse p) (f.heap.get_shape first)))
      (permute q (permute (inverse q) (f.heap.get_shape second))) =
      some shape := by
    rw [permute_inverse left.isOrder, permute_inverse right.isOrder, fits]
  obtain ⟨after, t, order, success, recorded, isTranspose, results⟩ :=
    sinksCorrectly_of_meets operands
      (left.stored.trans (lengthOf left.isOrder).symm)
      (right.stored.trans (lengthOf right.isOrder).symm) fits' outShape meets
  obtain ⟨effect, original, _⟩ := inv.sinkBinary_effect operands success
  have unknown : given f argument ⟨n, 0⟩ = none :=
    given_none op fun _ => Op.noConfusion
  refine ⟨after, success, sound.step_one wellFormed accepts isFirst
    (fun isResult => Op.noConfusion (op.symm.trans isResult)) outs effect
    original recorded isTranspose ?_ ?_⟩
  · rw [effect.get_shape inv.nodeBelowState, outShape]
  · intro value evaluates
    obtain ⟨val, outputs, args, applied, picked⟩ :=
      evaluates.apply_inv unknown fun both => List.not_mem_nil both.1
    rw [op, inputs, List.map_cons, List.map_singleton, Op.apply,
      Option.map_eq_some_iff] at applied
    obtain ⟨result, computed, rfl⟩ := applied
    obtain rfl := Option.some.inj picked
    obtain ⟨l, evaluatedL, isOrderL, isL⟩ :=
      (sound.input isFirst (args first isFirst)).pending left
    obtain ⟨r, evaluatedR, isOrderR, isR⟩ :=
      (sound.input isSecond (args second isSecond)).pending right
    have atL : l.shape = permute (inverse p) (f.heap.get_shape first) := by
      rw [← wellFormed.value_get_shape accepts firstBelow (args first isFirst),
        ← isL, shape_transpose, inverse_permute isOrderL]
    have atR : r.shape = permute (inverse q) (f.heap.get_shape second) := by
      rw [← wellFormed.value_get_shape accepts secondBelow
        (args second isSecond), ← isR, shape_transpose,
        inverse_permute isOrderR]
    have knows := operands.knowsFirst
      (fun same => evaluatedR.unique (same ▸ evaluatedL)) unknown
      fun id above => given_new (Nat.le_trans inv.sizes above)
    rw [← isL, ← isR] at computed
    obtain ⟨pending, evaluated, isOrder, isValue⟩ :=
      results V other library _ l r atL atR knows _ computed
    exact ⟨pending, evaluated.cut_knowingFirst
      (effect.evaluates inv firstBelow firstDone evaluatedL)
      (effect.evaluates inv secondBelow secondDone evaluatedR),
      isOrder, isValue⟩

omit wellFormed accepts in
theorem Sound.original (shape : Shape) :
    Sound library f argument (n :: todo) current { state with
    orig_result_out_shape :=
      Function.update state.orig_result_out_shape n shape } where
  inv := sound.inv.original _
  values := sound.values
  leaves := sound.leaves
  results := by
    intro m below isDone isResult
    have different : m ≠ n := fun same => isDone (same ▸ List.mem_cons_self)
    obtain ⟨noted, result⟩ := sound.results m below isDone isResult
    exact ⟨(Function.update_of_ne different _ _).trans noted, result⟩

theorem Sound.barrier (notResult : (f.heap.node n).op ≠ .Result)
    (isBarrier : sinkNode n state =
      TransposeSinking.materializeShapes n state) :
    ∃ after replacement, sinkNode n state = .ok after ∧
      Sound library f argument todo (Function.update current n replacement)
        after := by
  obtain ⟨after, success, next⟩ := sound.materializeShapes wellFormed accepts
    fun isResult => absurd isResult notResult
  exact ⟨after, n, isBarrier.trans success, next⟩

/-- A step of the main loop. -/
theorem Sound.sinkNode (meets : Meets f state n) :
    ∃ after replacement, sinkNode n state = .ok after ∧
      Sound library f argument todo (Function.update current n replacement)
        after := by
  have inv := sound.inv
  have sameOp := inv.ops n inv.nodeBelow
  cases op : (f.heap.node n).op with
  | Transpose second =>
      obtain ⟨after, success, next⟩ := sound.sinkTranspose wellFormed accepts op
      refine ⟨after, state.heap.size, ?_, next⟩
      rw [TransposeSinking.sinkNode, sameOp, op]
      exact success
  | Unary type_name =>
      obtain ⟨after, success, next⟩ := sound.sinkUnary wellFormed accepts op
      refine ⟨after, n, ?_, next⟩
      rw [TransposeSinking.sinkNode, sameOp, op]
      exact success
  | Binary type_name =>
      rw [Meets, sameOp, op] at meets
      obtain ⟨after, success, next⟩ :=
        sound.sinkBinary wellFormed accepts op meets
      refine ⟨after, n, ?_, next⟩
      rw [TransposeSinking.sinkNode, sameOp, op]
      exact success
  | Pad pads_begin pads_end pad_mode =>
      rw [Meets, sameOp, op] at meets
      obtain ⟨after, success, next⟩ := sound.sinkPad wellFormed accepts op meets
      refine ⟨after, _, ?_, next⟩
      rw [TransposeSinking.sinkNode, sameOp, op]
      exact success
  | Concat axis =>
      rw [Meets, sameOp, op] at meets
      obtain ⟨after, replacement, success, next⟩ :=
        sound.sinkConcat wellFormed accepts op meets
      refine ⟨after, replacement, ?_, next⟩
      rw [TransposeSinking.sinkNode, sameOp, op]
      exact success
  | Result =>
      have noted := sound.original (state.heap.get_shape ⟨n, 0⟩)
      have shape : state.heap.get_shape ⟨n, 0⟩ = f.heap.get_shape ⟨n, 0⟩ := by
        rw [Heap.get_shape, inv.shapes n inv.nodeBelow, Heap.get_shape]
      obtain ⟨after, success, next⟩ :=
        noted.materializeShapes wellFormed accepts
          fun _ => (Function.update_self _ _ _).trans shape
      refine ⟨after, n, ?_, next⟩
      rw [TransposeSinking.sinkNode, sameOp, op]
      exact success
  | Parameter shape =>
      exact sound.barrier wellFormed accepts (by rw [op]; exact Op.noConfusion)
        (by rw [TransposeSinking.sinkNode, sameOp, op])
  | Reshape shape =>
      exact sound.barrier wellFormed accepts (by rw [op]; exact Op.noConfusion)
        (by rw [TransposeSinking.sinkNode, sameOp, op])
  | Label shape =>
      exact sound.barrier wellFormed accepts (by rw [op]; exact Op.noConfusion)
        (by rw [TransposeSinking.sinkNode, sameOp, op])
  | Other type_name =>
      exact sound.barrier wellFormed accepts (by rw [op]; exact Op.noConfusion)
        (by rw [TransposeSinking.sinkNode, sameOp, op])

end Shapes

/-- The main loop to its end. -/
theorem Sound.sinkNodes (wellFormed : WellFormed other f)
    (accepts : Accepts f argument)
    (sound : Sound library f argument todo current state)
    (meets : Along (Meets f) todo state) :
    ∃ after current', sinkNodes todo state = .ok after ∧
      Sound library f argument [] current' after := by
  induction todo generalizing state current with
  | nil => exact ⟨state, current, rfl, sound⟩
  | cons n todo ih =>
      obtain ⟨meetsHere, meetsLater⟩ := meets
      obtain ⟨mid, _, first, next⟩ :=
        sound.sinkNode wellFormed accepts meetsHere
      rw [first] at meetsLater
      obtain ⟨after, current', rest, last⟩ := ih next meetsLater
      refine ⟨after, current', ?_, last⟩
      rw [TransposeSinking.sinkNodes]
      simp only [bind, Except.bind, first]
      exact rest

end Rules

end NGraphBridge.TransposeSinking
