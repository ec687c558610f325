import NGraphBridge.Lib.Crossing
import NGraphBridge.TransposeSinking.Evaluation

/-!
# Sinking through a binary op

What the node computes after `sink_binary`, followed by the order that is
recorded for it, against the op on the operands in their own pending orders.
-/

namespace NGraphBridge.TransposeSinking

open NGraph (Output Shape)
open Tensor Axes

/-- What an argument is read through, to be in the order that `order` leads back
to. -/
def orderNode (heap : Heap) (left : Output) (order : List Nat) : Node :=
  if (heap.get_shape left).length < order.length then
    let shape := permute (inverse order)
      (extend order.length (heap.get_shape left))
    ⟨.Reshape shape, [left], [shape]⟩
  else heap.transposeOf left (inverse order)

/-- One input is read through a new node, and a pending transpose is passed
on. -/
def converted (binary input : Nat) (node : Node) (right_t : Nat)
    (state : State) : State :=
  let heap := (state.heap.add node).replace_source_output binary input
    ⟨state.heap.size, 0⟩
  writeTransposemap
    (markTransposeForDeletion { state with heap := heap } right_t) ⟨binary, 0⟩
    right_t

/-- The two arguments of a binary op, with the transposes that are pending
behind them. -/
structure Operands (state : State) (binary : Nat) (type_name : String)
    (left right : Output) (left_t right_t : Nat) (p q : List Nat) : Prop where
  op : (state.heap.node binary).op = .Binary type_name
  inputs : (state.heap.node binary).input_values = [left, right]
  leftEntry : state.reorders left = some left_t
  rightEntry : state.reorders right = some right_t
  leftOrder : (state.heap.node left_t).op = .Transpose p
  rightOrder : (state.heap.node right_t).op = .Transpose q
  isLeft : IsOrder p (state.heap.get_shape left).length
  isRight : IsOrder q (state.heap.get_shape right).length
  leftOther : left.node ≠ binary
  rightOther : right.node ≠ binary
  binaryBelow : binary < state.heap.size
  leftBelow : left.node < state.heap.size
  rightBelow : right.node < state.heap.size
  leftEntryBelow : left_t < state.heap.size
  rightEntryBelow : right_t < state.heap.size
  deletedBelow : ∀ id ∈ state.transposes_to_delete, id < state.heap.size
  notDeleted : binary ∉ state.transposes_to_delete

/-- Values for the operands, and for nothing that the rule makes or changes. -/
structure Knows {V : Type} (state : State) (binary : Nat) (left right : Output)
    (known : Output → Option (Tensor V)) (l r : Tensor V) : Prop where
  left : known left = some l
  right : known right = some r
  binary : known ⟨binary, 0⟩ = none
  new : ∀ id, state.heap.size ≤ id → known ⟨id, 0⟩ = none

/-- The rule does not throw, and the node followed by its recorded order
computes the op on operands of the shapes `a` and `b` that are transposed by `p`
and `q`. -/
def SinksCorrectly (state : State) (binary : Nat) (type_name : String)
    (left right : Output) (p q : List Nat) (a b : Shape) : Prop :=
  ∃ after transpose order, sinkBinary binary state = .ok after ∧
    after.reorders ⟨binary, 0⟩ = some transpose ∧
    (after.heap.node transpose).op = .Transpose order ∧
    ∀ (V : Type) [Inhabited V] (other : Inference) (library : Library V other)
      (known : Output → Option (Tensor V)) (l r : Tensor V), l.shape = a →
      r.shape = b →
      Knows state binary left right known l r → ∀ expected,
      Tensor.binary (library.binary type_name) (l.transpose p) (r.transpose q) =
        some expected →
      ∃ value, Evaluates library known after.transposes_to_delete after.heap
        ⟨binary, 0⟩ value ∧
        IsOrder order value.rank ∧ value.transpose order = expected

theorem readTransposemap_ok {state : State} {target : Output} {transpose : Nat}
    (entry : state.reorders target = some transpose) :
    readTransposemap state target = .ok transpose := by
  rw [readTransposemap, entry]

theorem get_axis_vector_val_eq {heap : Heap} {transpose : Nat}
    {order : List Nat}
    (isTranspose : (heap.node transpose).op = .Transpose order) :
    heap.get_axis_vector_val transpose = order := by
  rw [Heap.get_axis_vector_val, isTranspose]

theorem input_value_of {heap : Heap} {id i : Nat} {inputs : List Output}
    {input : Output} (isInputs : (heap.node id).input_values = inputs)
    (here : inputs[i]? = some input) :
    heap.input_value id i = input := by
  rw [Heap.input_value, isInputs, List.getD_eq_getElem?_getD, here,
    Option.getD_some]

section Converted

variable {state : State} {binary input right_t id : Nat} {node : Node}

@[simp] theorem converted_size :
    (converted binary input node right_t state).heap.size =
      state.heap.size + 1 :=
  rfl

theorem converted_node_new (below : binary < state.heap.size) :
    (converted binary input node right_t state).heap.node state.heap.size =
      node := by
  have different : state.heap.size ≠ binary := Nat.ne_of_gt below
  exact (Heap.set_node_ne different).trans Heap.add_node_self

theorem converted_node (idBelow : id < state.heap.size)
    (different : id ≠ binary) :
    (converted binary input node right_t state).heap.node id =
      state.heap.node id :=
  (Heap.set_node_ne different).trans (Heap.add_node idBelow)

theorem converted_node_binary (below : binary < state.heap.size) :
    (converted binary input node right_t state).heap.node binary =
      { state.heap.node binary with
        input_values :=
          (state.heap.node binary).input_values.set input
            ⟨state.heap.size, 0⟩ } := by
  refine Heap.set_node_self.trans ?_
  rw [Heap.add_node below]

theorem converted_get_shape {output : Output}
    (binaryBelow : binary < state.heap.size)
    (below : output.node < state.heap.size) :
    (converted binary input node right_t state).heap.get_shape output =
      state.heap.get_shape output := by
  rw [Heap.get_shape, Heap.get_shape]
  by_cases same : output.node = binary
  · rw [same, converted_node_binary binaryBelow]
  · rw [converted_node below same]

theorem converted_reorders_ne {output : Output}
    (different : output ≠ ⟨binary, 0⟩) :
    (converted binary input node right_t state).reorders output =
      state.reorders output :=
  Function.update_of_ne different _ _

theorem converted_reorders_self :
    (converted binary input node right_t state).reorders ⟨binary, 0⟩ =
      some right_t :=
  Function.update_self _ _ _

theorem mem_converted_deleted :
    id ∈ (converted binary input node right_t state).transposes_to_delete ↔
      id = right_t ∨ id ∈ state.transposes_to_delete :=
  List.mem_insert_iff

end Converted

theorem makeOrdered_ok {heap : Heap} {left : Output} {order : List Nat}
    (isOrder : IsOrder order order.length)
    (fits : (heap.get_shape left).length ≤ order.length) :
    makeOrdered heap left (inverse order) =
      .ok (heap.size, heap.add (orderNode heap left order)) := by
  have lengths := length_inverse order
  unfold makeOrdered
  by_cases lower : (heap.get_shape left).length < order.length
  · have extended := extend_length (Nat.le_of_lt lower)
    have isOrderShape : IsOrder (inverse order) (extend order.length
        (heap.get_shape left)).length := extended.symm ▸ isOrder.inverse
    have sameProd : (heap.get_shape left).prod =
        (permute (inverse order)
          (extend order.length (heap.get_shape left))).prod := by
      rw [(permute_perm isOrderShape).prod_eq, extend_prod]
    have made := @Heap.make_ok heap (.Reshape (permute (inverse order)
      (extend order.length (heap.get_shape left)))) [left] [_] (if_pos sameProd)
    rw [if_pos (lengths.symm ▸ lower), lengths,
      applyPermutation_ok isOrderShape]
    rw [orderNode, if_pos lower]
    exact made
  · have same : (heap.get_shape left).length = order.length := by omega
    rw [if_neg (lengths.symm ▸ lower), if_pos (same.trans lengths.symm),
      Heap.makeTranspose_ok (same ▸ isOrder.inverse), orderNode, if_neg lower]

theorem convertBinaryToDefaultOrder_ok {state : State}
    {binary input right_t : Nat} {left right : Output} {order : List Nat}
    (isLeft : state.heap.input_value binary input = left)
    (entry : state.reorders right = some right_t)
    (isTranspose : (state.heap.node right_t).op = .Transpose order)
    (isOrder : IsOrder order order.length)
    (fits : (state.heap.get_shape left).length ≤ order.length) :
    convertBinaryToDefaultOrder binary input right state =
      .ok (converted binary input (orderNode state.heap left order) right_t
        state) := by
  unfold convertBinaryToDefaultOrder
  rw [readTransposemap_ok entry]
  simp only [bind, Except.bind, get_axis_vector_val_eq isTranspose,
    permutationToDefaultOrder_ok isOrder, isLeft, makeOrdered_ok isOrder fits]
  rfl

theorem convertBinaryToDefaultOrder_error {state : State}
    {binary input right_t : Nat} {left right : Output} {order : List Nat}
    (isLeft : state.heap.input_value binary input = left)
    (entry : state.reorders right = some right_t)
    (isTranspose : (state.heap.node right_t).op = .Transpose order)
    (isOrder : IsOrder order order.length)
    (above : order.length < (state.heap.get_shape left).length) :
    convertBinaryToDefaultOrder binary input right state =
      .error
        (.runtime_error
          "case not supported when converting binary to default order") := by
  have lengths := length_inverse order
  have thrown : makeOrdered state.heap left (inverse order) =
      .error
        (.runtime_error
          "case not supported when converting binary to default order") := by
    rw [makeOrdered, if_neg (by omega), if_neg (by omega)]
  unfold convertBinaryToDefaultOrder
  rw [readTransposemap_ok entry]
  simp only [bind, Except.bind, get_axis_vector_val_eq isTranspose,
    permutationToDefaultOrder_ok isOrder, isLeft, thrown]

theorem getDefaultOrder_of_rank {shape : Shape} {n : Nat}
    (rank : shape.length = n) :
    getDefaultOrder shape = List.range n := by
  rw [getDefaultOrder, rank]

section Sink

variable {state : State} {binary left_t right_t : Nat} {type_name : String}
  {left right : Output} {p q : List Nat}

theorem Operands.leftInput
    (operands : Operands state binary type_name left right left_t right_t p q) :
    state.heap.input_value binary 0 = left :=
  input_value_of operands.inputs rfl

theorem Operands.rightInput
    (operands : Operands state binary type_name left right left_t right_t p q) :
    state.heap.input_value binary 1 = right :=
  input_value_of operands.inputs rfl

/-- No argument has to be brought in order. -/
theorem sinkBinary_matching
    (operands : Operands state binary type_name left right left_t right_t p q)
    (matching : p = q ∨ (p = getDefaultOrder (state.heap.get_shape left) ∧
      q = getDefaultOrder (state.heap.get_shape right))) :
    sinkBinary binary state =
      .ok (markTransposeForDeletion (markTransposeForDeletion
      (writeTransposemap state ⟨binary, 0⟩
        (if state.heap.get_shape ⟨binary, 0⟩ = state.heap.get_shape left then
          left_t else right_t))
      left_t) right_t) := by
  have branch : (p.length = q.length ∧ p = q) ∨
      (¬ p ≠ getDefaultOrder (state.heap.get_shape left) ∧
        ¬ q ≠ getDefaultOrder (state.heap.get_shape right)) := by
    cases matching with
    | inl same => exact .inl ⟨congrArg List.length same, same⟩
    | inr default =>
        exact .inr ⟨not_not_intro default.1, not_not_intro default.2⟩
  unfold sinkBinary
  simp only [bind, Except.bind, operands.leftInput, operands.rightInput,
    readTransposemap_ok operands.leftEntry,
    readTransposemap_ok operands.rightEntry,
    get_axis_vector_val_eq operands.leftOrder,
    get_axis_vector_val_eq operands.rightOrder]
  rw [if_pos branch]

/-- The arguments are converted, first the left one and then the right one. -/
theorem sinkBinary_differing
    (operands : Operands state binary type_name left right left_t right_t p q)
    (differ : p ≠ q)
    (mismatch : ¬ (p = getDefaultOrder (state.heap.get_shape left) ∧
      q = getDefaultOrder (state.heap.get_shape right))) :
    sinkBinary binary state =
      (if q ≠ getDefaultOrder (state.heap.get_shape right) then
        convertBinaryToDefaultOrder binary 0 right state
      else .ok state).bind fun state' =>
        if p ≠ getDefaultOrder (state.heap.get_shape left) then
          convertBinaryToDefaultOrder binary 1 left state'
        else .ok state' := by
  have branch : ¬ ((p.length = q.length ∧ p = q) ∨
      (¬ p ≠ getDefaultOrder (state.heap.get_shape left) ∧
        ¬ q ≠ getDefaultOrder (state.heap.get_shape right))) := by
    intro either
    cases either with
    | inl same => exact differ same.2
    | inr default => exact mismatch ⟨not_not.mp default.1, not_not.mp default.2⟩
  unfold sinkBinary
  simp only [bind, Except.bind, operands.leftInput, operands.rightInput,
    readTransposemap_ok operands.leftEntry,
    readTransposemap_ok operands.rightEntry,
    get_axis_vector_val_eq operands.leftOrder,
    get_axis_vector_val_eq operands.rightOrder]
  rw [if_neg branch]

end Sink

section Ordered

variable {V : Type} [Inhabited V] {other : Inference}
  {library : Library V other} {known : Output → Option (Tensor V)}
  {deleted : List Nat} {heap before : Heap} {id : Nat} {left : Output}
  {l : Tensor V} {order : List Nat}

theorem evaluates_orderNode (unknown : known ⟨id, 0⟩ = none)
    (notDeleted : id ∉ deleted)
    (isNode : heap.node id = orderNode before left order)
    (here : Evaluates library known deleted heap left l)
    (isOrder : IsOrder order l.rank)
    (rank : (before.get_shape left).length = l.rank) :
    Evaluates library known deleted heap ⟨id, 0⟩
      (l.transpose (inverse order)) := by
  have sameRank : ¬ (before.get_shape left).length < order.length := by
    rw [rank, isOrder.length]
    exact Nat.lt_irrefl _
  rw [orderNode, if_neg sameRank] at isNode
  refine .single unknown notDeleted ?_ here ?_
  · rw [isNode]
    rfl
  · rw [isNode]
    exact if_pos isOrder.inverse

theorem evaluates_orderNode_lower (unknown : known ⟨id, 0⟩ = none)
    (notDeleted : id ∉ deleted)
    (isNode : heap.node id = orderNode before left order)
    (here : Evaluates library known deleted heap left l)
    (lower : l.rank < order.length)
    (isOrder : IsOrder (inverse order) (l.expand order.length).rank)
    (shape : before.get_shape left = l.shape) :
    Evaluates library known deleted heap ⟨id, 0⟩
      ((l.expand order.length).relabel (inverse order) isOrder) := by
  have lowerShape : (before.get_shape left).length < order.length :=
    shape.symm ▸ lower
  rw [orderNode, if_pos lowerShape, shape] at isNode
  refine .single unknown notDeleted ?_ here ?_
  · rw [isNode]
  · rw [isNode]
    have full : l.data.length =
        (permute (inverse order) (extend order.length l.shape)).prod :=
      ((l.expand order.length).relabel (inverse order) isOrder).full
    change (l.reshape
        (permute (inverse order) (extend order.length l.shape))).map _ = _
    rw [reshape, dif_pos full, Option.map_some]
    rfl

end Ordered

theorem binary_rank {V : Type} [Inhabited V] {f : V → V → V}
    {left right result : Tensor V} (ranks : left.rank = right.rank)
    (success : Tensor.binary f left right = some result) :
    result.rank = left.rank := by
  rw [binary_eq ranks, Option.map_eq_some_iff] at success
  obtain ⟨shape, fits, rfl⟩ := success
  exact (stretchAll_length fits).1.symm

theorem ordered_iff {V : Type} [Inhabited V] {order : List Nat}
    {computed wanted : Option (Tensor V)}
    (exists_wanted : ∃ expected, wanted = some expected)
    (isOrder : ∀ value, computed = some value → IsOrder order value.rank) :
    (∀ expected, wanted = some expected → ∃ value, computed = some value ∧
      IsOrder order value.rank ∧ value.transpose order = expected) ↔
    computed.map (transpose order) = wanted := by
  constructor
  · intro results
    obtain ⟨expected, isExpected⟩ := exists_wanted
    obtain ⟨value, isValue, _, same⟩ := results expected isExpected
    rw [isValue, Option.map_some, same, isExpected]
  · intro same expected isExpected
    rw [← same, Option.map_eq_some_iff] at isExpected
    obtain ⟨value, isValue, isExpected⟩ := isExpected
    exact ⟨value, isValue, isOrder value isValue, isExpected⟩

theorem forall_operands_congr {a b : Shape}
    {P Q : (V : Type) → [Inhabited V] → (V → V → V) → Tensor V →
      Tensor V → Prop}
    (same : ∀ (V : Type) [Inhabited V] (f : V → V → V) (l r : Tensor V),
      l.shape = a →
      r.shape = b → (P V f l r ↔ Q V f l r)) :
    (∀ (V : Type) [Inhabited V] (f : V → V → V) (l r : Tensor V), l.shape = a →
      r.shape = b →
      P V f l r) ↔
    ∀ (V : Type) [Inhabited V] (f : V → V → V) (l r : Tensor V), l.shape = a →
      r.shape = b →
      Q V f l r := by
  constructor
  · intro holds V _ f l r atL atR
    exact (same V f l r atL atR).mp (holds V f l r atL atR)
  · intro holds V _ f l r atL atR
    exact (same V f l r atL atR).mpr (holds V f l r atL atR)

/-- A library with one given op on two elements. -/
def Library.ofBinary {V : Type} [Inhabited V] (f : V → V → V) :
    Library V (fun _ _ => none) where
  unary := fun _ x => x
  binary := fun _ => f
  apply := fun _ _ => none
  shapes := fun _ _ => rfl

/-- Values for two different operands. -/
def knowing {V : Type} (left right : Output) (l r : Tensor V)
    (output : Output) : Option (Tensor V) :=
  if output = left then some l else if output = right then some r else none

section EqualRank

variable {state after : State} {binary left_t right_t n : Nat}
  {type_name : String} {left right : Output} {p q a b shape : List Nat}

theorem Operands.knows {V : Type} {l r : Tensor V}
    (operands : Operands state binary type_name left right left_t right_t p q)
    (different : left ≠ right) :
    Knows state binary left right (knowing left right l r) l r where
  left := if_pos rfl
  right := by rw [knowing, if_neg different.symm, if_pos rfl]
  binary := by
    have notLeft : (⟨binary, 0⟩ : Output) ≠ left :=
      fun same => operands.leftOther (same ▸ rfl)
    have notRight : (⟨binary, 0⟩ : Output) ≠ right :=
      fun same => operands.rightOther (same ▸ rfl)
    rw [knowing, if_neg notLeft, if_neg notRight]
  new := by
    intro id above
    have leftBelow := operands.leftBelow
    have rightBelow := operands.rightBelow
    have notLeft : (⟨id, 0⟩ : Output) ≠ left := by
      rintro rfl
      exact absurd leftBelow (Nat.not_lt.mpr above)
    have notRight : (⟨id, 0⟩ : Output) ≠ right := by
      rintro rfl
      exact absurd rightBelow (Nat.not_lt.mpr above)
    rw [knowing, if_neg notLeft, if_neg notRight]

theorem evaluates_binary {V : Type} [Inhabited V] {other : Inference}
    {library : Library V other} {known : Output → Option (Tensor V)}
    {deleted : List Nat} {heap : Heap} {first second : Output}
    {x y result : Tensor V} (unknown : known ⟨binary, 0⟩ = none)
    (notDeleted : binary ∉ deleted)
    (op : (heap.node binary).op = .Binary type_name)
    (inputs : (heap.node binary).input_values = [first, second])
    (atFirst : Evaluates library known deleted heap first x)
    (atSecond : Evaluates library known deleted heap second y)
    (computed : Tensor.binary (library.binary type_name) x y = some result) :
    Evaluates library known deleted heap ⟨binary, 0⟩ result := by
  apply Evaluates.pair unknown notDeleted inputs atFirst atSecond
  rw [op, Op.apply, computed, Option.map_some]

theorem evaluates_binary_inv {V : Type} [Inhabited V] {other : Inference}
    {library : Library V other} {known : Output → Option (Tensor V)}
    {deleted : List Nat} {heap : Heap} {first second : Output}
    {x y result : Tensor V}
    (evaluates : Evaluates library known deleted heap ⟨binary, 0⟩ result)
    (unknown : known ⟨binary, 0⟩ = none) (notDeleted : binary ∉ deleted)
    (op : (heap.node binary).op = .Binary type_name)
    (inputs : (heap.node binary).input_values = [first, second])
    (atFirst : Evaluates library known deleted heap first x)
    (atSecond : Evaluates library known deleted heap second y) :
    Tensor.binary (library.binary type_name) x y = some result := by
  obtain ⟨outputs, applied, picked⟩ :=
    evaluates.pair_inv unknown notDeleted inputs atFirst atSecond
  rw [op, Op.apply, Option.map_eq_some_iff] at applied
  obtain ⟨value, computed, rfl⟩ := applied
  rw [computed]
  exact picked

/-- Operands in one order. -/
theorem sinksCorrectly_same
    (operands : Operands state binary type_name left right left_t right_t p q)
    (same : p = q) (isOrder : IsOrder p n) (aRank : a.length = n)
    (bRank : b.length = n) :
    SinksCorrectly state binary type_name left right p q a b := by
  subst same
  have success := sinkBinary_matching operands (.inl rfl)
  refine ⟨_, _, p, success, Function.update_self _ _ _, ?_, ?_⟩
  · change (state.heap.node _).op = _
    split
    · exact operands.leftOrder
    · exact operands.rightOrder
  · intro V _ other library known l r atL atR knows expected isExpected
    subst atL
    subst atR
    have isOrderL : IsOrder p l.rank :=
      (aRank.symm ▸ isOrder : IsOrder p l.shape.length)
    have ranks : l.rank = r.rank := aRank.trans bRank.symm
    rw [binary_transpose isOrderL ranks, Option.map_eq_some_iff] at isExpected
    obtain ⟨value, computed, isExpected⟩ := isExpected
    refine ⟨value, ?_, (binary_rank ranks computed).symm ▸ isOrderL, isExpected⟩
    have notDeleted :
        binary ∉ (state.transposes_to_delete.insert left_t).insert right_t := by
      rw [List.mem_insert_iff, List.mem_insert_iff]
      rintro (isRight | isLeft | isDeleted)
      · exact absurd (operands.op.symm.trans (isRight ▸ operands.rightOrder))
          (by simp)
      · exact absurd (operands.op.symm.trans (isLeft ▸ operands.leftOrder))
          (by simp)
      · exact operands.notDeleted isDeleted
    exact evaluates_binary knows.binary notDeleted operands.op operands.inputs
      (.known knows.left) (.known knows.right) computed

/-- The rule is correct if the op on what the node reads, followed by the order
that is recorded, is the op on the operands in their orders. -/
theorem sinksCorrectly_iff {t : Nat} {order : List Nat} {first second : Output}
    (operands : Operands state binary type_name left right left_t right_t p q)
    (different : left ≠ right) (success : sinkBinary binary state = .ok after)
    (recorded : after.reorders ⟨binary, 0⟩ = some t)
    (entry : (after.heap.node t).op = .Transpose order)
    (op : (after.heap.node binary).op = .Binary type_name)
    (inputs : (after.heap.node binary).input_values = [first, second])
    (notDeleted : binary ∉ after.transposes_to_delete)
    (g h : (V : Type) → [Inhabited V] → Tensor V → Tensor V)
    (evaluated :
      ∀ (V : Type) [Inhabited V] (other : Inference) (library : Library V other)
      (known : Output → Option (Tensor V)) (l r : Tensor V), l.shape = a →
      r.shape = b →
      Knows state binary left right known l r →
      Evaluates library known after.transposes_to_delete after.heap
        first (g V l) ∧
        Evaluates library known after.transposes_to_delete after.heap second
          (h V r)) :
    SinksCorrectly state binary type_name left right p q a b ↔
      ∀ (V : Type) [Inhabited V] (f : V → V → V) (l r : Tensor V), l.shape = a →
        r.shape = b →
        ∀ expected, Tensor.binary f (l.transpose p) (r.transpose q) =
          some expected →
          ∃ value, Tensor.binary f (g V l) (h V r) = some value ∧
            IsOrder order value.rank ∧ value.transpose order = expected := by
  constructor
  · intro correct V _ f l r atL atR expected isExpected
    obtain ⟨_, _, _, success', recorded', entry', results⟩ := correct
    obtain rfl := Except.ok.inj (success.symm.trans success')
    obtain rfl := Option.some.inj (recorded.symm.trans recorded')
    obtain rfl := Op.Transpose.inj (entry.symm.trans entry')
    have knows := @Operands.knows state binary left_t right_t type_name
      left right p q V l r
      operands different
    obtain ⟨value, evaluates, isOrder, isValue⟩ :=
      results V _ (.ofBinary f) _ l r atL atR knows expected isExpected
    obtain ⟨atFirst, atSecond⟩ :=
      evaluated V _ (.ofBinary f) _ l r atL atR knows
    exact ⟨value, evaluates_binary_inv evaluates knows.binary notDeleted op
      inputs atFirst atSecond, isOrder, isValue⟩
  · intro results
    refine ⟨after, t, order, success, recorded, entry, ?_⟩
    intro V _ other library known l r atL atR knows expected isExpected
    obtain ⟨value, computed, isOrder, isValue⟩ :=
      results V (library.binary type_name) l r atL atR expected isExpected
    obtain ⟨atFirst, atSecond⟩ :=
      evaluated V other library known l r atL atR knows
    exact ⟨value, evaluates_binary knows.binary notDeleted op inputs atFirst
      atSecond computed, isOrder, isValue⟩

section Differing

variable (operands :
    Operands state binary type_name left right left_t right_t p q)
  (isP : IsOrder p n) (isQ : IsOrder q n)
  (leftRank : (state.heap.get_shape left).length = n)
  (rightRank : (state.heap.get_shape right).length = n) (aRank : a.length = n)
  (bRank : b.length = n)

include operands

theorem Operands.different (differ : p ≠ q) : left ≠ right := by
  rintro rfl
  have sameEntry :=
    Option.some.inj (operands.leftEntry.symm.trans operands.rightEntry)
  have sameOp := operands.leftOrder.symm.trans (sameEntry ▸ operands.rightOrder)
  exact differ (Op.Transpose.inj sameOp)

theorem Operands.leftEntryOther : left_t ≠ binary := by
  intro same
  exact absurd (operands.op.symm.trans (same ▸ operands.leftOrder)) (by simp)

theorem Operands.rightEntryOther : right_t ≠ binary := by
  intro same
  exact absurd (operands.op.symm.trans (same ▸ operands.rightOrder)) (by simp)

theorem Operands.convert_left (isOrder : IsOrder q q.length)
    (fits : (state.heap.get_shape left).length ≤ q.length) :
    convertBinaryToDefaultOrder binary 0 right state =
      .ok (converted binary 0 (orderNode state.heap left q) right_t state) :=
  convertBinaryToDefaultOrder_ok operands.leftInput operands.rightEntry
    operands.rightOrder isOrder fits

theorem Operands.convert_right (isOrder : IsOrder p p.length)
    (fits : (state.heap.get_shape right).length ≤ p.length) :
    convertBinaryToDefaultOrder binary 1 left state =
      .ok (converted binary 1 (orderNode state.heap right p) left_t state) :=
  convertBinaryToDefaultOrder_ok operands.rightInput operands.leftEntry
    operands.leftOrder isOrder fits

/-- The right argument is converted after the left one. -/
theorem Operands.convert_again {node : Node} (isOrder : IsOrder p p.length)
    (fits : (state.heap.get_shape right).length ≤ p.length) :
    convertBinaryToDefaultOrder binary 1
      left (converted binary 0 node right_t state) =
      .ok (converted binary 1 (orderNode state.heap right p) left_t
        (converted binary 0 node right_t state)) := by
  have shape := @converted_get_shape state binary 0 right_t node
    right operands.binaryBelow
    operands.rightBelow
  have sameNode :
      orderNode (converted binary 0 node right_t state).heap right p =
      orderNode state.heap right p := by
    rw [orderNode, orderNode, Heap.transposeOf, Heap.transposeOf, shape]
  rw [← sameNode]
  refine convertBinaryToDefaultOrder_ok ?_ ?_ ?_ isOrder (shape ▸ fits)
  · refine input_value_of (congrArg Node.input_values
      (converted_node_binary operands.binaryBelow)) ?_
    rw [operands.inputs]
    rfl
  · have notNode : left ≠ ⟨binary, 0⟩ :=
      fun same => operands.leftOther (same ▸ rfl)
    exact (converted_reorders_ne notNode).trans operands.leftEntry
  · rw [converted_node operands.leftEntryBelow operands.leftEntryOther]
    exact operands.leftOrder

theorem Operands.notDeleted_converted {input t : Nat} {node : Node}
    (entryOther : t ≠ binary) :
    binary ∉ (converted binary input node t state).transposes_to_delete := by
  rw [mem_converted_deleted]
  rintro (isEntry | isDeleted)
  · exact entryOther isEntry.symm
  · exact operands.notDeleted isDeleted

theorem Operands.notDeleted_new {id input t : Nat} {node : Node}
    (entryBelow : t < state.heap.size) (above : state.heap.size ≤ id) :
    id ∉ (converted binary input node t state).transposes_to_delete := by
  rw [mem_converted_deleted]
  rintro (isEntry | isDeleted)
  · exact absurd entryBelow (isEntry ▸ Nat.not_lt.mpr above)
  · exact absurd (operands.deletedBelow id isDeleted) (Nat.not_lt.mpr above)

/-- The left argument is read through a new node. -/
theorem sinksCorrectly_convert_left {node : Node} (differ : p ≠ q)
    (success : sinkBinary binary state =
      .ok (converted binary 0 node right_t state))
    (g : (V : Type) → [Inhabited V] → Tensor V → Tensor V)
    (evaluated :
      ∀ (V : Type) [Inhabited V] (other : Inference) (library : Library V other)
      (known : Output → Option (Tensor V)) (deleted : List Nat) (heap : Heap)
      (l : Tensor V),
      l.shape = a → known ⟨state.heap.size, 0⟩ = none →
      state.heap.size ∉ deleted →
      heap.node state.heap.size = node →
      Evaluates library known deleted heap left l →
      Evaluates library known deleted heap ⟨state.heap.size, 0⟩ (g V l)) :
    SinksCorrectly state binary type_name left right p q a b ↔
      ∀ (V : Type) [Inhabited V] (f : V → V → V) (l r : Tensor V), l.shape = a →
        r.shape = b →
        ∀ expected, Tensor.binary f (l.transpose p) (r.transpose q) =
          some expected →
          ∃ value, Tensor.binary f (g V l) r = some value ∧
            IsOrder q value.rank ∧
            value.transpose q = expected := by
  have atNode :=
    @converted_node_binary state binary 0 right_t node operands.binaryBelow
  have newNotDeleted : state.heap.size ∉
      (converted binary 0 node right_t state).transposes_to_delete :=
    operands.notDeleted_new operands.rightEntryBelow (Nat.le_refl _)
  have notDeleted :
      binary ∉ (converted binary 0 node right_t state).transposes_to_delete :=
    operands.notDeleted_converted operands.rightEntryOther
  have inputs :
      ((converted binary 0 node right_t state).heap.node binary).input_values =
      [⟨state.heap.size, 0⟩, right] := by
    rw [atNode, operands.inputs]
    rfl
  refine sinksCorrectly_iff operands (operands.different differ) success
    converted_reorders_self
    ?entry ?op inputs notDeleted g (fun _ _ r => r) ?evaluated
  case evaluated =>
    intro V _ other library known l r atL _ knows
    exact ⟨evaluated V other library known _ _ l atL
      (knows.new _ (Nat.le_refl _)) newNotDeleted
      (converted_node_new operands.binaryBelow) (.known knows.left),
      .known knows.right⟩
  case entry =>
    rw [converted_node operands.rightEntryBelow operands.rightEntryOther]
    exact operands.rightOrder
  case op =>
    rw [atNode]
    exact operands.op

/-- The right argument is read through a new node. -/
theorem sinksCorrectly_convert_right {node : Node} (differ : p ≠ q)
    (success : sinkBinary binary state =
      .ok (converted binary 1 node left_t state))
    (h : (V : Type) → [Inhabited V] → Tensor V → Tensor V)
    (evaluated :
      ∀ (V : Type) [Inhabited V] (other : Inference) (library : Library V other)
      (known : Output → Option (Tensor V)) (deleted : List Nat) (heap : Heap)
      (r : Tensor V),
      r.shape = b → known ⟨state.heap.size, 0⟩ = none →
      state.heap.size ∉ deleted →
      heap.node state.heap.size = node →
      Evaluates library known deleted heap right r →
      Evaluates library known deleted heap ⟨state.heap.size, 0⟩ (h V r)) :
    SinksCorrectly state binary type_name left right p q a b ↔
      ∀ (V : Type) [Inhabited V] (f : V → V → V) (l r : Tensor V), l.shape = a →
        r.shape = b →
        ∀ expected, Tensor.binary f (l.transpose p) (r.transpose q) =
          some expected →
          ∃ value, Tensor.binary f l (h V r) = some value ∧
            IsOrder p value.rank ∧
            value.transpose p = expected := by
  have atNode :=
    @converted_node_binary state binary 1 left_t node operands.binaryBelow
  have newNotDeleted : state.heap.size ∉
      (converted binary 1 node left_t state).transposes_to_delete :=
    operands.notDeleted_new operands.leftEntryBelow (Nat.le_refl _)
  have notDeleted :
      binary ∉ (converted binary 1 node left_t state).transposes_to_delete :=
    operands.notDeleted_converted operands.leftEntryOther
  have inputs :
      ((converted binary 1 node left_t state).heap.node binary).input_values =
      [left, ⟨state.heap.size, 0⟩] := by
    rw [atNode, operands.inputs]
    rfl
  refine sinksCorrectly_iff operands (operands.different differ) success
    converted_reorders_self
    ?entry ?op inputs notDeleted (fun _ _ l => l) h ?evaluated
  case evaluated =>
    intro V _ other library known l r _ atR knows
    exact ⟨.known knows.left, evaluated V other library known _ _ r atR
      (knows.new _ (Nat.le_refl _)) newNotDeleted
      (converted_node_new operands.binaryBelow)
      (.known knows.right)⟩
  case entry =>
    rw [converted_node operands.leftEntryBelow operands.leftEntryOther]
    exact operands.leftOrder
  case op =>
    rw [atNode]
    exact operands.op

/-- Only the right operand is out of order. -/
theorem sinksCorrectly_right (isQ : IsOrder q n)
    (leftRank : (state.heap.get_shape left).length = n)
    (rightRank : (state.heap.get_shape right).length = n) (aRank : a.length = n)
    (bRank : b.length = n) (pDefault : p = List.range n)
    (qOther : q ≠ List.range n) :
    SinksCorrectly state binary type_name left right p q a b := by
  have leftDefault := getDefaultOrder_of_rank leftRank
  have rightDefault := getDefaultOrder_of_rank rightRank
  have differ : p ≠ q := fun same => qOther (same ▸ pDefault)
  have success := sinkBinary_differing operands differ
    (fun both => qOther (both.2.trans rightDefault))
  rw [leftDefault, rightDefault, if_pos qOther,
    operands.convert_left (isQ.length.symm ▸ isQ)
      (by rw [leftRank, isQ.length])] at success
  simp only [Except.bind, pDefault, ne_eq, not_true_eq_false,
    if_false] at success
  rw [sinksCorrectly_convert_left operands differ success
    (fun _ _ l => l.transpose (inverse q))]
  · intro V _ f l r atL atR expected isExpected
    subst atL
    subst atR
    have isQL : IsOrder q l.rank :=
      (aRank.symm ▸ isQ : IsOrder q l.shape.length)
    have isQL' : IsOrder q (l.transpose (inverse q)).rank := by
      rwa [rank_transpose isQL.inverse]
    have ranks : (l.transpose (inverse q)).rank = r.rank := by
      rw [rank_transpose isQL.inverse]
      exact aRank.trans bRank.symm
    have swapped := @binary_transpose _ _ f _ _ _ isQL' ranks
    have lDefault : l.transpose p = l := by
      have here := transpose_range l
      rwa [rank, aRank, ← pDefault] at here
    rw [transpose_inverse isQL] at swapped
    rw [lDefault, swapped, Option.map_eq_some_iff] at isExpected
    obtain ⟨value, computed, isExpected⟩ := isExpected
    exact ⟨value, computed, (binary_rank ranks computed).symm ▸ isQL',
      isExpected⟩
  · intro V _ other library known deleted heap l atL unknown notDeleted
      isNode here
    subst atL
    exact evaluates_orderNode unknown notDeleted isNode here
      (aRank.symm ▸ isQ : IsOrder q l.shape.length) (leftRank.trans aRank.symm)

/-- Only the left operand is out of order. -/
theorem sinksCorrectly_left (isP : IsOrder p n)
    (leftRank : (state.heap.get_shape left).length = n)
    (rightRank : (state.heap.get_shape right).length = n) (aRank : a.length = n)
    (bRank : b.length = n) (pOther : p ≠ List.range n)
    (qDefault : q = List.range n) :
    SinksCorrectly state binary type_name left right p q a b := by
  have leftDefault := getDefaultOrder_of_rank leftRank
  have rightDefault := getDefaultOrder_of_rank rightRank
  have differ : p ≠ q := fun same => pOther (same.trans qDefault)
  have success := sinkBinary_differing operands differ
    (fun both => pOther (both.1.trans leftDefault))
  simp only [leftDefault, rightDefault, qDefault, ne_eq, not_true_eq_false,
    if_false, pOther, not_false_eq_true, if_true, Except.bind,
    operands.convert_right (isP.length.symm ▸ isP)
      (by rw [rightRank, isP.length])] at success
  rw [sinksCorrectly_convert_right operands differ success
    (fun _ _ r => r.transpose (inverse p))]
  · intro V _ f l r atL atR expected isExpected
    subst atL
    subst atR
    have isPL : IsOrder p l.rank :=
      (aRank.symm ▸ isP : IsOrder p l.shape.length)
    have isPR : IsOrder p r.rank :=
      (bRank.symm ▸ isP : IsOrder p r.shape.length)
    have ranks : l.rank = (r.transpose (inverse p)).rank := by
      rw [rank_transpose isPR.inverse]
      exact aRank.trans bRank.symm
    have swapped := @binary_transpose _ _ f _ _ _ isPL ranks
    have rDefault : r.transpose q = r := by
      have here := transpose_range r
      rwa [rank, bRank, ← qDefault] at here
    rw [transpose_inverse isPR] at swapped
    rw [rDefault, swapped, Option.map_eq_some_iff] at isExpected
    obtain ⟨value, computed, isExpected⟩ := isExpected
    exact ⟨value, computed, (binary_rank ranks computed).symm ▸ isPL,
      isExpected⟩
  · intro V _ other library known deleted heap r atR unknown notDeleted
      isNode here
    subst atR
    exact evaluates_orderNode unknown notDeleted isNode here
      (bRank.symm ▸ isP : IsOrder p r.shape.length) (rightRank.trans bRank.symm)

/-- Both arguments are read through new nodes. -/
theorem sinksCorrectly_convert_both {first second : Node} (differ : p ≠ q)
    (success : sinkBinary binary state =
      .ok (converted binary 1 second left_t
        (converted binary 0 first right_t state)))
    (g h : (V : Type) → [Inhabited V] → Tensor V → Tensor V)
    (evaluatedLeft :
      ∀ (V : Type) [Inhabited V] (other : Inference) (library : Library V other)
      (known : Output → Option (Tensor V)) (deleted : List Nat) (heap : Heap)
      (id : Nat) (l : Tensor V), l.shape = a → known ⟨id, 0⟩ = none →
      id ∉ deleted →
      heap.node id = first → Evaluates library known deleted heap left l →
      Evaluates library known deleted heap ⟨id, 0⟩ (g V l))
    (evaluatedRight :
      ∀ (V : Type) [Inhabited V] (other : Inference) (library : Library V other)
      (known : Output → Option (Tensor V)) (deleted : List Nat) (heap : Heap)
      (id : Nat) (r : Tensor V), r.shape = b → known ⟨id, 0⟩ = none →
      id ∉ deleted →
      heap.node id = second → Evaluates library known deleted heap right r →
      Evaluates library known deleted heap ⟨id, 0⟩ (h V r)) :
    SinksCorrectly state binary type_name left right p q a b ↔
      ∀ (V : Type) [Inhabited V] (f : V → V → V) (l r : Tensor V), l.shape = a →
        r.shape = b →
        ∀ expected, Tensor.binary f (l.transpose p) (r.transpose q) =
          some expected →
          ∃ value, Tensor.binary f (g V l) (h V r) = some value ∧
            IsOrder p value.rank ∧
            value.transpose p = expected := by
  have binaryBelow := operands.binaryBelow
  have leftBelow := operands.leftEntryBelow
  have rightBelow := operands.rightEntryBelow
  have firstOther : state.heap.size ≠ binary := Nat.ne_of_gt binaryBelow
  have firstNode := @converted_node_new state binary 0 right_t first binaryBelow
  have firstBinary :=
    @converted_node_binary state binary 0 right_t first binaryBelow
  have firstSize := @converted_size state binary 0 right_t first
  have firstEntry :=
    @converted_node state binary 0 right_t left_t first leftBelow
      operands.leftEntryOther
  have firstDeleted :
      ∀ id, id ∈ (converted binary 0 first right_t state).transposes_to_delete ↔
      id = right_t ∨ id ∈ state.transposes_to_delete :=
    fun id => mem_converted_deleted
  generalize converted binary 0 first right_t state = before at *
  have newNotDeleted : ∀ id, state.heap.size ≤ id →
      id ∉ (converted binary 1 second left_t before).transposes_to_delete := by
    intro id above
    rw [mem_converted_deleted, firstDeleted]
    rintro (isLeft | isRight | isDeleted)
    · omega
    · omega
    · exact absurd (operands.deletedBelow id isDeleted) (Nat.not_lt.mpr above)
  have notDeleted :
      binary ∉
        (converted binary 1 second left_t before).transposes_to_delete := by
    rw [mem_converted_deleted, firstDeleted]
    rintro (isLeft | isRight | isDeleted)
    · exact operands.leftEntryOther isLeft.symm
    · exact operands.rightEntryOther isRight.symm
    · exact operands.notDeleted isDeleted
  have atNode := @converted_node_binary before binary 1 left_t second (by omega)
  have inputs :
      ((converted binary 1 second left_t before).heap.node
        binary).input_values =
      [⟨state.heap.size, 0⟩, ⟨before.heap.size, 0⟩] := by
    rw [atNode, firstBinary, operands.inputs]
    rfl
  refine sinksCorrectly_iff operands (operands.different differ) success
    converted_reorders_self
    ?entry ?op inputs notDeleted g h ?evaluated
  case evaluated =>
    intro V _ other library known l r atL atR knows
    constructor
    · refine evaluatedLeft V other library known _ _ _ l atL
        (knows.new _ (Nat.le_refl _))
        (newNotDeleted _ (Nat.le_refl _)) ?_ (.known knows.left)
      rw [converted_node (by omega) firstOther, firstNode]
    · exact evaluatedRight V other library known _ _ _ r atR
        (knows.new _ (by omega))
        (newNotDeleted _ (by omega)) (converted_node_new (by omega))
        (.known knows.right)
  case entry =>
    rw [converted_node (by omega) operands.leftEntryOther, firstEntry]
    exact operands.leftOrder
  case op =>
    rw [atNode, firstBinary]
    exact operands.op

/-- Both operands are out of order: each is put back by the order of the other
one. -/
theorem sinksCorrectly_both (isP : IsOrder p n) (isQ : IsOrder q n)
    (leftRank : (state.heap.get_shape left).length = n)
    (rightRank : (state.heap.get_shape right).length = n) (aRank : a.length = n)
    (bRank : b.length = n) (differ : p ≠ q) (pOther : p ≠ List.range n)
    (qOther : q ≠ List.range n)
    (fits : stretchAll (permute p a) (permute q b) = some shape) :
    SinksCorrectly state binary type_name left right p q a b ↔
      ∀ (V : Type) [Inhabited V] (f : V → V → V) (l r : Tensor V), l.shape = a →
        r.shape = b →
        Tensor.binary f ((l.transpose (inverse q)).transpose p) r =
          Tensor.binary f (l.transpose p) (r.transpose q) := by
  have leftDefault := getDefaultOrder_of_rank leftRank
  have rightDefault := getDefaultOrder_of_rank rightRank
  have success :=
    sinkBinary_differing operands differ
      (fun both => pOther (both.1.trans leftDefault))
  simp only [leftDefault, rightDefault, ne_eq, qOther, pOther,
    not_false_eq_true, if_true,
    operands.convert_left (isQ.length.symm ▸ isQ)
      (by rw [leftRank, isQ.length]), Except.bind,
    operands.convert_again (isP.length.symm ▸ isP)
      (by rw [rightRank, isP.length])] at success
  rw [sinksCorrectly_convert_both operands differ success
    (fun _ _ l => l.transpose (inverse q))
    (fun _ _ r => r.transpose (inverse p))]
  · apply forall_operands_congr
    intro V _ f l r atL atR
    subst atL
    subst atR
    have isQL : IsOrder q l.rank :=
      (aRank.symm ▸ isQ : IsOrder q l.shape.length)
    have isPR : IsOrder p r.rank :=
      (bRank.symm ▸ isP : IsOrder p r.shape.length)
    have isP' : IsOrder p (l.transpose (inverse q)).rank := by
      rw [rank_transpose isQL.inverse]
      exact (aRank.symm ▸ isP : IsOrder p l.shape.length)
    have ranks : (l.transpose (inverse q)).rank =
        (r.transpose (inverse p)).rank := by
      rw [rank_transpose isQL.inverse, rank_transpose isPR.inverse]
      exact aRank.trans bRank.symm
    have swapped := @binary_transpose _ _ f _ _ _ isP' ranks
    rw [transpose_inverse isPR] at swapped
    have isPL : IsOrder p l.rank :=
      (aRank.symm ▸ isP : IsOrder p l.shape.length)
    have isQR : IsOrder q r.rank :=
      (bRank.symm ▸ isQ : IsOrder q r.shape.length)
    have isExpected :=
      @binary_eq _ _ f _ _ (rank_both isPL isQR (aRank.trans bRank.symm))
    rw [shape_transpose, shape_transpose, fits, Option.map_some] at isExpected
    rw [swapped]
    apply ordered_iff ⟨_, isExpected⟩
    intro value computed
    rwa [binary_rank ranks computed]
  · intro V _ other library known deleted heap id l atL unknown notDeleted
      isNode here
    subst atL
    exact evaluates_orderNode unknown notDeleted isNode here
      (aRank.symm ▸ isQ : IsOrder q l.shape.length) (leftRank.trans aRank.symm)
  · intro V _ other library known deleted heap id r atR unknown notDeleted
      isNode here
    subst atR
    exact evaluates_orderNode unknown notDeleted isNode here
      (bRank.symm ▸ isP : IsOrder p r.shape.length) (rightRank.trans bRank.symm)

section Cases

include isP isQ leftRank rightRank aRank bRank

theorem sinksCorrectly_of_default
    (ordered : p = q ∨ p = List.range n ∨ q = List.range n) :
    SinksCorrectly state binary type_name left right p q a b := by
  by_cases same : p = q
  · exact sinksCorrectly_same operands same isP aRank bRank
  · cases ordered.resolve_left same with
    | inl pDefault =>
        exact sinksCorrectly_right operands isQ leftRank rightRank aRank
          bRank pDefault fun qDefault => same (pDefault.trans qDefault.symm)
    | inr qDefault =>
        exact sinksCorrectly_left operands isP leftRank rightRank aRank bRank
          (fun pDefault => same (pDefault.trans qDefault.symm)) qDefault

theorem sinksCorrectly_crossed
    (fits : stretchAll (permute p a) (permute q b) = some shape)
    (crossing : ¬ (p = q ∨ p = List.range n ∨ q = List.range n)) :
    SinksCorrectly state binary type_name left right p q a b ↔
      (Fixes q a ∧ Fixes q b) ∨
        (0 ∈ shape ∧ stretchAll (permute p (permute (inverse q) a)) b =
          some shape) := by
  simp only [not_or] at crossing
  obtain ⟨differ, pOther, qOther⟩ := crossing
  rw [sinksCorrectly_both operands isP isQ leftRank rightRank aRank bRank differ
    pOther qOther fits, crossed_iff isP isQ aRank bRank fits]

end Cases

/-- Operands of one rank come out right if they are in one order, if one of them
is in default order, or if what the crossing of the orders moves does not
show. -/
theorem sinkBinary_equalRank (leftRank : (state.heap.get_shape left).length = n)
    (rightRank : (state.heap.get_shape right).length = n) (aRank : a.length = n)
    (bRank : b.length = n)
    (fits : stretchAll (permute p a) (permute q b) = some shape) :
    SinksCorrectly state binary type_name left right p q a b ↔
      p = q ∨ p = List.range n ∨ q = List.range n ∨ (Fixes q a ∧ Fixes q b) ∨
        (0 ∈ shape ∧ stretchAll (permute p (permute (inverse q) a)) b =
          some shape) := by
  have isP : IsOrder p n := leftRank ▸ operands.isLeft
  have isQ : IsOrder q n := rightRank ▸ operands.isRight
  have split : ∀ {crossed : Prop}, p = q ∨ p = List.range n ∨
      q = List.range n ∨ crossed ↔
      (p = q ∨ p = List.range n ∨ q = List.range n) ∨ crossed := by
    simp only [or_assoc, implies_true]
  rw [split]
  by_cases ordered : p = q ∨ p = List.range n ∨ q = List.range n
  · exact iff_of_true
      (sinksCorrectly_of_default operands isP isQ leftRank rightRank aRank
        bRank ordered) (.inl ordered)
  · rw [sinksCorrectly_crossed operands isP isQ leftRank rightRank aRank bRank
      fits ordered, or_iff_right ordered]

end Differing

end EqualRank

/-- A binary op on two parameters, each behind a transpose. -/
def addFunction (p q a b out : List Nat) : Function where
  heap := .ofList [⟨.Parameter a, [], [a]⟩, ⟨.Parameter b, [], [b]⟩,
    ⟨.Transpose p, [⟨0, 0⟩], [permute p a]⟩,
    ⟨.Transpose q, [⟨1, 0⟩], [permute q b]⟩,
    ⟨.Binary "Add", [⟨2, 0⟩, ⟨3, 0⟩], [out]⟩, ⟨.Result, [⟨4, 0⟩], [out]⟩]
  ops := [0, 1, 2, 3, 4, 5]
  results := [5]

/-- The state in which the main loop comes to the binary op. -/
def addState (p q a b out : List Nat) : State :=
  (sinkNodes [0, 1, 2, 3] (addFunction p q a b out).init).toOption.getD
    (addFunction p q a b out).init

theorem addState_operands_crossed :
    Operands (addState [0, 2, 1] [1, 0, 2] [2, 2, 2] [2, 2, 2] [2, 2, 2]) 4
      "Add" ⟨8, 0⟩ ⟨9, 0⟩ 8 9 [0, 2, 1] [1, 0, 2] := by
  constructor <;> decide

theorem sinkBinary_crossed :
    (sinkNodes [0, 1, 2, 3]
        (addFunction [0, 2, 1] [1, 0, 2] [2, 2, 2] [2, 2, 2]
          [2, 2, 2]).init).toOption.isSome ∧
      stretchAll (permute [0, 2, 1] [2, 2, 2]) (permute [1, 0, 2] [2, 2, 2]) =
        some [2, 2, 2] ∧
      ¬ SinksCorrectly
        (addState [0, 2, 1] [1, 0, 2] [2, 2, 2] [2, 2, 2] [2, 2, 2]) 4 "Add"
        ⟨8, 0⟩ ⟨9, 0⟩ [0, 2, 1] [1, 0, 2] [2, 2, 2] [2, 2, 2] := by
  have fits : stretchAll (permute [0, 2, 1] [2, 2, 2])
      (permute [1, 0, 2] [2, 2, 2]) =
      some [2, 2, 2] := by decide
  refine ⟨by decide, fits, fun correct => ?_⟩
  rw [sinksCorrectly_both (n := 3) addState_operands_crossed (by decide)
    (by decide)
    (by decide) (by decide) rfl rfl (by decide) (by decide) (by decide) fits,
    crossed_iff (n := 3) (by decide) (by decide) rfl rfl fits] at correct
  exact absurd correct (by decide)

theorem addState_operands_broadcast :
    Operands (addState [1, 2, 0] [0, 1, 2] [2, 3, 4] [3, 1, 2] [3, 4, 2]) 4
      "Add" ⟨8, 0⟩ ⟨9, 0⟩ 8 9 [1, 2, 0] [0, 1, 2] := by
  constructor <;> decide

theorem sinkBinary_equalRank_broadcast :
    SinksCorrectly (addState [1, 2, 0] [0, 1, 2] [2, 3, 4] [3, 1, 2] [3, 4, 2])
      4 "Add" ⟨8, 0⟩ ⟨9, 0⟩ [1, 2, 0] [0, 1, 2] [2, 3, 4] [3, 1, 2] :=
  (@sinkBinary_equalRank _ _ _ _ 3 _ _ _ _ _ _ _ [3, 4, 2]
      addState_operands_broadcast
    (by decide) (by decide) rfl rfl (by decide)).mpr (by decide)

end NGraphBridge.TransposeSinking
