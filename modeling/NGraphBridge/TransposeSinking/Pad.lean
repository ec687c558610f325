import NGraphBridge.TransposeSinking.Binary

/-!
# Sinking through a pad

A pad is made again over a dummy, and the dummy is replaced by the node that the
pad reads. The pads change places with the axes; the output that is read may
change too.
-/

namespace NGraphBridge.TransposeSinking

open NGraph (Output Shape)
open Tensor Axes

/-- An output of the target is read at the replacement. -/
def rename (target replacement : Nat) (output : Output) : Output :=
  if output.node = target then ⟨replacement, output.index⟩ else output

theorem rename_ne {target replacement : Nat} {output : Output}
    (different : output.node ≠ target) :
    rename target replacement output = output :=
  if_neg different

namespace Heap

variable {heap : Heap} {target replacement id : Nat} {output : Output}

theorem replace_node_node : (heap.replace_node target replacement).node id =
    { heap.node id with
      input_values :=
        (heap.node id).input_values.map (rename target replacement) } :=
  rfl

theorem replace_node_get_shape :
    (heap.replace_node target replacement).get_shape output =
      heap.get_shape output :=
  rfl

theorem replace_node_inputs_ne
    (different : ∀ input ∈ (heap.node id).input_values, input.node ≠ target) :
    (heap.replace_node target replacement).node id = heap.node id := by
  have same : (heap.node id).input_values.map (rename target replacement) =
      (heap.node id).input_values := by
    conv_rhs => rw [← List.map_id (heap.node id).input_values]
    apply List.map_congr_left
    intro input member
    exact rename_ne (different input member)
  rw [replace_node_node, same]

end Heap

/-- A dummy of a given shape. -/
def labelNode (shape : Shape) : Node := ⟨.Label shape, [], [shape]⟩

/-- What `sink_pad` builds: the dummy, and the new pad between the producer and
the readers of the old one. -/
def padHeap (heap : Heap) (n producer : Nat) (label pad : Node) : Heap :=
  (((heap.add label).add pad).replace_node heap.size producer).replace_node n
    (heap.size + 1)

/-- A pad, its producer, and the transpose that is pending behind the output it
reads. -/
structure PadOperand (state : State) (n : Nat) (pads_begin pads_end : List Int)
    (pad_mode : PadMode) (input value : Output) (arg_transpose : Nat)
    (order : List Nat) (shape : Shape) : Prop where
  op : (state.heap.node n).op = .Pad pads_begin pads_end pad_mode
  inputs : (state.heap.node n).input_values = [input, value]
  entry : state.reorders input = some arg_transpose
  isTranspose : (state.heap.node arg_transpose).op = .Transpose order
  stored : state.heap.get_shape ⟨arg_transpose, 0⟩ = shape
  isOrder : IsOrder order shape.length
  beginLength : pads_begin.length = shape.length
  endLength : pads_end.length = shape.length
  scalar : state.heap.get_shape value = []
  inputOther : input.node ≠ n
  valueOther : value.node ≠ n
  inputBelow : input.node < state.heap.size
  valueBelow : value.node < state.heap.size
  inputsBelow : ∀ id < state.heap.size,
    ∀ arg ∈ (state.heap.node id).input_values, arg.node < state.heap.size

section PadHeap

variable {heap : Heap} {n producer id : Nat} {label pad : Node}

theorem padHeap_node (below : id < heap.size)
    (inputsBelow : ∀ arg ∈ (heap.node id).input_values, arg.node < heap.size) :
    (padHeap heap n producer label pad).node id = { heap.node id with
      input_values :=
        (heap.node id).input_values.map (rename n (heap.size + 1)) } := by
  have isOld : ((heap.add label).add pad).node id = heap.node id :=
    (Heap.add_node (Nat.lt_succ_of_lt below)).trans (Heap.add_node below)
  have keeps : (((heap.add label).add pad).replace_node heap.size producer).node
      id =
      heap.node id := by
    rw [Heap.replace_node_inputs_ne, isOld]
    rw [isOld]
    intro arg member
    exact Nat.ne_of_lt (inputsBelow arg member)
  rw [padHeap, Heap.replace_node_node, keeps]

theorem padHeap_node_label {shape : Shape} :
    (padHeap heap n producer (labelNode shape) pad).node heap.size =
      labelNode shape := by
  have isLabel : ((heap.add (labelNode shape)).add pad).node heap.size =
      labelNode shape :=
    (Heap.add_node (Nat.lt_succ_self _)).trans Heap.add_node_self
  rw [padHeap, Heap.replace_node_node, Heap.replace_node_node, isLabel]
  rfl

theorem padHeap_node_new {op : Op} {value : Output} {shapes : List Shape}
    (valueBelow : value.node < heap.size) (producerOther : producer ≠ n)
    (valueOther : value.node ≠ n) :
    (padHeap heap n producer label ⟨op, [⟨heap.size, 0⟩, value], shapes⟩).node
      (heap.size + 1) =
      ⟨op, [⟨producer, 0⟩, value], shapes⟩ := by
  have isNew : ((heap.add label).add ⟨op, [⟨heap.size, 0⟩, value], shapes⟩).node
      (heap.size + 1) =
      ⟨op, [⟨heap.size, 0⟩, value], shapes⟩ := Heap.add_node_self
  have valueOld : value.node ≠ heap.size := Nat.ne_of_lt valueBelow
  have dummyRead : rename heap.size producer ⟨heap.size, 0⟩ = ⟨producer, 0⟩ :=
    if_pos rfl
  have producerRead : rename n (heap.size + 1) ⟨producer, 0⟩ = ⟨producer, 0⟩ :=
    rename_ne producerOther
  rw [padHeap, Heap.replace_node_node, Heap.replace_node_node, isNew]
  simp only [List.map_cons, List.map_nil, dummyRead, rename_ne valueOld,
    producerRead, rename_ne valueOther]

theorem padHeap_get_shape_new {op : Op} {inputs : List Output} {shape : Shape} :
    (padHeap heap n producer label ⟨op, inputs, [shape]⟩).get_shape
      ⟨heap.size + 1, 0⟩ = shape := by
  have isNew : ((heap.add label).add ⟨op, inputs, [shape]⟩).node
      (heap.size + 1) =
      ⟨op, inputs, [shape]⟩ := Heap.add_node_self
  change ((heap.add label).add ⟨op, inputs, [shape]⟩).get_shape
    ⟨heap.size + 1, 0⟩ = shape
  rw [Heap.get_shape, isNew]
  rfl

end PadHeap

section SinkPad

variable {state : State} {n arg_transpose : Nat}
  {pads_begin pads_end : List Int} {pad_mode : PadMode} {input value : Output}
  {order shape dummy_shape : List Nat}

theorem PadOperand.dummyValid
    (operand : PadOperand state n pads_begin pads_end pad_mode input value
      arg_transpose order shape)
    (valid : (padShape pad_mode pads_begin pads_end shape).isSome) :
    ∃ dummy_shape, padShape pad_mode (permute (inverse order) pads_begin)
      (permute (inverse order) pads_end) (permute (inverse order) shape) =
      some dummy_shape := by
  obtain ⟨padded, valid⟩ := Option.isSome_iff_exists.mp valid
  have permuted :=
    @padShape_permute pad_mode _ _ _ _ operand.isOrder.inverse
      operand.beginLength operand.endLength
  rw [valid, Option.map_some] at permuted
  exact ⟨_, permuted⟩

/-- The new pad reads the first output of the producer, and takes the place of
the old one. -/
theorem sinkPad_ok
    (operand : PadOperand state n pads_begin pads_end pad_mode input value
      arg_transpose order shape)
    (valid : padShape pad_mode (permute (inverse order) pads_begin)
      (permute (inverse order) pads_end) (permute (inverse order) shape) =
      some dummy_shape) :
    ∃ after, sinkPad n pads_begin pads_end pad_mode state = .ok after ∧
      after.heap.size = state.heap.size + 3 ∧
      (∀ id < state.heap.size, after.heap.node id = { state.heap.node id with
        input_values :=
          (state.heap.node id).input_values.map
            (rename n (state.heap.size + 1)) }) ∧
      after.heap.node state.heap.size =
        labelNode (permute (inverse order) shape) ∧
      after.heap.node (state.heap.size + 1) =
        ⟨.Pad (permute (inverse order) pads_begin)
          (permute (inverse order) pads_end) pad_mode,
          [⟨input.node, 0⟩, value], [dummy_shape]⟩ ∧
      after.heap.node (state.heap.size + 2) =
        ⟨.Transpose order, [⟨state.heap.size + 1, 0⟩],
          [permute order dummy_shape]⟩ ∧
      after.reorders = Function.update state.reorders ⟨state.heap.size + 1, 0⟩
        (some (state.heap.size + 2)) ∧
      after.transposes_to_delete = state.transposes_to_delete ∧
      after.orig_result_out_shape = state.orig_result_out_shape := by
  have inputRead : state.heap.input_value n 0 = input :=
    input_value_of operand.inputs rfl
  have valueRead : state.heap.input_value n 1 = value :=
    input_value_of operand.inputs rfl
  have isOrder := operand.isOrder
  have rank : dummy_shape.length = shape.length := by
    rw [(padShape_inv valid).2.2, length_permute isOrder.inverse.inside,
      isOrder.inverse.length]
  generalize isLabel : labelNode (permute (inverse order) shape) = label
  generalize isPad : Node.mk (.Pad (permute (inverse order) pads_begin)
    (permute (inverse order) pads_end) pad_mode) [⟨state.heap.size, 0⟩, value]
    [dummy_shape] = pad
  have labelMade : state.heap.make (.Label (permute (inverse order) shape)) [] =
      .ok (state.heap.size, state.heap.add label) := by
    rw [← isLabel]
    exact Heap.make_ok rfl
  have labelShape : (state.heap.add label).get_shape ⟨state.heap.size, 0⟩ =
      permute (inverse order) shape := by
    rw [Heap.get_shape, Heap.add_node_self, ← isLabel]
    rfl
  have valueShape : (state.heap.add label).get_shape value = [] :=
    (Heap.add_get_shape operand.valueBelow).trans operand.scalar
  have padMade : (state.heap.add label).make
      (.Pad (permute (inverse order) pads_begin)
        (permute (inverse order) pads_end) pad_mode)
      [⟨state.heap.size, 0⟩, value] =
        .ok (state.heap.size + 1, (state.heap.add label).add pad) := by
    rw [← isPad]
    apply Heap.make_ok
    rw [List.map_cons, List.map_cons, List.map_nil, labelShape, valueShape,
      infer, if_pos rfl, valid, Option.map_some]
  have newShape :
      (padHeap state.heap n input.node label pad).get_shape
        ⟨state.heap.size + 1, 0⟩ =
      dummy_shape := by
    rw [← isPad]
    exact padHeap_get_shape_new
  have transposeMade : makeTranspose (padHeap state.heap n input.node label pad)
      ⟨state.heap.size + 1, 0⟩ order =
        .ok (state.heap.size + 2,
          (padHeap state.heap n input.node label pad).add
          ((padHeap state.heap n input.node label pad).transposeOf
            ⟨state.heap.size + 1, 0⟩ order)) := by
    apply Heap.makeTranspose_ok
    rw [newShape, rank]
    exact isOrder
  have beginPermuted := @applyPermutation_ok _ _ (inverse order) pads_begin
    (operand.beginLength.symm ▸ isOrder.inverse)
  have endPermuted := @applyPermutation_ok _ _ (inverse order) pads_end
    (operand.endLength.symm ▸ isOrder.inverse)
  have success : sinkPad n pads_begin pads_end pad_mode state =
      .ok (writeTransposemap { state with
          heap := (padHeap state.heap n input.node label pad).add
            ((padHeap state.heap n input.node label pad).transposeOf
              ⟨state.heap.size + 1, 0⟩ order) }
        ⟨state.heap.size + 1, 0⟩ (state.heap.size + 2)) := by
    unfold sinkPad
    simp only [bind, Except.bind, inputRead, valueRead,
      readTransposemap_ok operand.entry,
      get_axis_vector_val_eq operand.isTranspose,
      permutationToDefaultOrder_ok isOrder, operand.stored,
      applyPermutation_ok isOrder.inverse, labelMade, beginPermuted,
      endPermuted, padMade]
    rw [padHeap] at transposeMade
    rw [transposeMade]
    rfl
  refine ⟨_, success, rfl, ?_, ?_, ?_, ?_, rfl, rfl, rfl⟩
  · intro id below
    refine (Heap.add_node ?_).trans
      (padHeap_node below (operand.inputsBelow id below))
    exact Nat.lt_succ_of_lt (Nat.lt_succ_of_lt below)
  · refine (Heap.add_node (Nat.lt_succ_of_lt (Nat.lt_succ_self _))).trans ?_
    rw [← isLabel]
    exact padHeap_node_label
  · refine (Heap.add_node (Nat.lt_succ_self _)).trans ?_
    rw [← isPad]
    exact padHeap_node_new operand.valueBelow operand.inputOther
      operand.valueOther
  · refine Heap.add_node_self.trans ?_
    rw [Heap.transposeOf, newShape]

/-- A new pad takes the place of the old one, reads the output that the old one
reads, and computes it on an argument whose pending transpose is taken off. -/
def PadsCorrectly (state : State) (n : Nat) (pads_begin pads_end : List Int)
    (pad_mode : PadMode) (input value : Output) (order : List Nat) : Prop :=
  ∃ after new new_transpose pad_begin pad_end,
    sinkPad n pads_begin pads_end pad_mode state = .ok after ∧
    state.heap.size ≤ new ∧ new < after.heap.size ∧
    (∀ id < state.heap.size, (after.heap.node id).input_values =
      (state.heap.node id).input_values.map (rename n new)) ∧
    after.reorders ⟨new, 0⟩ = some new_transpose ∧
    (after.heap.node new_transpose).op = .Transpose order ∧
    (after.heap.node new).op = .Pad pad_begin pad_end pad_mode ∧
    (after.heap.node new).input_values = [input, value] ∧
    ∀ (V : Type) [Inhabited V] (x : Tensor V) (v : V), x.rank = order.length →
      (x.pad pad_mode pad_begin pad_end v).map (transpose order) =
        (x.transpose order).pad pad_mode pads_begin pads_end v

theorem pad_permuted {V : Type} [Inhabited V] {x : Tensor V} {v : V}
    (isOrder : IsOrder order x.rank) (beginLength : pads_begin.length = x.rank)
    (endLength : pads_end.length = x.rank) :
    (x.pad pad_mode (permute (inverse order) pads_begin)
      (permute (inverse order) pads_end) v).map
      (transpose order) = (x.transpose order).pad pad_mode pads_begin
      pads_end v := by
  have beginOrder : IsOrder order pads_begin.length :=
    beginLength.symm ▸ isOrder
  have endOrder : IsOrder order pads_end.length := endLength.symm ▸ isOrder
  have beginRank : (permute (inverse order) pads_begin).length = x.rank := by
    rw [length_permute beginOrder.inverse.inside, length_inverse,
      isOrder.length]
  have endRank : (permute (inverse order) pads_end).length = x.rank := by
    rw [length_permute endOrder.inverse.inside, length_inverse, isOrder.length]
  rw [← pad_transpose isOrder beginRank endRank, permute_inverse beginOrder,
    permute_inverse endOrder]

/-- The new pad reads the first output of the producer. -/
theorem PadsCorrectly.first
    (operand : PadOperand state n pads_begin pads_end pad_mode input value
      arg_transpose order shape)
    (valid : (padShape pad_mode pads_begin pads_end shape).isSome)
    (correct : PadsCorrectly state n pads_begin pads_end pad_mode input
      value order) :
    input.index = 0 := by
  obtain ⟨dummy_shape, dummyValid⟩ := operand.dummyValid valid
  obtain ⟨after, success, size, _, isLabel, isNew, isTranspose, _⟩ :=
    sinkPad_ok operand dummyValid
  obtain ⟨after', new, _, _, _, success', above, below, _, _, _, isPad, inputs,
    _⟩ := correct
  obtain rfl := Except.ok.inj (success.symm.trans success')
  have places : new = state.heap.size ∨ new = state.heap.size + 1 ∨
      new = state.heap.size + 2 := by
    omega
  rcases places with rfl | rfl | rfl
  · rw [isLabel] at isPad
    exact absurd isPad (by simp [labelNode])
  · rw [isNew] at inputs
    have same := (List.cons.inj inputs).1
    rw [← same]
  · rw [isTranspose] at isPad
    exact absurd isPad (by simp)

/-- The producer is read at the same output if that is its first one. -/
theorem sinkPad_output
    (operand : PadOperand state n pads_begin pads_end pad_mode input value
      arg_transpose order shape)
    (valid : (padShape pad_mode pads_begin pads_end shape).isSome) :
    PadsCorrectly state n pads_begin pads_end pad_mode input value order ↔
    input.index = 0 := by
  refine ⟨fun correct => correct.first operand valid, fun first => ?_⟩
  obtain ⟨dummy_shape, dummyValid⟩ := operand.dummyValid valid
  obtain ⟨after, success, size, old, _, isNew, isTranspose, reorders, _⟩ :=
    sinkPad_ok operand dummyValid
  have isOrder := operand.isOrder
  have sameInput : (⟨input.node, 0⟩ : Output) = input := by
    rw [← first]
  refine ⟨after, state.heap.size + 1, state.heap.size + 2, _, _, success, ?_,
    ?_, ?_, ?_, ?_, congrArg Node.op isNew, ?_, ?_⟩
  · omega
  · omega
  · intro id below
    rw [old id below]
  · rw [reorders]
    exact Function.update_self _ _ _
  · rw [isTranspose]
  · rw [isNew, sameInput]
  · intro V _ x v rank
    have isOrderX : IsOrder order x.rank :=
      (rank.trans isOrder.length).symm ▸ isOrder
    have lengths : x.rank = shape.length := rank.trans isOrder.length
    exact pad_permuted isOrderX (operand.beginLength.trans lengths.symm)
      (operand.endLength.trans lengths.symm)

end SinkPad

/-- A pad that reads an output of a node with two. -/
def splitPadFunction : Function where
  heap := .ofList [⟨.Parameter [4, 3], [], [[4, 3]]⟩,
    ⟨.Other "Split", [⟨0, 0⟩], [[2, 3], [2, 3]]⟩, ⟨.Other "Constant", [], [[]]⟩,
    ⟨.Pad [1, 0] [0, 2] .CONSTANT, [⟨1, 1⟩, ⟨2, 0⟩], [[3, 5]]⟩,
    ⟨.Result, [⟨3, 0⟩], [[3, 5]]⟩]
  ops := [0, 1, 2, 3, 4]
  results := [4]

/-- A pad behind a transpose. -/
def transposePadFunction : Function where
  heap := .ofList [⟨.Parameter [2, 3, 4], [], [[2, 3, 4]]⟩,
    ⟨.Transpose [1, 2, 0], [⟨0, 0⟩], [[3, 4, 2]]⟩,
    ⟨.Other "Constant", [], [[]]⟩,
    ⟨.Pad [1, 0, 0] [0, 2, 3] .CONSTANT, [⟨1, 0⟩, ⟨2, 0⟩], [[4, 6, 5]]⟩,
    ⟨.Result, [⟨3, 0⟩], [[4, 6, 5]]⟩]
  ops := [0, 1, 2, 3, 4]
  results := [4]

/-- The state in which the main loop comes to node 3. -/
def padState (f : Function) : State :=
  (sinkNodes [0, 1, 2] f.init).toOption.getD f.init

theorem padState_operand_split : PadOperand (padState splitPadFunction) 3 [1, 0]
    [0, 2] .CONSTANT ⟨1, 1⟩ ⟨2, 0⟩ 7 [0, 1] [2, 3] := by
  constructor <;> decide

/-- The second part is to be padded, and the first one is. -/
theorem sinkPad_split :
    (sinkNodes [0, 1, 2] splitPadFunction.init).toOption.isSome ∧
      ¬ PadsCorrectly (padState splitPadFunction) 3 [1, 0]
      [0, 2] .CONSTANT ⟨1, 1⟩ ⟨2, 0⟩ [0, 1] := by
  refine ⟨by decide, fun correct => ?_⟩
  exact absurd (correct.first padState_operand_split (by decide)) (by decide)

theorem padState_operand_transpose :
    PadOperand (padState transposePadFunction) 3 [1, 0, 0]
    [0, 2, 3] .CONSTANT ⟨6, 0⟩ ⟨2, 0⟩ 6 [1, 2, 0] [3, 4, 2] := by
  constructor <;> decide

theorem sinkPad_output_transpose :
    PadsCorrectly (padState transposePadFunction) 3 [1, 0, 0]
    [0, 2, 3] .CONSTANT ⟨6, 0⟩ ⟨2, 0⟩ [1, 2, 0] :=
  (sinkPad_output padState_operand_transpose (by decide)).mpr rfl

end NGraphBridge.TransposeSinking
