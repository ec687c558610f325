import NGraphBridge.TransposeSinking.Pass

/-!
# What a graph of tensors computes

Outputs are evaluated from known values. A transpose that is to be deleted
passes its argument on, which is what is computed once the graph is purged.
-/

namespace NGraphBridge.TransposeSinking

open NGraph (Output Shape)
open Tensor Axes

/-- The ops on elements, and the ops that are not told apart. -/
structure Library (V : Type) [Inhabited V] (other : Inference) where
  unary : String → V → V
  binary : String → V → V → V
  apply : String → List (Tensor V) → Option (List (Tensor V))
  shapes : ∀ type_name values,
    (apply type_name values).map (List.map Tensor.shape) =
    other type_name (values.map Tensor.shape)

section Evaluation

variable {V : Type} [Inhabited V] {other : Inference}

def Op.apply (library : Library V other) : Op → List (Tensor V) →
    Option (List (Tensor V))
  | .Transpose order, [tensor] =>
      if IsOrder order tensor.rank then some [tensor.transpose order] else none
  | .Reshape pattern, [tensor] => (tensor.reshape pattern).map ([·])
  | .Unary type_name, [tensor] => some [tensor.map (library.unary type_name)]
  | .Binary type_name, [left, right] =>
      (Tensor.binary (library.binary type_name) left right).map ([·])
  | .Pad pads_begin pads_end pad_mode, [tensor, value] =>
      if value.shape = [] then
        (tensor.pad pad_mode pads_begin pads_end (value.get [])).map ([·])
      else none
  | .Concat axis, tensors => (Tensor.concat axis tensors).map ([·])
  | .Result, [tensor] => some [tensor]
  | .Other type_name, tensors => library.apply type_name tensors
  | _, _ => none

/-- The value of an output. -/
inductive Evaluates (library : Library V other)
    (known : Output → Option (Tensor V)) (deleted : List Nat) (heap : Heap) :
    Output → Tensor V → Prop
  | known {output : Output} {value : Tensor V}
  (isKnown : known output = some value) :
      Evaluates library known deleted heap output value
  | deleted {id : Nat} {value : Tensor V} (unknown : known ⟨id, 0⟩ = none)
      (isDeleted : id ∈ deleted)
      (arg : Evaluates library known deleted heap
        (heap.input_value id 0) value) :
      Evaluates library known deleted heap ⟨id, 0⟩ value
  | node {output : Output} {values outputs : List (Tensor V)} {value : Tensor V}
      (unknown : known output = none)
      (notDeleted : ¬ (output.node ∈ deleted ∧ output.index = 0))
      (lengths : values.length = (heap.node output.node).input_values.length)
      (args : ∀ (i : Nat) input arg, (heap.node output.node).input_values[i]? =
        some input →
        values[i]? = some arg → Evaluates library known deleted heap input arg)
      (applied : (heap.node output.node).op.apply library values = some outputs)
      (picked : outputs[output.index]? = some value) :
      Evaluates library known deleted heap output value

variable {library : Library V other} {known : Output → Option (Tensor V)}
  {deleted : List Nat} {heap : Heap}

theorem Evaluates.unique {output : Output} {value another : Tensor V}
    (left : Evaluates library known deleted heap output value)
    (right : Evaluates library known deleted heap output another) :
    value = another := by
  induction left generalizing another with
  | known isKnown =>
      cases right with
      | known otherKnown =>
          exact Option.some.inj (isKnown.symm.trans otherKnown)
      | deleted unknown => exact absurd (isKnown.symm.trans unknown) (by simp)
      | node unknown => exact absurd (isKnown.symm.trans unknown) (by simp)
  | deleted unknown isDeleted _ ih =>
      cases right with
      | known isKnown => exact absurd (isKnown.symm.trans unknown) (by simp)
      | deleted _ _ arg => exact ih arg
      | node _ notDeleted => exact absurd ⟨isDeleted, rfl⟩ notDeleted
  | @node _ values _ _ unknown notDeleted lengths _ applied picked ih =>
      cases right with
      | known isKnown => exact absurd (isKnown.symm.trans unknown) (by simp)
      | deleted _ isDeleted => exact absurd ⟨isDeleted, rfl⟩ notDeleted
      | @node _ otherValues _ _ _ _ otherLengths args otherApplied
        otherPicked =>
          have sameValues : values = otherValues := by
            apply List.ext_getElem (lengths.trans otherLengths.symm)
            intro i bound otherBound
            have inputBound := lengths ▸ bound
            exact ih i _ _ (List.getElem?_eq_getElem inputBound)
              (List.getElem?_eq_getElem bound)
              (args i _ _ (List.getElem?_eq_getElem inputBound)
                (List.getElem?_eq_getElem otherBound))
          subst sameValues
          rw [applied, Option.some.injEq] at otherApplied
          subst otherApplied
          exact Option.some.inj (picked.symm.trans otherPicked)

/-- A value depends only on the nodes that are read for it. -/
theorem Evaluates.transport {settled : Nat → Prop} {deleted' : List Nat}
    {heap' : Heap}
    (closed : ∀ id, settled id → ∀ input ∈ (heap.node id).input_values,
      settled input.node)
    (reads : ∀ id, settled id → id ∈ deleted → (heap.node id).input_values ≠ [])
    (ops : ∀ id, settled id → (heap'.node id).op = (heap.node id).op)
    (inputs : ∀ id, settled id →
      (heap'.node id).input_values = (heap.node id).input_values)
    (sameDeleted : ∀ id, settled id → (id ∈ deleted' ↔ id ∈ deleted))
    {output : Output} {value : Tensor V} (here : settled output.node)
    (evaluates : Evaluates library known deleted heap output value) :
    Evaluates library known deleted' heap' output value := by
  induction evaluates with
  | known isKnown => exact .known isKnown
  | @deleted id value unknown isDeleted _ ih =>
      have sameInput : heap'.input_value id 0 = heap.input_value id 0 := by
        rw [Heap.input_value, Heap.input_value, inputs id here]
      refine .deleted unknown ((sameDeleted id here).mpr isDeleted)
        (sameInput ▸ ih ?_)
      have nonempty := List.length_pos_iff.mpr (reads id here isDeleted)
      apply closed id here
      rw [Heap.input_value, List.getD_eq_getElem?_getD,
        List.getElem?_eq_getElem nonempty, Option.getD_some]
      exact List.getElem_mem nonempty
  | @node output values _ _ unknown notDeleted lengths _ applied picked ih =>
      refine .node unknown ?_ ?_ ?_ (ops _ here ▸ applied) picked
      · exact fun both => notDeleted ⟨(sameDeleted _ here).mp both.1, both.2⟩
      · rw [lengths, inputs _ here]
      · intro i input arg atInput atValue
        rw [inputs _ here] at atInput
        exact ih i input arg atInput atValue
          (closed _ here input (List.mem_of_getElem? atInput))

/-- The shapes of the outputs are the inferred ones. -/
theorem apply_shapes {op : Op} (isParameter : ∀ shape, op ≠ .Parameter shape)
    (isLabel : ∀ shape, op ≠ .Label shape) (values : List (Tensor V)) :
    (op.apply library values).map (List.map Tensor.shape) =
      infer other op (values.map Tensor.shape) := by
  cases op with
  | Parameter shape => exact absurd rfl (isParameter shape)
  | Label shape => exact absurd rfl (isLabel shape)
  | Other type_name => exact library.shapes type_name values
  | Concat axis =>
      rw [infer, ← shape_concat, Op.apply, Option.map_map, Option.map_map]
      rfl
  | Transpose order =>
      cases values with
      | nil => rfl
      | cons tensor rest =>
          cases rest with
          | cons _ _ => rfl
          | nil =>
              rw [Op.apply, List.map_cons, List.map_nil, infer, rank]
              split <;> rfl
  | Reshape pattern =>
      cases values with
      | nil => rfl
      | cons tensor rest =>
          cases rest with
          | cons _ _ => rfl
          | nil =>
              rw [Op.apply, List.map_cons, List.map_nil, infer, reshape,
                ← tensor.full]
              split <;> rfl
  | Unary type_name =>
      cases values with
      | nil => rfl
      | cons tensor rest => cases rest <;> rfl
  | Result =>
      cases values with
      | nil => rfl
      | cons tensor rest => cases rest <;> rfl
  | Binary type_name =>
      cases values with
      | nil => rfl
      | cons left rest =>
          cases rest with
          | nil => rfl
          | cons right rest =>
              cases rest with
              | cons _ _ => rfl
              | nil =>
                  have shape :
                      (Tensor.binary (library.binary type_name) left right).map
                      Tensor.shape = broadcastShape left.shape right.shape :=
                    shape_binary _ left right
                  rw [Op.apply, List.map_cons, List.map_cons, List.map_nil,
                    infer, ← shape, Option.map_map, Option.map_map]
                  rfl
  | Pad pads_begin pads_end pad_mode =>
      cases values with
      | nil => rfl
      | cons tensor rest =>
          cases rest with
          | nil => rfl
          | cons value rest =>
              cases rest with
              | cons _ _ => rfl
              | nil =>
                  have shape :
                      (tensor.pad pad_mode pads_begin pads_end
                        (value.get [])).map Tensor.shape =
                      padShape pad_mode pads_begin pads_end tensor.shape := by
                    rw [pad, Option.map_map]
                    exact Option.map_id'
                  rw [Op.apply, List.map_cons, List.map_cons, List.map_nil,
                    infer, ← shape]
                  split
                  · rw [Option.map_map, Option.map_map]
                    rfl
                  · rfl

theorem Evaluates.single {id : Nat} {arg : Output} {value result : Tensor V}
    (unknown : known ⟨id, 0⟩ = none) (notDeleted : id ∉ deleted)
    (inputs : (heap.node id).input_values = [arg])
    (here : Evaluates library known deleted heap arg value)
    (applied : (heap.node id).op.apply library [value] = some [result]) :
    Evaluates library known deleted heap ⟨id, 0⟩ result := by
  refine .node unknown (fun both => notDeleted both.1) ?_ ?_ applied rfl
  · rw [inputs]
    rfl
  · intro i input arg atInput atValue
    rw [inputs] at atInput
    match i with
    | 0 =>
        obtain rfl := Option.some.inj atInput
        obtain rfl := Option.some.inj atValue
        exact here
    | i + 1 => exact absurd atInput (by simp)

theorem Evaluates.pair {id : Nat} {first second : Output}
    {left right result : Tensor V} (unknown : known ⟨id, 0⟩ = none)
    (notDeleted : id ∉ deleted)
    (inputs : (heap.node id).input_values = [first, second])
    (atLeft : Evaluates library known deleted heap first left)
    (atRight : Evaluates library known deleted heap second right)
    (applied : (heap.node id).op.apply library [left, right] = some [result]) :
    Evaluates library known deleted heap ⟨id, 0⟩ result := by
  refine .node unknown (fun both => notDeleted both.1) ?_ ?_ applied rfl
  · rw [inputs]
    rfl
  · intro i input arg atInput atValue
    rw [inputs] at atInput
    match i with
    | 0 =>
        obtain rfl := Option.some.inj atInput
        obtain rfl := Option.some.inj atValue
        exact atLeft
    | 1 =>
        obtain rfl := Option.some.inj atInput
        obtain rfl := Option.some.inj atValue
        exact atRight
    | i + 2 => exact absurd atInput (by simp)

theorem Evaluates.pair_inv {id : Nat} {first second : Output}
    {left right result : Tensor V}
    (evaluates : Evaluates library known deleted heap ⟨id, 0⟩ result)
    (unknown : known ⟨id, 0⟩ = none) (notDeleted : id ∉ deleted)
    (inputs : (heap.node id).input_values = [first, second])
    (atLeft : Evaluates library known deleted heap first left)
    (atRight : Evaluates library known deleted heap second right) :
    ∃ outputs, (heap.node id).op.apply library [left, right] = some outputs ∧
      outputs[0]? = some result := by
  cases evaluates with
  | known isKnown => exact absurd (isKnown.symm.trans unknown) (by simp)
  | deleted _ isDeleted => exact absurd isDeleted notDeleted
  | @node _ values outputs _ _ _ lengths args applied picked =>
      rw [inputs] at lengths args
      match values, lengths with
      | [x, y], _ =>
          obtain rfl := (args 0 first x rfl rfl).unique atLeft
          obtain rfl := (args 1 second y rfl rfl).unique atRight
          exact ⟨outputs, applied, picked⟩

end Evaluation

end NGraphBridge.TransposeSinking
