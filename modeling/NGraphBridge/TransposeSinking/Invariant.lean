import NGraphBridge.TransposeSinking.Concat

/-!
# The invariant of the main loop

Each rule leads from one state between two steps to another one.
-/

namespace NGraphBridge.TransposeSinking

open NGraph (Output Shape)
open Tensor Axes

section Infer

variable {other : Inference} {shapes outs : List Shape}

theorem infer_transpose {order : List Nat}
    (inferred : infer other (.Transpose order) shapes = some outs) :
    ∃ shape, shapes = [shape] ∧ IsOrder order shape.length ∧
    outs = [permute order shape] := by
  match shapes with
  | [] => exact absurd inferred (by simp [infer])
  | _ :: _ :: _ => exact absurd inferred (by simp [infer])
  | [shape] =>
      have inferred :
          (if IsOrder order shape.length then some [permute order shape]
            else none) =
          some outs := inferred
      split at inferred
      next isOrder =>
        exact ⟨shape, rfl, isOrder, (Option.some.inj inferred).symm⟩
      next => exact absurd inferred (by simp)

theorem infer_unary {type_name : String}
    (inferred : infer other (.Unary type_name) shapes = some outs) :
    ∃ shape, shapes = [shape] ∧ outs = [shape] := by
  match shapes with
  | [] => exact absurd inferred (by simp [infer])
  | _ :: _ :: _ => exact absurd inferred (by simp [infer])
  | [shape] => exact ⟨shape, rfl, (Option.some.inj inferred).symm⟩

theorem infer_binary {type_name : String}
    (inferred : infer other (.Binary type_name) shapes = some outs) :
    ∃ left right shape,
      shapes = [left, right] ∧ broadcastShape left right = some shape ∧
      outs = [shape] := by
  match shapes with
  | [] => exact absurd inferred (by simp [infer])
  | [_] => exact absurd inferred (by simp [infer])
  | _ :: _ :: _ :: _ => exact absurd inferred (by simp [infer])
  | [left, right] =>
      obtain ⟨shape, fits, same⟩ := Option.map_eq_some_iff.mp inferred
      exact ⟨left, right, shape, rfl, fits, same.symm⟩

theorem infer_pad {pads_begin pads_end : List Int} {pad_mode : PadMode}
    (inferred : infer other (.Pad pads_begin pads_end pad_mode) shapes =
      some outs) :
    ∃ shape padded, shapes = [shape, []] ∧
      padShape pad_mode pads_begin pads_end shape = some padded ∧
      outs = [padded] := by
  match shapes with
  | [] => exact absurd inferred (by simp [infer])
  | [_] => exact absurd inferred (by simp [infer])
  | _ :: _ :: _ :: _ => exact absurd inferred (by simp [infer])
  | [shape, value] =>
      have inferred : (if value = [] then
          (padShape pad_mode pads_begin pads_end shape).map ([·]) else none) =
            some outs := inferred
      split at inferred
      next isScalar =>
        obtain ⟨padded, valid, same⟩ := Option.map_eq_some_iff.mp inferred
        exact ⟨shape, padded, by rw [isScalar], valid, same.symm⟩
      next => exact absurd inferred (by simp)

theorem infer_concat {axis : Nat}
    (inferred : infer other (.Concat axis) shapes = some outs) :
    ∃ shape, concatShape axis shapes = some shape ∧ outs = [shape] := by
  cases shapes with
  | nil => exact absurd inferred (by simp [infer, concatShape])
  | cons first rest =>
      obtain ⟨shape, valid, same⟩ := Option.map_eq_some_iff.mp inferred
      exact ⟨shape, valid, same.symm⟩

theorem infer_label {shape : Shape}
    (inferred : infer other (.Label shape) shapes = some outs) :
    outs = [shape] := by
  cases shapes with
  | nil => exact (Option.some.inj inferred).symm
  | cons first rest => exact absurd inferred (by simp [infer])

end Infer

/-- The ops of a function are the nodes of its heap as they were made. -/
theorem WellFormed.of_range {other : Inference} {f : Function}
    (isRange : f.ops = List.range f.heap.size)
    (ordered : ∀ n ∈ f.ops, ∀ input ∈ (f.heap.node n).input_values,
      f.ops.idxOf input.node < f.ops.idxOf n ∧
        input.index < (f.heap.node input.node).output_shapes.length)
    (inferred : ∀ n ∈ f.ops, infer other (f.heap.node n).op
      ((f.heap.node n).input_values.map f.heap.get_shape) =
      some (f.heap.node n).output_shapes)
    (noLabel : ∀ n ∈ f.ops,
      (f.heap.node n).op ≠ .Label (f.heap.get_shape ⟨n, 0⟩))
    (results : ∀ r ∈ f.results, r ∈ f.ops ∧ (f.heap.node r).op = .Result) :
    WellFormed other f where
  nodup := isRange ▸ List.nodup_range
  ops := by
    intro n
    rw [isRange]
    exact List.mem_range
  ordered := ordered
  inferred := inferred
  noLabel := by
    intro n member shape op
    apply noLabel n member
    have outs := inferred n member
    rw [op] at outs
    rw [op, Heap.get_shape, infer_label outs]
    rfl
  results := results

theorem get_shape_of {heap : Heap} {n : Nat} {shape : Shape}
    (outs : (heap.node n).output_shapes = [shape]) :
    heap.get_shape ⟨n, 0⟩ = shape := by
  rw [Heap.get_shape, outs]
  rfl

theorem map_singleton {α β : Type} {g : α → β} {list : List α} {image : β}
    (same : list.map g = [image]) : ∃ x, list = [x] ∧ g x = image := by
  match list with
  | [] => exact absurd same (by simp)
  | [x] => exact ⟨x, rfl, (List.cons.inj same).1⟩
  | _ :: _ :: _ => exact absurd same (by simp)

theorem map_pair {α β : Type} {g : α → β} {list : List α} {first second : β}
    (same : list.map g = [first, second]) :
    ∃ x y, list = [x, y] ∧ g x = first ∧ g y = second := by
  match list with
  | [] => exact absurd same (by simp)
  | [_] => exact absurd same (by simp)
  | [x, y] =>
      obtain ⟨isFirst, rest⟩ := List.cons.inj same
      exact ⟨x, y, rfl, isFirst, (List.cons.inj rest).1⟩
  | _ :: _ :: _ :: _ => exact absurd same (by simp)

section Step

variable {f : Function} {n : Nat} {todo : List Nat} {current : Nat → Nat}
  {state after : State}

/-- A node with one output. -/
theorem Inv.step_one (inv : Inv f (n :: todo) current state)
    {replacement t : Nat} {order shape : List Nat}
    (outs : (f.heap.node n).output_shapes = [shape])
    (effect : Effect state after n replacement)
    (recorded : after.reorders ⟨replacement, 0⟩ = some t)
    (isTranspose : (after.heap.node t).op = .Transpose order)
    (isOrder : IsOrder order shape.length)
    (rank : (after.heap.get_shape ⟨replacement, 0⟩).length = shape.length) :
    Inv f todo (Function.update current n replacement) after := by
  have outShape := get_shape_of outs
  refine inv.step effect (fun i bound => ?_) fun i bound => ?_
  · rw [outs] at bound
    obtain rfl := Nat.lt_one_iff.mp bound
    rw [outShape]
    exact ⟨t, order, recorded, isTranspose, isOrder,
      fun later => absurd later (Nat.lt_irrefl _)⟩
  · rw [outs] at bound
    obtain rfl := Nat.lt_one_iff.mp bound
    rw [outShape]
    exact rank

theorem Inv.step_stays (inv : Inv f (n :: todo) current state) {t : Nat}
    {order shape : List Nat} (outs : (f.heap.node n).output_shapes = [shape])
    (effect : Effect state after n n)
    (recorded : after.reorders ⟨n, 0⟩ = some t)
    (isTranspose : (after.heap.node t).op = .Transpose order)
    (isOrder : IsOrder order shape.length) :
    Inv f todo (Function.update current n n) after := by
  refine inv.step_one outs effect recorded isTranspose isOrder ?_
  rw [effect.get_shape inv.nodeBelowState, Heap.get_shape,
    inv.shapes n inv.nodeBelow, outs]
  rfl

theorem Inv.step_materialize (inv : Inv f (n :: todo) current state)
    (effect : Effect state after n n)
    (defaults : ∀ i < (f.heap.node n).output_shapes.length,
      Defaulted state after n i) :
    Inv f todo (Function.update current n n) after := by
  have shape : ∀ i, state.heap.get_shape ⟨n, i⟩ = f.heap.get_shape ⟨n, i⟩ := by
    intro i
    rw [Heap.get_shape, Heap.get_shape, inv.shapes n inv.nodeBelow]
  refine inv.step effect (fun i bound => ?_) fun i bound => ?_
  · obtain ⟨t, recorded, _, _, isNode⟩ := defaults i bound
    refine ⟨t, getDefaultOrder (f.heap.get_shape ⟨n, i⟩), recorded, ?_,
      isOrder_range _, fun _ => ?_⟩
    · rw [isNode, shape]
    · rw [getDefaultOrder, List.length_range]
  · rw [effect.get_shape inv.nodeBelowState, shape]

end Step

end NGraphBridge.TransposeSinking
