import NGraphBridge.TransposeSinking.Pad

/-!
# What a step of the main loop leaves as it is

A step makes new nodes, and may put one of them in the place of the node it goes
over. Nodes that it has gone over are not changed any more.
-/

namespace NGraphBridge.TransposeSinking

open NGraph (Output Shape)
open Tensor Axes

/-- A function as it comes to the pass: its nodes are the ops of the heap, in an
order. -/
structure WellFormed (other : Inference) (f : Function) : Prop where
  nodup : f.ops.Nodup
  ops : ∀ n, n ∈ f.ops ↔ n < f.heap.size
  ordered : ∀ n ∈ f.ops, ∀ input ∈ (f.heap.node n).input_values,
    f.ops.idxOf input.node < f.ops.idxOf n ∧
      input.index < (f.heap.node input.node).output_shapes.length
  inferred : ∀ n ∈ f.ops, infer other (f.heap.node n).op
    ((f.heap.node n).input_values.map f.heap.get_shape) =
    some (f.heap.node n).output_shapes
  noLabel : ∀ n ∈ f.ops, ∀ shape, (f.heap.node n).op ≠ .Label shape
  results : ∀ r ∈ f.results, r ∈ f.ops ∧ (f.heap.node r).op = .Result

/-- The output that stands for an output of the original function. -/
def moved (current : Nat → Nat) (output : Output) : Output :=
  ⟨current output.node, output.index⟩

/-- A transpose of an older node. -/
def IsTranspose (heap : Heap) (id : Nat) (order : List Nat) : Prop :=
  ∃ arg shape, heap.node id = ⟨.Transpose order, [arg], [shape]⟩ ∧
    arg.node < id ∧
    shape.length = order.length

def Unread (heap : Heap) (id : Nat) : Prop :=
  ∀ reader < heap.size, ∀ input ∈ (heap.node reader).input_values,
    input.node ≠ id

/-- What holds between two steps. Nodes of `todo` are still to come, and
`current` tells which node stands for a node of the original function. -/
structure Inv (f : Function) (todo : List Nat) (current : Nat → Nat)
    (state : State) : Prop where
  nodup : todo.Nodup
  todoBelow : ∀ n ∈ todo, n < f.heap.size
  ordered : ∀ earlier n rest, todo = earlier ++ n :: rest →
    ∀ input ∈ (f.heap.node n).input_values, input.node < f.heap.size ∧
    input.node ∉ n :: rest ∧
      input.index < (f.heap.node input.node).output_shapes.length
  sizes : f.heap.size ≤ state.heap.size
  ops : ∀ n < f.heap.size, (state.heap.node n).op = (f.heap.node n).op
  shapes : ∀ n < f.heap.size, (state.heap.node n).output_shapes =
    (f.heap.node n).output_shapes
  waiting : ∀ n ∈ todo, current n = n ∧
    (state.heap.node n).input_values = (f.heap.node n).input_values.map
      (moved current)
  below : ∀ n < f.heap.size, current n < state.heap.size
  done : ∀ n < f.heap.size, n ∉ todo → current n ∉ todo
  inputsBelow : ∀ id < state.heap.size,
    ∀ input ∈ (state.heap.node id).input_values, input.node < state.heap.size
  closed : ∀ id < state.heap.size, id ∉ todo →
    ∀ input ∈ (state.heap.node id).input_values, input.node ∉ todo
  entries : ∀ output t, state.reorders output = some t → t < state.heap.size ∧
    f.heap.size ≤ t ∧ (∃ order, IsTranspose state.heap t order) ∧
    (t ∈ state.transposes_to_delete ∨
      Unread state.heap t ∧ ∀ n < f.heap.size, current n ≠ t)
  deleted : ∀ t ∈ state.transposes_to_delete, t < state.heap.size ∧
    f.heap.size ≤ t ∧
    ∃ order, IsTranspose state.heap t order
  entry : ∀ n < f.heap.size, n ∉ todo →
    ∀ i < (f.heap.node n).output_shapes.length, ∃ t order,
    state.reorders ⟨current n, i⟩ = some t ∧
    (state.heap.node t).op = .Transpose order ∧
    IsOrder order (f.heap.get_shape ⟨n, i⟩).length ∧
    (0 < i → order = List.range order.length)
  rank : ∀ n < f.heap.size, n ∉ todo →
    ∀ i < (f.heap.node n).output_shapes.length,
    (state.heap.get_shape ⟨current n, i⟩).length =
      (f.heap.get_shape ⟨n, i⟩).length

/-- What a step over node `n` may do. -/
structure Effect (state after : State) (n replacement : Nat) : Prop where
  sizes : state.heap.size ≤ after.heap.size
  ops : ∀ id < state.heap.size,
    (after.heap.node id).op = (state.heap.node id).op
  shapes : ∀ id < state.heap.size,
    (after.heap.node id).output_shapes = (state.heap.node id).output_shapes
  inputs : ∀ id < state.heap.size, id ≠ n → (after.heap.node id).input_values =
    (state.heap.node id).input_values.map (rename n replacement)
  made : ∀ id < after.heap.size, id = n ∨ state.heap.size ≤ id →
    ∀ input ∈ (after.heap.node id).input_values, input.node < after.heap.size ∧
      (input.node = n ∨ state.heap.size ≤ input.node ∨
        ∃ old ∈ (state.heap.node n).input_values, old.node = input.node)
  replacementBelow : replacement < after.heap.size
  replacementNew : replacement = n ∨ state.heap.size ≤ replacement
  reorders : ∀ output, output.node < state.heap.size → output.node ≠ n →
    after.reorders output = state.reorders output
  entries : ∀ output t, after.reorders output = some t →
    (∃ old, state.reorders old = some t) ∨
    (state.heap.size ≤ t ∧ t < after.heap.size ∧
      (∃ order, IsTranspose after.heap t order) ∧
      (t ∈ after.transposes_to_delete ∨ Unread after.heap t ∧ t ≠ replacement))
  deleted : ∀ t ∈ after.transposes_to_delete, t ∈ state.transposes_to_delete ∨
    (∃ old, state.reorders old = some t) ∨
    (state.heap.size ≤ t ∧ t < after.heap.size ∧
      ∃ order, IsTranspose after.heap t order)
  kept : ∀ t ∈ state.transposes_to_delete, t ∈ after.transposes_to_delete

theorem IsTranspose.op {heap : Heap} {id : Nat} {order : List Nat}
    (isTranspose : IsTranspose heap id order) :
    (heap.node id).op = .Transpose order := by
  obtain ⟨arg, shape, isNode, _, _⟩ := isTranspose
  rw [isNode]

theorem WellFormed.inputsBelow {other : Inference} {f : Function}
    (wellFormed : WellFormed other f) {n : Nat} (isOp : n ∈ f.ops)
    {input : Output} (member : input ∈ (f.heap.node n).input_values) :
    input.node < f.heap.size := by
  have earlier := (wellFormed.ordered n isOp input member).1
  have bound := Nat.lt_trans earlier (List.idxOf_lt_length_iff.mpr isOp)
  exact (wellFormed.ops _).mp (List.idxOf_lt_length_iff.mp bound)

theorem WellFormed.inputsEarlier {other : Inference} {f : Function}
    (wellFormed : WellFormed other f) {earlier rest : List Nat} {n : Nat}
    (split : f.ops = earlier ++ n :: rest) {input : Output}
    (member : input ∈ (f.heap.node n).input_values) :
    input.node ∉ n :: rest := by
  have nodup := wellFormed.nodup
  have isOp : n ∈ f.ops := by simp [split]
  have before := (wellFormed.ordered n isOp input member).1
  rw [split] at nodup before
  have apart := (List.nodup_append.mp nodup).2.2
  have notEarlier : n ∉ earlier :=
    fun isMember => apart n isMember n (by simp) rfl
  rw [List.idxOf_append_of_notMem notEarlier, List.idxOf_cons_self] at before
  intro isLater
  have notEarlier : input.node ∉ earlier :=
    fun isMember => apart input.node isMember input.node isLater rfl
  rw [List.idxOf_append_of_notMem notEarlier] at before
  omega

theorem Inv.init {other : Inference} {f : Function}
    (wellFormed : WellFormed other f) :
    Inv f f.ops id f.init where
  nodup := wellFormed.nodup
  todoBelow := fun n member => (wellFormed.ops n).mp member
  ordered := fun earlier n rest split input member =>
    have isOp : n ∈ f.ops := by simp [split]
    ⟨wellFormed.inputsBelow isOp member, wellFormed.inputsEarlier split member,
      (wellFormed.ordered n isOp input member).2⟩
  sizes := Nat.le_refl _
  ops := fun _ _ => rfl
  shapes := fun _ _ => rfl
  waiting := fun n _ => ⟨rfl, (List.map_id _).symm⟩
  below := fun _ below => below
  done := fun n below notTodo => absurd ((wellFormed.ops n).mpr below) notTodo
  inputsBelow := fun id below input member =>
    wellFormed.inputsBelow ((wellFormed.ops id).mpr below) member
  closed := fun id below notTodo =>
    absurd ((wellFormed.ops id).mpr below) notTodo
  entries := fun _ _ recorded => absurd recorded (by simp [Function.init])
  deleted := fun _ isDeleted => absurd isDeleted (by simp [Function.init])
  entry := fun n below notTodo => absurd ((wellFormed.ops n).mpr below) notTodo
  rank := fun n below notTodo => absurd ((wellFormed.ops n).mpr below) notTodo

theorem Inv.original {f : Function} {todo : List Nat} {current : Nat → Nat}
    {state : State} (inv : Inv f todo current state)
    (orig_result_out_shape : Nat → Shape) :
    Inv f todo current
      { state with orig_result_out_shape := orig_result_out_shape } :=
  { inv with }

section Step

variable {f : Function} {n replacement : Nat} {todo : List Nat}
  {current : Nat → Nat} {state after : State}
  (inv : Inv f (n :: todo) current state)
  (effect : Effect state after n replacement)

include inv

theorem Inv.nodeBelow : n < f.heap.size := inv.todoBelow n (by simp)

theorem Inv.nodeBelowState : n < state.heap.size :=
  Nat.lt_of_lt_of_le inv.nodeBelow inv.sizes

theorem Inv.notTodo {id : Nat} (above : f.heap.size ≤ id) : id ∉ n :: todo :=
  fun member => absurd (inv.todoBelow id member) (Nat.not_lt.mpr above)

theorem Inv.current_ne {m : Nat} (below : m < f.heap.size) (different : m ≠ n) :
    current m ≠ n := by
  by_cases member : m ∈ n :: todo
  · rw [(inv.waiting m member).1]
    exact different
  · intro same
    exact inv.done m below member (same ▸ List.mem_cons_self)

theorem Inv.inputs {input : Output}
    (member : input ∈ (f.heap.node n).input_values) :
    input.node < f.heap.size ∧ input.node ∉ n :: todo ∧
      input.index < (f.heap.node input.node).output_shapes.length :=
  inv.ordered [] n todo rfl input member

theorem Inv.inputs_later {m : Nat} (isTodo : m ∈ n :: todo) {input : Output}
    (member : input ∈ (f.heap.node m).input_values) :
    input.node < f.heap.size := by
  obtain ⟨earlier, rest, split⟩ := List.append_of_mem isTodo
  exact (inv.ordered earlier m rest split input member).1

/-- Readers of what is replaced read what stands for it. -/
theorem Inv.moved_waiting (outputs : List Output)
    (known : ∀ output ∈ outputs, output.node < f.heap.size) :
    (outputs.map (moved current)).map (rename n replacement) =
      outputs.map (moved (Function.update current n replacement)) := by
  rw [List.map_map]
  apply List.map_congr_left
  intro output member
  rw [Function.comp_apply]
  by_cases same : output.node = n
  · have isNode : current output.node = n := by
      rw [same]
      exact (inv.waiting n List.mem_cons_self).1
    rw [moved, rename, if_pos isNode, moved, same, Function.update_self]
  · rw [moved, rename_ne (inv.current_ne (known output member) same), moved,
      Function.update_of_ne same]

include effect

theorem Effect.inputs_done {id : Nat} (below : id < state.heap.size)
    (notTodo : id ∉ n :: todo) :
    (after.heap.node id).input_values = (state.heap.node id).input_values := by
  have different : id ≠ n := fun same => notTodo (same ▸ List.mem_cons_self)
  rw [effect.inputs id below different]
  conv_rhs => rw [← List.map_id (state.heap.node id).input_values]
  apply List.map_congr_left
  intro input member
  exact rename_ne fun same => inv.closed id below notTodo input member
    (same ▸ List.mem_cons_self)

theorem Effect.node_done {id : Nat} (below : id < state.heap.size)
    (notTodo : id ∉ n :: todo) :
    after.heap.node id = state.heap.node id := by
  have ops := effect.ops id below
  have shapes := effect.shapes id below
  have inputs := effect.inputs_done inv below notTodo
  cases isNode : after.heap.node id
  cases wasNode : state.heap.node id
  simp only [isNode, wasNode] at ops shapes inputs
  rw [ops, shapes, inputs]

theorem Effect.isTranspose {id : Nat} {order : List Nat}
    (below : id < state.heap.size) (above : f.heap.size ≤ id)
    (isTranspose : IsTranspose state.heap id order) :
    IsTranspose after.heap id order := by
  rw [IsTranspose, effect.node_done inv below (inv.notTodo above)]
  exact isTranspose

theorem Effect.unread {t : Nat} (below : t < state.heap.size)
    (above : f.heap.size ≤ t) (unread : Unread state.heap t) :
    Unread after.heap t := by
  have nodeBelow := inv.nodeBelow
  have differentNode : n ≠ t :=
    Nat.ne_of_lt (Nat.lt_of_lt_of_le nodeBelow above)
  intro reader readerBelow input member
  by_cases isOld : reader < state.heap.size ∧ reader ≠ n
  · rw [effect.inputs reader isOld.1 isOld.2, List.mem_map] at member
    obtain ⟨old, isMember, rfl⟩ := member
    by_cases same : old.node = n
    · rw [rename, if_pos same]
      cases effect.replacementNew with
      | inl isNode => exact isNode ▸ differentNode
      | inr isNew => exact Nat.ne_of_gt (Nat.lt_of_lt_of_le below isNew)
    · rw [rename_ne same]
      exact unread reader isOld.1 old isMember
  · have isNew : reader = n ∨ state.heap.size ≤ reader := by omega
    obtain ⟨_, isNode | isNew | ⟨old, isOld, same⟩⟩ :=
      effect.made reader readerBelow isNew input member
    · exact isNode ▸ differentNode
    · exact Nat.ne_of_gt (Nat.lt_of_lt_of_le below isNew)
    · rw [← same]
      exact unread n inv.nodeBelowState old isOld

omit inv in
theorem Effect.get_shape {output : Output}
    (below : output.node < state.heap.size) :
    after.heap.get_shape output = state.heap.get_shape output := by
  rw [Heap.get_shape, Heap.get_shape, effect.shapes _ below]

theorem Inv.step_inputsBelow {id : Nat} (below : id < after.heap.size)
    {input : Output} (member : input ∈ (after.heap.node id).input_values) :
    input.node < after.heap.size := by
  by_cases isOld : id < state.heap.size ∧ id ≠ n
  · rw [effect.inputs id isOld.1 isOld.2, List.mem_map] at member
    obtain ⟨old, isMember, rfl⟩ := member
    by_cases same : old.node = n
    · rw [rename, if_pos same]
      exact effect.replacementBelow
    · rw [rename_ne same]
      exact Nat.lt_of_lt_of_le (inv.inputsBelow id isOld.1 old isMember)
        effect.sizes
  · exact (effect.made id below (by omega) input member).1

/-- Nodes that are not still to come read none that are. -/
theorem Inv.step_closed {id : Nat} (below : id < after.heap.size)
    (isDone : id ∉ todo) {input : Output}
    (member : input ∈ (after.heap.node id).input_values) :
    input.node ∉ todo := by
  have notTodo := (List.nodup_cons.mp inv.nodup).1
  by_cases isOld : id < state.heap.size ∧ id ≠ n
  · have doneBefore := List.not_mem_cons_of_ne_of_not_mem isOld.2 isDone
    rw [effect.inputs_done inv isOld.1 doneBefore] at member
    exact fun isTodo => inv.closed id isOld.1 doneBefore input member
      (List.mem_cons_of_mem _ isTodo)
  · obtain ⟨_, isNode | isNew | ⟨old, isOld, same⟩⟩ :=
      effect.made id below (by omega) input member
    · exact isNode ▸ notTodo
    · exact fun isTodo => inv.notTodo (Nat.le_trans inv.sizes isNew)
        (List.mem_cons_of_mem _ isTodo)
    · rw [(inv.waiting n List.mem_cons_self).2, List.mem_map] at isOld
      obtain ⟨original, isOriginal, rfl⟩ := isOld
      obtain ⟨originalBelow, originalDone, _⟩ := inv.inputs isOriginal
      rw [← same]
      exact fun isTodo => inv.done _ originalBelow originalDone
        (List.mem_cons_of_mem _ isTodo)

omit inv effect in
theorem update_ne_entry {t : Nat} (notReplacement : t ≠ replacement)
    (others : ∀ m < f.heap.size, current m ≠ t) {m : Nat}
    (below : m < f.heap.size) :
    Function.update current n replacement m ≠ t := by
  by_cases same : m = n
  · rw [same, Function.update_self]
    exact notReplacement.symm
  · rw [Function.update_of_ne same]
    exact others m below

/-- Entries are transposes that nothing reads. -/
theorem Inv.step_entries {output : Output} {t : Nat}
    (recorded : after.reorders output = some t) :
    t < after.heap.size ∧ f.heap.size ≤ t ∧
      (∃ order, IsTranspose after.heap t order) ∧
      (t ∈ after.transposes_to_delete ∨ Unread after.heap t ∧
        ∀ m < f.heap.size, Function.update current n replacement m ≠ t) := by
  cases effect.entries output t recorded with
  | inl before =>
      obtain ⟨old, before⟩ := before
      obtain ⟨below, above, ⟨order, isTranspose⟩, pending⟩ :=
        inv.entries old t before
      refine ⟨Nat.lt_of_lt_of_le below effect.sizes, above,
        ⟨order, effect.isTranspose inv below above isTranspose⟩, ?_⟩
      cases pending with
      | inl isDeleted => exact .inl (effect.kept t isDeleted)
      | inr unread =>
          have notReplacement : t ≠ replacement := by
            cases effect.replacementNew with
            | inl isNode =>
                exact isNode ▸ Nat.ne_of_gt
                  (Nat.lt_of_lt_of_le inv.nodeBelow above)
            | inr isNew => exact Nat.ne_of_lt (Nat.lt_of_lt_of_le below isNew)
          exact .inr ⟨effect.unread inv below above unread.1, fun m mBelow =>
            update_ne_entry notReplacement unread.2 mBelow⟩
  | inr isNew =>
      obtain ⟨above, below, isTranspose, pending⟩ := isNew
      refine ⟨below, Nat.le_trans inv.sizes above, isTranspose,
        pending.imp_right fun unread => ?_⟩
      have others : ∀ m < f.heap.size, current m ≠ t := fun m mBelow =>
        Nat.ne_of_lt (Nat.lt_of_lt_of_le (inv.below m mBelow) above)
      exact ⟨unread.1, fun m mBelow => update_ne_entry unread.2 others mBelow⟩

theorem Inv.step_deleted {t : Nat}
    (isDeleted : t ∈ after.transposes_to_delete) :
    t < after.heap.size ∧ f.heap.size ≤ t ∧
    ∃ order, IsTranspose after.heap t order := by
  obtain before | ⟨old, before⟩ | ⟨above, below, isTranspose⟩ :=
    effect.deleted t isDeleted
  · obtain ⟨below, above, order, isTranspose⟩ := inv.deleted t before
    exact ⟨Nat.lt_of_lt_of_le below effect.sizes, above, order,
      effect.isTranspose inv below above isTranspose⟩
  · obtain ⟨below, above, ⟨order, isTranspose⟩, _⟩ := inv.entries old t before
    exact ⟨Nat.lt_of_lt_of_le below effect.sizes, above, order,
      effect.isTranspose inv below above isTranspose⟩
  · exact ⟨below, Nat.le_trans inv.sizes above, isTranspose⟩

/-- A step over a node, with entries for its outputs. -/
theorem Inv.step
    (newEntry : ∀ i < (f.heap.node n).output_shapes.length, ∃ t order,
      after.reorders ⟨replacement, i⟩ = some t ∧
      (after.heap.node t).op = .Transpose order ∧
      IsOrder order (f.heap.get_shape ⟨n, i⟩).length ∧
      (0 < i → order = List.range order.length))
    (newRank : ∀ i < (f.heap.node n).output_shapes.length,
      (after.heap.get_shape ⟨replacement, i⟩).length =
        (f.heap.get_shape ⟨n, i⟩).length) :
    Inv f todo (Function.update current n replacement) after := by
  obtain ⟨notTodo, nodup⟩ := List.nodup_cons.mp inv.nodup
  have inTodo : ∀ {m}, m ∈ todo → m ∈ n :: todo := List.mem_cons_of_mem _
  have replacementNotTodo : replacement ∉ todo := by
    cases effect.replacementNew with
    | inl isNode => exact isNode ▸ notTodo
    | inr isNew => exact fun member =>
        inv.notTodo (Nat.le_trans inv.sizes isNew) (inTodo member)
  have todoNe : ∀ {m}, m ∈ todo → m ≠ n :=
    fun member same => notTodo (same ▸ member)
  refine ⟨nodup, fun m member => inv.todoBelow m (inTodo member),
    fun earlier m rest split => inv.ordered (n :: earlier) m rest
      (congrArg (n :: ·) split),
    Nat.le_trans inv.sizes effect.sizes, ?ops, ?shapes, ?waiting, ?below, ?done,
    ?inputsBelow, ?closed, ?entries, ?deleted, ?entry, ?rank⟩
  case ops =>
    intro m below
    rw [effect.ops m (Nat.lt_of_lt_of_le below inv.sizes), inv.ops m below]
  case shapes =>
    intro m below
    rw [effect.shapes m (Nat.lt_of_lt_of_le below inv.sizes),
      inv.shapes m below]
  case waiting =>
    intro m member
    have below := inv.todoBelow m (inTodo member)
    obtain ⟨same, inputs⟩ := inv.waiting m (inTodo member)
    refine ⟨(Function.update_of_ne (todoNe member) _ _).trans same, ?_⟩
    rw [effect.inputs m (Nat.lt_of_lt_of_le below inv.sizes) (todoNe member),
      inputs, inv.moved_waiting
        _ (fun input => inv.inputs_later (inTodo member))]
  case below =>
    intro m below
    by_cases same : m = n
    · rw [same, Function.update_self]
      exact effect.replacementBelow
    · rw [Function.update_of_ne same]
      exact Nat.lt_of_lt_of_le (inv.below m below) effect.sizes
  case done =>
    intro m below notTodo
    by_cases same : m = n
    · rw [same, Function.update_self]
      exact replacementNotTodo
    · rw [Function.update_of_ne same]
      have doneBefore := List.not_mem_cons_of_ne_of_not_mem same notTodo
      exact fun member => inv.done m below doneBefore (inTodo member)
  case inputsBelow => exact fun id below input member =>
    inv.step_inputsBelow effect below member
  case closed =>
    exact fun id below isDone input member =>
      inv.step_closed effect below isDone member
  case entries => exact fun output t recorded =>
    inv.step_entries effect recorded
  case deleted => exact fun t isDeleted => inv.step_deleted effect isDeleted
  case entry =>
    intro m below isDone i bound
    by_cases same : m = n
    · subst same
      rw [Function.update_self]
      exact newEntry i bound
    · rw [Function.update_of_ne same]
      obtain ⟨t, order, recorded, isTranspose, isOrder, default⟩ :=
        inv.entry m below (List.not_mem_cons_of_ne_of_not_mem same isDone) i
          bound
      obtain ⟨tBelow, _⟩ := inv.entries _ t recorded
      refine ⟨t, order, ?_, ?_, isOrder, default⟩
      · rw [effect.reorders _ (inv.below m below) (inv.current_ne below same)]
        exact recorded
      · rw [effect.ops t tBelow]
        exact isTranspose
  case rank =>
    intro m below isDone i bound
    by_cases same : m = n
    · subst same
      rw [Function.update_self]
      exact newRank i bound
    · rw [Function.update_of_ne same, effect.get_shape (inv.below m below)]
      exact inv.rank m below (List.not_mem_cons_of_ne_of_not_mem same isDone) i
        bound

end Step

end NGraphBridge.TransposeSinking
