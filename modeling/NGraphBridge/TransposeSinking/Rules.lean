import NGraphBridge.TransposeSinking.Steps

/-!
# The effects of the rules

Each rule is taken apart into what is made, what is marked and what is recorded.
-/

namespace NGraphBridge.TransposeSinking

open NGraph (Output Shape)
open Tensor Axes

/-- An output with the transpose that is pending behind it. -/
structure Pending (state : State) (output : Output) (rank t : Nat)
    (order : List Nat) : Prop where
  entry : state.reorders output = some t
  isTranspose : IsTranspose state.heap t order
  isOrder : IsOrder order rank
  stored : (state.heap.get_shape output).length = rank
  default : 0 < output.index → order = List.range order.length
  outputBelow : output.node < state.heap.size
  below : t < state.heap.size

section Pending

variable {state : State} {output : Output} {rank t : Nat} {order : List Nat}

theorem Pending.read (pending : Pending state output rank t order) :
    readTransposemap state output = .ok t :=
  readTransposemap_ok pending.entry

theorem Pending.axes (pending : Pending state output rank t order) :
    state.heap.get_axis_vector_val t = order :=
  get_axis_vector_val_eq pending.isTranspose.op

theorem IsTranspose.shape_length {heap : Heap}
    (isTranspose : IsTranspose heap t order) :
    (heap.get_shape ⟨t, 0⟩).length = order.length := by
  obtain ⟨arg, shape, isNode, _, length⟩ := isTranspose
  rw [Heap.get_shape, isNode]
  exact length

theorem Pending.defaultOrder (pending : Pending state output rank t order) :
    getDefaultOrder (state.heap.get_shape output) = List.range rank := by
  rw [getDefaultOrder, pending.stored]

theorem Pending.first (pending : Pending state output rank t order)
    (other : order ≠ List.range rank) :
    (⟨output.node, 0⟩ : Output) = output := by
  have isFirst : ¬ 0 < output.index := by
    intro later
    apply other
    rw [pending.default later, pending.isOrder.length]
  have isFirst : output.index = 0 := by omega
  rw [← isFirst]

end Pending

section Inputs

variable {f : Function} {n : Nat} {todo : List Nat} {current : Nat → Nat}
  {state : State}

theorem Inv.pending (inv : Inv f (n :: todo) current state) {input : Output}
    (member : input ∈ (f.heap.node n).input_values) :
    ∃ t order, Pending state (moved current input)
      (f.heap.get_shape input).length t order := by
  obtain ⟨below, done, bound⟩ := inv.inputs member
  obtain ⟨t, order, entry, op, isOrder, default⟩ :=
    inv.entry _ below done _ bound
  obtain ⟨tBelow, _, ⟨order', isTranspose⟩, _⟩ := inv.entries _ t entry
  obtain rfl := Op.Transpose.inj (op.symm.trans isTranspose.op)
  exact ⟨t, order, entry, isTranspose, isOrder, inv.rank _ below done _ bound,
    default, inv.below _ below, tBelow⟩

theorem Inv.input_values (inv : Inv f (n :: todo) current state) :
    (state.heap.node n).input_values = (f.heap.node n).input_values.map
      (moved current) :=
  (inv.waiting n List.mem_cons_self).2

theorem Inv.input_ne (inv : Inv f (n :: todo) current state) {input : Output}
    (member : input ∈ (f.heap.node n).input_values) :
    (moved current input).node ≠ n := by
  obtain ⟨below, done, _⟩ := inv.inputs member
  exact fun same => inv.done _ below done (List.mem_cons.mpr (.inl same))

end Inputs

section Parts

variable {state s : State} {n t : Nat}

theorem writeTransposemap_self {target : Output} :
    (writeTransposemap s target t).reorders target = some t :=
  Function.update_self _ _ _

theorem writeTransposemap_ne {target output : Output}
    (different : output ≠ target) :
    (writeTransposemap s target t).reorders output = s.reorders output :=
  Function.update_of_ne different _ _

theorem rename_self (output : Output) : rename n n output = output := by
  rw [rename]
  split
  · next same => rw [← same]
  · rfl

theorem rename_map_self (outputs : List Output) :
    outputs.map (rename n n) = outputs := by
  conv_rhs => rw [← List.map_id outputs]
  exact List.map_congr_left fun output _ => rename_self output

/-- Nothing is done. -/
theorem Effect.refl (below : n < state.heap.size)
    (inputsBelow : ∀ input ∈ (state.heap.node n).input_values,
      input.node < state.heap.size) :
    Effect state state n n where
  sizes := Nat.le_refl _
  ops := fun _ _ => rfl
  shapes := fun _ _ => rfl
  inputs := fun _ _ _ => (rename_map_self _).symm
  made := by
    intro id idBelow isNew input member
    cases isNew with
    | inl isNode =>
        subst isNode
        exact ⟨inputsBelow input member, .inr (.inr ⟨input, member, rfl⟩)⟩
    | inr above => exact absurd idBelow (Nat.not_lt.mpr above)
  replacementBelow := below
  replacementNew := .inl rfl
  reorders := fun _ _ _ => rfl
  entries := fun output _ recorded => .inl ⟨output, recorded⟩
  deleted := fun _ isDeleted => .inl isDeleted
  kept := fun _ isDeleted => isDeleted

/-- A pending transpose of an input is passed on. -/
theorem Effect.write (effect : Effect state s n n) {old : Output} {i : Nat}
    (isEntry : state.reorders old = some t) :
    Effect state (writeTransposemap s ⟨n, i⟩ t) n n where
  sizes := effect.sizes
  ops := effect.ops
  shapes := effect.shapes
  inputs := effect.inputs
  made := effect.made
  replacementBelow := effect.replacementBelow
  replacementNew := effect.replacementNew
  reorders := by
    intro output below different
    have notHere : output ≠ ⟨n, i⟩ :=
      fun same => different (congrArg Output.node same)
    exact (writeTransposemap_ne notHere).trans
      (effect.reorders output below different)
  entries := by
    intro output t' recorded
    by_cases here : output = ⟨n, i⟩
    · subst here
      obtain rfl := Option.some.inj (writeTransposemap_self.symm.trans recorded)
      exact .inl ⟨old, isEntry⟩
    · exact effect.entries output t'
        ((writeTransposemap_ne here).symm.trans recorded)
  deleted := effect.deleted
  kept := effect.kept

theorem Effect.mark {replacement : Nat} (effect : Effect state s n replacement)
    {old : Output} (isEntry : state.reorders old = some t) :
    Effect state (markTransposeForDeletion s t) n replacement where
  sizes := effect.sizes
  ops := effect.ops
  shapes := effect.shapes
  inputs := effect.inputs
  made := effect.made
  replacementBelow := effect.replacementBelow
  replacementNew := effect.replacementNew
  reorders := effect.reorders
  entries := by
    intro output t' recorded
    refine (effect.entries output t' recorded).imp_right fun isNew => ?_
    exact ⟨isNew.1, isNew.2.1, isNew.2.2.1,
      isNew.2.2.2.imp_left (List.mem_insert_of_mem ·)⟩
  deleted := by
    intro t' isDeleted
    cases List.mem_insert_iff.mp isDeleted with
    | inl same => exact .inr (.inl ⟨old, same ▸ isEntry⟩)
    | inr isDeleted => exact effect.deleted t' isDeleted
  kept := fun t' isDeleted => List.mem_insert_of_mem (effect.kept t' isDeleted)

theorem Effect.inputsBelow (effect : Effect state s n n)
    (before : ∀ id < state.heap.size,
      ∀ input ∈ (state.heap.node id).input_values,
      input.node < state.heap.size) {id : Nat} (below : id < s.heap.size)
    {input : Output} (member : input ∈ (s.heap.node id).input_values) :
    input.node < s.heap.size := by
  by_cases isOld : id < state.heap.size ∧ id ≠ n
  · rw [effect.inputs id isOld.1 isOld.2, rename_map_self] at member
    exact Nat.lt_of_lt_of_le (before id isOld.1 input member) effect.sizes
  · exact (effect.made id below (by omega) input member).1

theorem IsTranspose.add {heap : Heap} {node : Node} {id : Nat}
    {order : List Nat} (below : id < heap.size)
    (isTranspose : IsTranspose heap id order) :
    IsTranspose (heap.add node) id order := by
  rw [IsTranspose, Heap.add_node below]
  exact isTranspose

theorem isTranspose_add {heap : Heap} {arg : Output} {order : List Nat}
    (isOrder : IsOrder order (heap.get_shape arg).length)
    (below : arg.node < heap.size) :
    IsTranspose (heap.add (heap.transposeOf arg order)) heap.size order := by
  refine ⟨arg, _, Heap.add_node_self, below, ?_⟩
  rw [length_permute isOrder.inside]

section Made

variable (effect : Effect state s n n)
  (before : ∀ id < state.heap.size, ∀ input ∈ (state.heap.node id).input_values,
    input.node < state.heap.size)

include effect before

/-- A node of one input is made. -/
theorem Effect.add (nodeBelow : n < state.heap.size) {node : Node}
    {arg : Output} (reads : node.input_values = [arg])
    (known : arg.node = n ∨ ∃ old ∈ (state.heap.node n).input_values,
      old.node = arg.node) :
    Effect state { s with heap := s.heap.add node } n n := by
  have argBelow : arg.node < state.heap.size := by
    cases known with
    | inl same => exact same ▸ nodeBelow
    | inr isInput =>
        obtain ⟨old, member, same⟩ := isInput
        exact same ▸ before n nodeBelow old member
  have isOld : ∀ {id}, id < s.heap.size →
      (s.heap.add node).node id = s.heap.node id :=
    fun below => Heap.add_node below
  have isNew : ∀ {id}, id < s.heap.size + 1 → ¬ id < s.heap.size →
      id = s.heap.size := by
    intro id below notOld
    omega
  refine ⟨Nat.le_succ_of_le effect.sizes, ?ops, ?shapes, ?inputs, ?made,
    Nat.lt_succ_of_lt effect.replacementBelow, .inl rfl, effect.reorders,
    ?entries, ?deleted, effect.kept⟩
  case ops =>
    intro id below
    exact (congrArg Node.op
        (isOld (Nat.lt_of_lt_of_le below effect.sizes))).trans
      (effect.ops id below)
  case shapes =>
    intro id below
    exact (congrArg Node.output_shapes
        (isOld (Nat.lt_of_lt_of_le below effect.sizes))).trans
      (effect.shapes id below)
  case inputs =>
    intro id below different
    exact (congrArg Node.input_values
        (isOld (Nat.lt_of_lt_of_le below effect.sizes))).trans
      (effect.inputs id below different)
  case made =>
    intro id below isMade input member
    by_cases old : id < s.heap.size
    · have member : input ∈ (s.heap.node id).input_values := isOld old ▸ member
      obtain ⟨inputBelow, origin⟩ := effect.made id old isMade input member
      exact ⟨Nat.lt_succ_of_lt inputBelow, origin⟩
    · have member : input ∈ ((s.heap.add node).node id).input_values := member
      rw [isNew below old, Heap.add_node_self, reads] at member
      obtain rfl := List.mem_singleton.mp member
      exact ⟨Nat.lt_succ_of_lt (Nat.lt_of_lt_of_le argBelow effect.sizes),
        known.imp_right .inr⟩
  case entries =>
    intro output t recorded
    refine (effect.entries output t recorded).imp_right fun pending => ?_
    obtain ⟨above, below, ⟨order, isTranspose⟩, pending⟩ := pending
    refine ⟨above, Nat.lt_succ_of_lt below, ⟨order, isTranspose.add below⟩,
      pending.imp_right fun unread => ⟨?_, unread.2⟩⟩
    intro reader readerBelow input member
    by_cases old : reader < s.heap.size
    · exact unread.1 reader old input (isOld old ▸ member)
    · have member : input ∈ ((s.heap.add node).node reader).input_values :=
        member
      rw [isNew readerBelow old, Heap.add_node_self, reads] at member
      obtain rfl := List.mem_singleton.mp member
      exact Nat.ne_of_lt (Nat.lt_of_lt_of_le argBelow above)
  case deleted =>
    intro t isDeleted
    refine (effect.deleted t isDeleted).imp_right fun marked =>
      marked.imp_right fun isMade => ?_
    obtain ⟨above, below, order, isTranspose⟩ := isMade
    exact ⟨above, Nat.lt_succ_of_lt below, order, isTranspose.add below⟩

omit before in
/-- A new transpose that nothing reads is recorded for an output of the node. -/
theorem Effect.writeNew {i : Nat} {order : List Nat}
    (above : state.heap.size ≤ t) (below : t < s.heap.size)
    (isTranspose : IsTranspose s.heap t order) (unread : Unread s.heap t)
    (nodeBelow : n < state.heap.size) :
    Effect state (writeTransposemap s ⟨n, i⟩ t) n n where
  sizes := effect.sizes
  ops := effect.ops
  shapes := effect.shapes
  inputs := effect.inputs
  made := effect.made
  replacementBelow := effect.replacementBelow
  replacementNew := effect.replacementNew
  reorders := by
    intro output outputBelow different
    have notHere : output ≠ ⟨n, i⟩ :=
      fun same => different (congrArg Output.node same)
    exact (writeTransposemap_ne notHere).trans
      (effect.reorders output outputBelow different)
  entries := by
    intro output t' recorded
    by_cases here : output = ⟨n, i⟩
    · subst here
      obtain rfl := Option.some.inj (writeTransposemap_self.symm.trans recorded)
      exact .inr ⟨above, below, ⟨order, isTranspose⟩, .inr ⟨unread,
        Nat.ne_of_gt (Nat.lt_of_lt_of_le nodeBelow above)⟩⟩
    · exact effect.entries output t'
        ((writeTransposemap_ne here).symm.trans recorded)
  deleted := effect.deleted
  kept := effect.kept

omit before in
/-- An input of the node is read at a new node that is recorded for nothing. -/
theorem Effect.replaceSource {i id : Nat} (above : state.heap.size ≤ id)
    (below : id < s.heap.size)
    (notEntry : ∀ output, s.reorders output ≠ some id)
    (nodeBelow : n < state.heap.size) :
    Effect state { s with heap := s.heap.replace_source_output n i ⟨id, 0⟩ } n
      n := by
  have differentNode : ∀ {t}, state.heap.size ≤ t → t ≠ n :=
    fun above => Nat.ne_of_gt (Nat.lt_of_lt_of_le nodeBelow above)
  have others : ∀ {m}, m ≠ n →
      (s.heap.replace_source_output n i ⟨id, 0⟩).node m = s.heap.node m :=
    fun different => Heap.set_node_ne different
  have itself : (s.heap.replace_source_output n i ⟨id, 0⟩).node n =
      { s.heap.node n with input_values :=
        (s.heap.node n).input_values.set i ⟨id, 0⟩ } :=
    Heap.set_node_self
  have stays : ∀ {t order}, state.heap.size ≤ t → IsTranspose s.heap t order →
      IsTranspose (s.heap.replace_source_output n i ⟨id, 0⟩) t order := by
    intro t order tAbove isTranspose
    rw [IsTranspose, others (differentNode tAbove)]
    exact isTranspose
  refine ⟨effect.sizes, ?ops, ?shapes, ?inputs, ?made,
    effect.replacementBelow, .inl rfl, effect.reorders, ?entries, ?deleted,
    effect.kept⟩
  case ops =>
    intro m mBelow
    refine Eq.trans ?_ (effect.ops m mBelow)
    by_cases same : m = n
    · rw [same, itself]
    · rw [others same]
  case shapes =>
    intro m mBelow
    refine Eq.trans ?_ (effect.shapes m mBelow)
    by_cases same : m = n
    · rw [same, itself]
    · rw [others same]
  case inputs =>
    intro m mBelow different
    rw [others different]
    exact effect.inputs m mBelow different
  case made =>
    intro m mBelow isMade input member
    by_cases same : m = n
    · rw [same, itself] at member
      cases List.mem_or_eq_of_mem_set member with
      | inl member =>
          exact effect.made n (Nat.lt_of_lt_of_le nodeBelow effect.sizes)
            (.inl rfl) input member
      | inr isNew =>
          subst isNew
          exact ⟨below, .inr (.inl above)⟩
    · rw [others same] at member
      exact effect.made m mBelow isMade input member
  case entries =>
    intro output t recorded
    refine (effect.entries output t recorded).imp_right fun pending => ?_
    obtain ⟨tAbove, tBelow, ⟨order, isTranspose⟩, pending⟩ := pending
    refine ⟨tAbove, tBelow, ⟨order, stays tAbove isTranspose⟩,
      pending.imp_right fun unread => ⟨?_, unread.2⟩⟩
    intro reader readerBelow input member
    by_cases same : reader = n
    · rw [same, itself] at member
      cases List.mem_or_eq_of_mem_set member with
      | inl member =>
          exact unread.1 n (Nat.lt_of_lt_of_le nodeBelow effect.sizes)
            input member
      | inr isNew =>
          subst isNew
          intro isEntry
          have isEntry : id = t := isEntry
          exact notEntry output (isEntry ▸ recorded)
    · rw [others same] at member
      exact unread.1 reader readerBelow input member
  case deleted =>
    intro t isDeleted
    refine (effect.deleted t isDeleted).imp_right fun marked =>
      marked.imp_right fun isMade => ?_
    obtain ⟨tAbove, tBelow, order, isTranspose⟩ := isMade
    exact ⟨tAbove, tBelow, order, stays tAbove isTranspose⟩

end Made

theorem unread_add {heap : Heap} {node : Node}
    (below : ∀ id < heap.size, ∀ input ∈ (heap.node id).input_values,
      input.node < heap.size)
    (reads : ∀ input ∈ node.input_values, input.node < heap.size) :
    Unread (heap.add node) heap.size := by
  intro reader readerBelow input member
  by_cases old : reader < heap.size
  · rw [Heap.add_node old] at member
    exact Nat.ne_of_lt (below reader old input member)
  · have same : reader = heap.size := by
      have readerBelow : reader < heap.size + 1 := readerBelow
      omega
    rw [same, Heap.add_node_self] at member
    exact Nat.ne_of_lt (reads input member)

/-- An output of the node gets a default transpose. -/
theorem Effect.writeDefault (effect : Effect state s n n)
    (before : ∀ id < state.heap.size,
      ∀ input ∈ (state.heap.node id).input_values,
      input.node < state.heap.size) (nodeBelow : n < state.heap.size)
    (i : Nat) :
    Effect state (writeTransposemap { s with
      heap := s.heap.add
        (s.heap.transposeOf ⟨n, i⟩
          (getDefaultOrder (s.heap.get_shape ⟨n, i⟩))) }
      ⟨n, i⟩ s.heap.size) n n := by
  have nodeBelowNew := Nat.lt_of_lt_of_le nodeBelow effect.sizes
  have added := @Effect.add _ _ _ effect before nodeBelow
    (s.heap.transposeOf ⟨n, i⟩ (getDefaultOrder (s.heap.get_shape ⟨n, i⟩)))
    ⟨n, i⟩ rfl (.inl rfl)
  refine added.writeNew effect.sizes (Nat.lt_succ_self _)
    (isTranspose_add (isOrder_range _) nodeBelowNew) ?_ nodeBelow
  refine unread_add (fun id below input => effect.inputsBelow before below)
    fun input member => ?_
  obtain rfl := List.mem_singleton.mp member
  exact nodeBelowNew

section Bounds

variable {replacement : Nat} (effect : Effect state s n replacement)

include effect

theorem Effect.entryBelow
    (before : ∀ output t, state.reorders output = some t → t < state.heap.size)
    {output : Output} (recorded : s.reorders output = some t) :
    t < s.heap.size := by
  cases effect.entries output t recorded with
  | inl old =>
      obtain ⟨old, recorded⟩ := old
      exact Nat.lt_of_lt_of_le (before old t recorded) effect.sizes
  | inr isNew => exact isNew.2.1

theorem Effect.deletedBelow
    (before : ∀ output t, state.reorders output = some t → t < state.heap.size)
    (deletedBefore : ∀ t ∈ state.transposes_to_delete, t < state.heap.size)
    (isDeleted : t ∈ s.transposes_to_delete) : t < s.heap.size := by
  obtain isOld | ⟨old, recorded⟩ | isNew := effect.deleted t isDeleted
  · exact Nat.lt_of_lt_of_le (deletedBefore t isOld) effect.sizes
  · exact Nat.lt_of_lt_of_le (before old t recorded) effect.sizes
  · exact isNew.2.1

end Bounds

end Parts

section Materialize

variable {state s : State} {n : Nat}

/-- An input is read in its order: it is in default order, or a transpose that
stays is read. -/
def Materialized (state s : State) (n j : Nat) (input : Output) : Prop :=
  ∃ t order, state.reorders input = some t ∧
    (state.heap.node t).op = .Transpose order ∧
    ((order = getDefaultOrder (state.heap.get_shape input) ∧
      (s.heap.node n).input_values[j]? = some input) ∨
    ∃ id shapes, (s.heap.node n).input_values[j]? = some ⟨id, 0⟩ ∧
    state.heap.size ≤ id ∧
      id < s.heap.size ∧ s.heap.node id = ⟨.Transpose order, [input], shapes⟩ ∧
      id ∉ s.transposes_to_delete)

/-- What the inputs of a node from one place on make of a state. -/
structure Materializes (state s after : State) (n i : Nat) : Prop where
  effect : Effect state after n n
  reorders : after.reorders = s.reorders
  original : after.orig_result_out_shape = s.orig_result_out_shape
  sizes : s.heap.size ≤ after.heap.size
  nodes : ∀ id < s.heap.size, id ≠ n → after.heap.node id = s.heap.node id
  earlier : ∀ j < i, (after.heap.node n).input_values[j]? =
    (s.heap.node n).input_values[j]?
  length : (after.heap.node n).input_values.length =
    (s.heap.node n).input_values.length
  deleted : ∀ t ∈ after.transposes_to_delete, t ∈ s.transposes_to_delete ∨
    t < state.heap.size

section Loop

variable
  (before : ∀ id < state.heap.size, ∀ input ∈ (state.heap.node id).input_values,
    input.node < state.heap.size)
  (entriesBefore : ∀ output t, state.reorders output = some t →
    t < state.heap.size)
  (deletedBefore : ∀ t ∈ state.transposes_to_delete, t < state.heap.size)
  (nodeBelow : n < state.heap.size)

include before entriesBefore deletedBefore nodeBelow

theorem materializeInput_ok {i : Nat} {input : Output} {rank t : Nat}
    {order : List Nat} (pending : Pending state input rank t order)
    (other : input.node ≠ n)
    (isInput : input ∈ (state.heap.node n).input_values)
    (effect : Effect state s n n)
    (here : (s.heap.node n).input_values[i]? = some input) :
    ∃ after, materializeInput n i s = .ok after ∧
      Materializes state s after n i ∧
      (∀ j, i < j → (after.heap.node n).input_values[j]? =
        (s.heap.node n).input_values[j]?) ∧
      Materialized state after n i input := by
  have read : s.heap.input_value n i = input := input_value_of rfl here
  have entry : readTransposemap s input = .ok t :=
    readTransposemap_ok
      ((effect.reorders input pending.outputBelow other).trans pending.entry)
  have isTranspose : (s.heap.node t).op = .Transpose order :=
    (effect.ops t pending.below).trans pending.isTranspose.op
  have shape := effect.get_shape pending.outputBelow
  have marked := effect.mark pending.entry
  have markedDeleted :
      ∀ t', t' ∈ (markTransposeForDeletion s t).transposes_to_delete →
      t' ∈ s.transposes_to_delete ∨ t' < state.heap.size := by
    intro t' isDeleted
    cases List.mem_insert_iff.mp isDeleted with
    | inl same => exact .inr (same ▸ pending.below)
    | inr isDeleted => exact .inl isDeleted
  unfold materializeInput
  simp only [bind, Except.bind, read, entry]
  by_cases default : order = getDefaultOrder (state.heap.get_shape input)
  · have isDefault :
        ¬ (markTransposeForDeletion s t).heap.get_axis_vector_val t ≠
        getDefaultOrder
          ((markTransposeForDeletion s t).heap.get_shape input) := by
      refine not_not_intro ((get_axis_vector_val_eq isTranspose).trans ?_)
      change order = getDefaultOrder (s.heap.get_shape input)
      rw [shape]
      exact default
    rw [if_neg isDefault]
    refine ⟨_, rfl,
      ⟨marked, rfl, rfl, Nat.le_refl _, fun _ _ _ => rfl, fun _ _ => rfl, rfl,
      markedDeleted⟩, fun _ _ => rfl, ?_⟩
    exact ⟨t, order, pending.entry, pending.isTranspose.op,
      .inl ⟨default, here⟩⟩
  · have notDefault :
        (markTransposeForDeletion s t).heap.get_axis_vector_val t ≠
        getDefaultOrder
          ((markTransposeForDeletion s t).heap.get_shape input) := by
      intro isDefault
      apply default
      rw [← shape]
      exact (get_axis_vector_val_eq isTranspose).symm.trans isDefault
    have first := pending.first fun isRange =>
      default (isRange.trans pending.defaultOrder.symm)
    have isOrder : IsOrder order (s.heap.get_shape input).length := by
      rw [shape, pending.stored]
      exact pending.isOrder
    have inserted : insertTranspose (markTransposeForDeletion s t).heap n t i =
        .ok ((s.heap.add
        (s.heap.transposeOf input order)).replace_source_output n i
        ⟨s.heap.size, 0⟩) := by
      change insertTranspose s.heap n t i = _
      unfold insertTranspose
      simp only [bind, Except.bind, read, first,
        get_axis_vector_val_eq isTranspose, Heap.makeTranspose_ok isOrder]
    rw [if_pos notDefault, inserted]
    have nodeBelowNew := Nat.lt_of_lt_of_le nodeBelow effect.sizes
    have notEntry : ∀ output, s.reorders output ≠ some s.heap.size :=
      fun output recorded =>
      absurd (effect.entryBelow entriesBefore recorded) (Nat.lt_irrefl _)
    have added := @Effect.add _ _ _ marked before nodeBelow
      (s.heap.transposeOf input order) input
      rfl (.inr ⟨input, isInput, rfl⟩)
    have replaced :=
      @Effect.replaceSource _ _ _ added i s.heap.size effect.sizes
        (Nat.lt_succ_self _) notEntry nodeBelow
    have others : ∀ id < s.heap.size, id ≠ n →
        ((s.heap.add (s.heap.transposeOf input
        order)).replace_source_output n i ⟨s.heap.size, 0⟩).node id =
        s.heap.node id :=
      fun id below different => (Heap.set_node_ne different).trans
        (Heap.add_node below)
    have itself :
        (((s.heap.add (s.heap.transposeOf input order)).replace_source_output n
            i
        ⟨s.heap.size, 0⟩).node n).input_values =
          (s.heap.node n).input_values.set i ⟨s.heap.size, 0⟩ := by
      refine (congrArg Node.input_values Heap.set_node_self).trans ?_
      rw [Heap.add_node nodeBelowNew]
    refine ⟨_, rfl,
      ⟨replaced, rfl, rfl, Nat.le_succ _, others, fun j earlier => ?_, ?_,
      markedDeleted⟩, fun j later => ?_, ?_⟩
    · exact (congrArg (·[j]?) itself).trans
        (List.getElem?_set_ne (Nat.ne_of_gt earlier))
    · exact (congrArg List.length itself).trans List.length_set
    · exact (congrArg (·[j]?) itself).trans
        (List.getElem?_set_ne (Nat.ne_of_lt later))
    · have bound := (List.getElem?_eq_some_iff.mp here).1
      refine ⟨t, order, pending.entry, pending.isTranspose.op,
        .inr ⟨s.heap.size, _,
          (congrArg (·[i]?) itself).trans (List.getElem?_set_self bound),
          effect.sizes,
        Nat.lt_succ_self _, (Heap.set_node_ne (Nat.ne_of_gt nodeBelowNew)).trans
          Heap.add_node_self, ?_⟩⟩
      intro isDeleted
      cases markedDeleted _ isDeleted with
      | inl isDeleted =>
          exact absurd (effect.deletedBelow entriesBefore deletedBefore
              isDeleted) (Nat.lt_irrefl _)
      | inr below => exact absurd below (Nat.not_lt.mpr effect.sizes)

/-- The loop over the inputs, from place `i` on. -/
theorem materializeInputs_ok {inputs : List Output}
    (pendings : ∀ input ∈ inputs, input ∈ (state.heap.node n).input_values ∧
      input.node ≠ n ∧
      ∃ rank t order, Pending state input rank t order)
    {count i : Nat} (bound : i + count = inputs.length)
    (effect : Effect state s n n)
    (remaining : ∀ j, i ≤ j → (s.heap.node n).input_values[j]? = inputs[j]?) :
    ∃ after, materializeInputs n count i s = .ok after ∧
      Materializes state s after n i ∧
      ∀ j input, i ≤ j → inputs[j]? = some input →
      Materialized state after n j input := by
  induction count generalizing i s with
  | zero =>
      refine ⟨s, rfl,
        ⟨effect, rfl, rfl, Nat.le_refl _, fun _ _ _ => rfl, fun _ _ => rfl, rfl,
        fun _ isDeleted => .inl isDeleted⟩, fun j input above here => ?_⟩
      have below := (List.getElem?_eq_some_iff.mp here).1
      omega
  | succ count ih =>
      have iBound : i < inputs.length := by omega
      have here := remaining i (Nat.le_refl _)
      rw [List.getElem?_eq_getElem iBound] at here
      obtain ⟨isInput, other, rank, t, order, pending⟩ :=
        pendings inputs[i] (List.getElem_mem iBound)
      obtain ⟨mid, success, step, later, materialized⟩ :=
        materializeInput_ok before entriesBefore
          deletedBefore nodeBelow pending other isInput effect here
      obtain ⟨after, rest, steps, results⟩ :=
        @ih mid (i + 1) (by omega) step.effect
          fun j above =>
            (later j above).trans (remaining j (Nat.le_of_succ_le above))
      refine ⟨after, ?_, ⟨steps.effect, steps.reorders.trans step.reorders,
        steps.original.trans step.original, Nat.le_trans step.sizes steps.sizes,
        fun id below different => ?_, fun j earlier => ?_,
        steps.length.trans step.length,
        fun t isDeleted => ?_⟩, fun j input above atInput => ?_⟩
      · rw [materializeInputs]
        simp only [bind, Except.bind, success]
        exact rest
      · exact (steps.nodes id (Nat.lt_of_lt_of_le below step.sizes)
            different).trans (step.nodes id below different)
      · exact (steps.earlier j (Nat.lt_succ_of_lt earlier)).trans
          (step.earlier j earlier)
      · cases steps.deleted t isDeleted with
        | inl isDeleted => exact step.deleted t isDeleted
        | inr below => exact .inr below
      · by_cases same : j = i
        · subst same
          obtain rfl := Option.some.inj
            ((List.getElem?_eq_getElem iBound).symm.trans atInput)
          obtain ⟨t', order', entry', isTranspose', default | isMade⟩ :=
            materialized
          · exact ⟨t', order', entry', isTranspose', .inl ⟨default.1,
              (steps.earlier j (Nat.lt_succ_self _)).trans default.2⟩⟩
          · obtain ⟨id, shapes, atId, idAbove, idBelow, isNode, notDeleted⟩ :=
              isMade
            have idOther : id ≠ n :=
              Nat.ne_of_gt (Nat.lt_of_lt_of_le nodeBelow idAbove)
            refine ⟨t', order', entry', isTranspose', .inr ⟨id, shapes,
              (steps.earlier j (Nat.lt_succ_self _)).trans atId, idAbove,
              Nat.lt_of_lt_of_le idBelow steps.sizes,
              (steps.nodes id idBelow idOther).trans isNode,
              fun isDeleted => ?_⟩⟩
            cases steps.deleted id isDeleted with
            | inl isDeleted => exact notDeleted isDeleted
            | inr below => exact absurd below (Nat.not_lt.mpr idAbove)
        · exact results j input (by omega) atInput

end Loop

/-- An output has a default transpose behind it. -/
def Defaulted (state s : State) (n i : Nat) : Prop :=
  ∃ t, s.reorders ⟨n, i⟩ = some t ∧ t < s.heap.size ∧ state.heap.size ≤ t ∧
    s.heap.node t =
    ⟨.Transpose (getDefaultOrder (state.heap.get_shape ⟨n, i⟩)), [⟨n, i⟩],
      [state.heap.get_shape ⟨n, i⟩]⟩

/-- The loop over the outputs, from place `i` on. -/
theorem writeDefaults_ok
    (before : ∀ id < state.heap.size,
      ∀ input ∈ (state.heap.node id).input_values,
      input.node < state.heap.size) (nodeBelow : n < state.heap.size)
    {count i : Nat} (effect : Effect state s n n) :
    ∃ after, writeDefaults n count i s = .ok after ∧ Effect state after n n ∧
      s.heap.size ≤ after.heap.size ∧
      (∀ id < s.heap.size, after.heap.node id = s.heap.node id) ∧
      after.orig_result_out_shape = s.orig_result_out_shape ∧
      (∀ j < i, after.reorders ⟨n, j⟩ = s.reorders ⟨n, j⟩) ∧
      ∀ j, i ≤ j → j < i + count → Defaulted state after n j := by
  induction count generalizing i s with
  | zero =>
      exact ⟨s, rfl, effect, Nat.le_refl _, fun _ _ => rfl, rfl, fun _ _ => rfl,
        fun j above below => by omega⟩
  | succ count ih =>
      have shape : s.heap.get_shape ⟨n, i⟩ = state.heap.get_shape ⟨n, i⟩ :=
        effect.get_shape nodeBelow
      have made : createDefaultTranspose s.heap ⟨n, i⟩ =
          .ok (s.heap.size, s.heap.add
          (s.heap.transposeOf ⟨n, i⟩
            (getDefaultOrder (s.heap.get_shape ⟨n, i⟩)))) :=
        Heap.makeTranspose_ok (isOrder_range _)
      obtain ⟨after, rest, result, sizes, nodes, original, earlier, defaults⟩ :=
        @ih _ (i + 1) (effect.writeDefault before nodeBelow i)
      have sizes : s.heap.size + 1 ≤ after.heap.size := sizes
      refine ⟨after, ?_, result, Nat.le_of_succ_le sizes,
        fun id below => ?_, original,
        fun j below => ?_, fun j above below => ?_⟩
      · rw [writeDefaults]
        simp only [bind, Except.bind, made]
        exact rest
      · exact (nodes id (Nat.lt_succ_of_lt below)).trans (Heap.add_node below)
      · refine (earlier j (Nat.lt_succ_of_lt below)).trans
          (writeTransposemap_ne ?_)
        exact fun same => Nat.ne_of_lt below (congrArg Output.index same)
      · by_cases same : j = i
        · subst same
          refine ⟨s.heap.size,
            (earlier j (Nat.lt_succ_self _)).trans writeTransposemap_self,
            sizes, effect.sizes, (nodes _ (Nat.lt_succ_self _)).trans ?_⟩
          refine Heap.add_node_self.trans ?_
          rw [Heap.transposeOf, shape, getDefaultOrder, range_permute]
        · exact defaults j (by omega) (by omega)

/-- A node is a barrier: its inputs are read in their orders, and nothing is
pending behind its outputs. -/
theorem materializeShapes_ok
    (before : ∀ id < state.heap.size,
      ∀ input ∈ (state.heap.node id).input_values,
      input.node < state.heap.size)
    (entriesBefore : ∀ output t, state.reorders output = some t →
      t < state.heap.size)
    (deletedBefore : ∀ t ∈ state.transposes_to_delete, t < state.heap.size)
    (nodeBelow : n < state.heap.size)
    (pendings : ∀ input ∈ (state.heap.node n).input_values, input.node ≠ n ∧
      ∃ rank t order, Pending state input rank t order) :
    ∃ after, materializeShapes n state = .ok after ∧ Effect state after n n ∧
      after.orig_result_out_shape = state.orig_result_out_shape ∧
      (after.heap.node n).input_values.length =
        (state.heap.node n).input_values.length ∧
      (∀ i < (state.heap.node n).output_shapes.length,
        Defaulted state after n i) ∧
      ∀ j input, (state.heap.node n).input_values[j]? = some input →
        Materialized state after n j input := by
  obtain ⟨mid, success, effect, _, nodes, original, _, defaults⟩ :=
    @writeDefaults_ok state state n
      before nodeBelow (state.heap.node n).output_shapes.length 0
      (.refl nodeBelow (before n nodeBelow))
  have sameNode := nodes n nodeBelow
  obtain ⟨after, rest, result, materialized⟩ :=
    @materializeInputs_ok state mid n before
      entriesBefore deletedBefore nodeBelow (state.heap.node n).input_values
      (fun input member => ⟨member, pendings input member⟩)
      (state.heap.node n).input_values.length 0
      (Nat.zero_add _) effect (fun j _ => by rw [sameNode])
  refine ⟨after, ?_, result.effect, result.original.trans original,
    result.length.trans (by rw [sameNode]), fun i bound => ?_,
    fun j input => materialized j input (Nat.zero_le _)⟩
  · unfold materializeShapes
    simp only [bind, Except.bind, success, sameNode]
    exact rest
  · obtain ⟨t, recorded, below, above, isNode⟩ :=
      defaults i (Nat.zero_le _) ((Nat.zero_add _).symm ▸ bound)
    have other : t ≠ n := Nat.ne_of_gt (Nat.lt_of_lt_of_le nodeBelow above)
    exact ⟨t, (congrFun result.reorders _).trans recorded,
      Nat.lt_of_lt_of_le below result.sizes, above,
      (result.nodes t below other).trans isNode⟩

end Materialize

end NGraphBridge.TransposeSinking
