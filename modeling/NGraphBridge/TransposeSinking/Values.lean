import NGraphBridge.TransposeSinking.ConcatValue

/-!
# Values between the steps

Every output that has been gone over has an output that stands for it: what is
computed there, transposed by the pending order, is the value in the original
function.
-/

namespace NGraphBridge.TransposeSinking

open NGraph (Output Shape)
open Tensor Axes

section Evaluates

variable {V : Type} [Inhabited V] {other : Inference}
  {library : Library V other} {known : Output → Option (Tensor V)}
  {deleted : List Nat} {heap : Heap}

theorem exists_values {inputs : List Output}
    (each : ∀ input ∈ inputs, ∃ value,
      Evaluates library known deleted heap input value) :
    ∃ val : Output → Tensor V, ∀ input ∈ inputs,
      Evaluates library known deleted heap input (val input) := by
  classical
  refine ⟨fun input => if found :
    ∃ value, Evaluates library known deleted heap input value then
    found.choose else .ofFn [] fun _ => default, fun input member => ?_⟩
  have found := each input member
  dsimp only
  rw [dif_pos found]
  exact found.choose_spec

/-- A node that is not passed over applies its op to the values of its
inputs. -/
theorem Evaluates.apply_inv {output : Output} {value : Tensor V}
    (evaluates : Evaluates library known deleted heap output value)
    (unknown : known output = none)
    (notDeleted : ¬ (output.node ∈ deleted ∧ output.index = 0)) :
    ∃ (val : Output → Tensor V) (outputs : List (Tensor V)),
      (∀ input ∈ (heap.node output.node).input_values,
        Evaluates library known deleted heap input (val input)) ∧
      (heap.node output.node).op.apply library
        ((heap.node output.node).input_values.map val) =
        some outputs ∧ outputs[output.index]? = some value := by
  cases evaluates with
  | known isKnown => exact absurd (isKnown.symm.trans unknown) (by simp)
  | deleted _ isDeleted => exact absurd ⟨isDeleted, rfl⟩ notDeleted
  | @node _ values outputs _ _ _ lengths args applied picked =>
      have each : ∀ input ∈ (heap.node output.node).input_values,
          ∃ value, Evaluates library known deleted heap input value := by
        intro input member
        obtain ⟨i, atInput⟩ := List.mem_iff_getElem?.mp member
        have bound := (List.getElem?_eq_some_iff.mp atInput).1
        have bound : i < values.length := lengths.symm ▸ bound
        exact ⟨values[i],
          args i input _ atInput (List.getElem?_eq_getElem bound)⟩
      obtain ⟨val, evaluated⟩ := exists_values each
      have sameValues : (heap.node output.node).input_values.map val =
          values := by
        apply List.ext_getElem ((List.length_map val).trans lengths.symm)
        intro i bound valueBound
        have inputBound : i < (heap.node output.node).input_values.length :=
          lengths ▸ valueBound
        rw [List.getElem_map]
        exact (evaluated _ (List.getElem_mem inputBound)).unique (args i _ _
          (List.getElem?_eq_getElem inputBound)
          (List.getElem?_eq_getElem valueBound))
      exact ⟨val, outputs, evaluated, sameValues.symm ▸ applied, picked⟩

theorem Evaluates.of_apply {output : Output} {value : Tensor V}
    {val : Output → Tensor V} {outputs : List (Tensor V)}
    (unknown : known output = none)
    (notDeleted : ¬ (output.node ∈ deleted ∧ output.index = 0))
    (args : ∀ input ∈ (heap.node output.node).input_values,
      Evaluates library known deleted heap input (val input))
    (applied : (heap.node output.node).op.apply library
      ((heap.node output.node).input_values.map val) = some outputs)
    (picked : outputs[output.index]? = some value) :
    Evaluates library known deleted heap output value := by
  refine .node unknown notDeleted (List.length_map val) ?_ applied picked
  intro i input arg atInput atValue
  rw [List.getElem?_map, atInput] at atValue
  obtain rfl := Option.some.inj atValue
  exact args input (List.mem_of_getElem? atInput)

theorem Evaluates.cut {known' : Output → Option (Tensor V)} {output : Output}
    {value : Tensor V} (evaluated : ∀ output value, known' output = some value →
      Evaluates library known deleted heap output value)
    (unknown : ∀ output, known' output = none → known output = none)
    (evaluates : Evaluates library known' deleted heap output value) :
    Evaluates library known deleted heap output value := by
  induction evaluates with
  | known isKnown => exact evaluated _ _ isKnown
  | deleted unknown' isDeleted _ ih =>
      exact .deleted (unknown _ unknown') isDeleted ih
  | node unknown' notDeleted lengths _ applied picked ih =>
      exact .node (unknown _ unknown') notDeleted lengths ih applied picked

end Evaluates

section Original

variable {V : Type} {f : Function}

/-- The tensors that are given to the parameters. -/
def given (f : Function) (argument : Nat → Tensor V) (output : Output) :
    Option (Tensor V) :=
  match (f.heap.node output.node).op with
  | .Parameter _ =>
      if output.node < f.heap.size ∧
        output.index = 0 then some (argument output.node) else none
  | _ => none

/-- The parameters are given tensors of their shapes. -/
def Accepts (f : Function) (argument : Nat → Tensor V) : Prop :=
  ∀ n < f.heap.size, ∀ shape, (f.heap.node n).op = .Parameter shape →
    (argument n).shape = shape

variable {argument : Nat → Tensor V} {output : Output} {value : Tensor V}

theorem given_iff : given f argument output = some value ↔
    (∃ shape, (f.heap.node output.node).op = .Parameter shape) ∧
      output.node < f.heap.size ∧
      output.index = 0 ∧ argument output.node = value := by
  unfold given
  cases op : (f.heap.node output.node).op with
  | Parameter shape => simp [and_assoc]
  | _ => simp

theorem given_none {op : Op} (isOp : (f.heap.node output.node).op = op)
    (other : ∀ shape, op ≠ .Parameter shape) :
    given f argument output = none := by
  apply Option.eq_none_iff_forall_ne_some.mpr
  intro value isGiven
  obtain ⟨⟨shape, isParameter⟩, _⟩ := given_iff.mp isGiven
  exact other shape (isOp.symm.trans isParameter)

theorem given_new (above : f.heap.size ≤ output.node) :
    given f argument output = none := by
  apply Option.eq_none_iff_forall_ne_some.mpr
  intro value isGiven
  exact absurd (given_iff.mp isGiven).2.1 (Nat.not_lt.mpr above)

variable [Inhabited V] {other : Inference} {library : Library V other}

theorem apply_parameter {shape : Shape} {values : List (Tensor V)} :
    Op.apply library (.Parameter shape) values = none := by
  cases values <;> rfl

theorem apply_label {shape : Shape} {values : List (Tensor V)} :
    Op.apply library (.Label shape) values = none := by
  cases values <;> rfl

theorem infer_of_apply {op : Op} {values outputs : List (Tensor V)}
    (applied : op.apply library values = some outputs) :
    infer other op (values.map Tensor.shape) =
      some (outputs.map Tensor.shape) := by
  have notParameter : ∀ shape, op ≠ .Parameter shape := by
    rintro shape rfl
    exact absurd (apply_parameter.symm.trans applied) (by simp)
  have notLabel : ∀ shape, op ≠ .Label shape := by
    rintro shape rfl
    exact absurd (apply_label.symm.trans applied) (by simp)
  rw [← @apply_shapes V _ other library op notParameter notLabel, applied,
    Option.map_some]

theorem infer_parameter {shape : Shape} {shapes outs : List Shape}
    (inferred : infer other (.Parameter shape) shapes = some outs) :
    shapes = [] ∧ outs = [shape] := by
  cases shapes with
  | nil => exact ⟨rfl, (Option.some.inj inferred).symm⟩
  | cons _ _ => exact absurd inferred (by simp [infer])

theorem WellFormed.parameter (wellFormed : WellFormed other f) {n : Nat}
    (below : n < f.heap.size) {shape : Shape}
    (op : (f.heap.node n).op = .Parameter shape) :
    (f.heap.node n).input_values = [] ∧
    (f.heap.node n).output_shapes = [shape] := by
  have inferred := wellFormed.inferred n ((wellFormed.ops n).mpr below)
  rw [op] at inferred
  obtain ⟨noInput, outs⟩ := infer_parameter inferred
  exact ⟨List.map_eq_nil_iff.mp noInput, outs⟩

section Shapes

variable (wellFormed : WellFormed other f) (accepts : Accepts f argument)

include wellFormed accepts

/-- The values have the shapes that are inferred. -/
theorem WellFormed.value_shape (below : output.node < f.heap.size)
    (evaluates : Evaluates library (given f argument) [] f.heap output value) :
    (f.heap.node output.node).output_shapes[output.index]? =
      some value.shape := by
  induction evaluates with
  | @known output value isKnown =>
      obtain ⟨⟨shape, op⟩, _, first, rfl⟩ := given_iff.mp isKnown
      rw [(wellFormed.parameter below op).2, first, accepts _ below shape op]
      rfl
  | deleted _ isDeleted => exact absurd isDeleted List.not_mem_nil
  | @node output values outputs _ _ _ lengths args applied picked ih =>
      have isOp := (wellFormed.ops output.node).mpr below
      have shapes : values.map Tensor.shape =
          (f.heap.node output.node).input_values.map f.heap.get_shape := by
        apply List.ext_getElem
        · rw [List.length_map, List.length_map, lengths]
        · intro i bound inputBound
          rw [List.length_map] at bound inputBound
          have here := ih i _ _ (List.getElem?_eq_getElem inputBound)
            (List.getElem?_eq_getElem bound)
            (wellFormed.inputsBelow isOp (List.getElem_mem inputBound))
          rw [List.getElem_map, List.getElem_map, Heap.get_shape,
            List.getD_eq_getElem?_getD, here, Option.getD_some]
      have inferred := infer_of_apply applied
      rw [shapes, wellFormed.inferred output.node isOp,
        Option.some.injEq] at inferred
      rw [inferred, List.getElem?_map, picked, Option.map_some]

theorem WellFormed.value_get_shape (below : output.node < f.heap.size)
    (evaluates : Evaluates library (given f argument) [] f.heap output value) :
    value.shape = f.heap.get_shape output := by
  rw [Heap.get_shape, List.getD_eq_getElem?_getD,
    wellFormed.value_shape accepts below evaluates, Option.getD_some]

/-- Every output has a value. -/
theorem WellFormed.evaluates {n i : Nat} (below : n < f.heap.size)
    (bound : i < (f.heap.node n).output_shapes.length) :
    ∃ value, Evaluates library (given f argument) [] f.heap ⟨n, i⟩ value := by
  generalize place : f.ops.idxOf n = k
  induction k using Nat.strongRecOn generalizing n i with
  | ind k ih =>
      have isOp := (wellFormed.ops n).mpr below
      by_cases isParameter : ∃ shape, (f.heap.node n).op = .Parameter shape
      · obtain ⟨shape, op⟩ := isParameter
        rw [(wellFormed.parameter below op).2, List.length_singleton,
          Nat.lt_one_iff] at bound
        exact ⟨_, .known (given_iff.mpr ⟨⟨shape, op⟩, below, bound, rfl⟩)⟩
      · have notParameter : ∀ shape, (f.heap.node n).op ≠ .Parameter shape :=
          fun shape op => isParameter ⟨shape, op⟩
        obtain ⟨val, args⟩ := exists_values fun input member => by
          obtain ⟨earlier, inputBound⟩ := wellFormed.ordered n isOp input member
          exact ih _ (place ▸ earlier) (wellFormed.inputsBelow isOp member)
            inputBound rfl
        have shapes : ((f.heap.node n).input_values.map val).map Tensor.shape =
            (f.heap.node n).input_values.map f.heap.get_shape := by
          rw [List.map_map]
          apply List.map_congr_left
          intro input member
          exact wellFormed.value_get_shape accepts
            (wellFormed.inputsBelow isOp member) (args input member)
        have inferred :=
          @apply_shapes V _ other library _ notParameter
            (wellFormed.noLabel n isOp) ((f.heap.node n).input_values.map val)
        rw [shapes, wellFormed.inferred n isOp,
          Option.map_eq_some_iff] at inferred
        obtain ⟨outputs, applied, outs⟩ := inferred
        have bound : i < outputs.length := by
          rwa [← outs, List.length_map] at bound
        exact ⟨outputs[i], .of_apply (given_none rfl notParameter)
          (fun both => List.not_mem_nil both.1) args applied
          (List.getElem?_eq_getElem bound)⟩

end Shapes

end Original

section Step

variable {V : Type} [Inhabited V] {other : Inference}
  {library : Library V other} {known : Output → Option (Tensor V)}
  {f : Function} {n replacement : Nat} {todo : List Nat} {current : Nat → Nat}
  {state after : State}

theorem Effect.marked_unread (effect : Effect state after n replacement)
    (inv : Inv f (n :: todo) current state) {t : Nat}
    (below : t < state.heap.size) (isMarked : t ∈ after.transposes_to_delete)
    (notBefore : t ∉ state.transposes_to_delete) :
    Unread state.heap t ∧ ∀ m < f.heap.size, current m ≠ t := by
  obtain before | ⟨old, isEntry⟩ | ⟨isNew, _⟩ := effect.deleted t isMarked
  · exact absurd before notBefore
  · obtain ⟨_, _, _, isDeleted | unread⟩ := inv.entries old t isEntry
    · exact absurd isDeleted notBefore
    · exact unread
  · exact absurd below (Nat.not_lt.mpr isNew)

/-- What has been gone over keeps its values. -/
theorem Effect.evaluates (effect : Effect state after n replacement)
    (inv : Inv f (n :: todo) current state) {m i : Nat}
    (below : m < f.heap.size) (isDone : m ∉ n :: todo) {value : Tensor V}
    (evaluates : Evaluates library known state.transposes_to_delete state.heap
      ⟨current m, i⟩ value) :
    Evaluates library known after.transposes_to_delete after.heap
      ⟨current m, i⟩ value := by
  refine @Evaluates.transport V _ other library known
    _ _ (fun id => id < state.heap.size ∧
    id ∉ n :: todo ∧
    (id ∈ after.transposes_to_delete → id ∈ state.transposes_to_delete)) _ _
    ?closed ?reads ?ops ?inputs ?deleted _ _ ?here evaluates
  case closed =>
    intro id settled input member
    obtain ⟨idBelow, idDone, _⟩ := settled
    have inputBelow := inv.inputsBelow id idBelow input member
    refine ⟨inputBelow, inv.closed id idBelow idDone input member,
      fun isMarked => ?_⟩
    apply Classical.byContradiction
    intro notBefore
    obtain ⟨unread, _⟩ := effect.marked_unread inv inputBelow isMarked notBefore
    exact unread id idBelow input member rfl
  case reads =>
    intro id _ isDeleted
    obtain ⟨_, _, order, arg, shape, isNode, _⟩ := inv.deleted id isDeleted
    rw [isNode]
    exact List.cons_ne_nil _ _
  case ops =>
    intro id settled
    exact effect.ops id settled.1
  case inputs =>
    intro id settled
    exact effect.inputs_done inv settled.1 settled.2.1
  case deleted =>
    intro id settled
    exact ⟨settled.2.2, effect.kept id⟩
  case here =>
    refine ⟨inv.below m below, inv.done m below isDone, fun isMarked => ?_⟩
    apply Classical.byContradiction
    intro notBefore
    obtain ⟨_, notCurrent⟩ :=
      effect.marked_unread inv (inv.below m below) isMarked notBefore
    exact notCurrent m below rfl

/-- What an output computes, once it is transposed by the order that is pending
behind it. -/
def Stands (library : Library V other) (known : Output → Option (Tensor V))
    (state : State) (output : Output) (value : Tensor V) : Prop :=
  ∃ t order pending, state.reorders output = some t ∧
    (state.heap.node t).op = .Transpose order ∧
    Evaluates library known state.transposes_to_delete state.heap
      output pending ∧
    IsOrder order pending.rank ∧ pending.transpose order = value

theorem Stands.pending {output : Output} {value : Tensor V}
    (stands : Stands library known state output value) {rank t : Nat}
    {order : List Nat} (pending : Pending state output rank t order) : ∃ tensor,
      Evaluates library known state.transposes_to_delete state.heap
        output tensor ∧
        IsOrder order tensor.rank ∧ tensor.transpose order = value := by
  obtain ⟨t', order', tensor, isEntry, op, evaluates, isOrder, isValue⟩ :=
    stands
  obtain rfl := Option.some.inj (pending.entry.symm.trans isEntry)
  obtain rfl := Op.Transpose.inj (pending.isTranspose.op.symm.trans op)
  exact ⟨tensor, evaluates, isOrder, isValue⟩

/-- What holds between two steps, for tensors that are given to the
parameters. -/
structure Sound (library : Library V other) (f : Function)
    (argument : Nat → Tensor V) (todo : List Nat) (current : Nat → Nat)
    (state : State) : Prop where
  inv : Inv f todo current state
  values : ∀ n < f.heap.size, n ∉ todo →
    ∀ i < (f.heap.node n).output_shapes.length, ∀ value,
    Evaluates library (given f argument) [] f.heap ⟨n, i⟩ value →
      Stands library (given f argument) state ⟨current n, i⟩ value
  results : ∀ n < f.heap.size, n ∉ todo → (f.heap.node n).op = .Result →
    state.orig_result_out_shape n = f.heap.get_shape ⟨n, 0⟩ ∧
    current n = n ∧ ∀ value,
      Evaluates library (given f argument) [] f.heap ⟨n, 0⟩ value →
        Evaluates library (given f argument) state.transposes_to_delete
          state.heap ⟨n, 0⟩ value
  leaves : ∀ n < f.heap.size, (f.heap.node n).input_values = [] →
    (state.heap.node n).input_values = []

variable {argument : Nat → Tensor V}

theorem Sound.init (wellFormed : WellFormed other f) :
    Sound library f argument f.ops id f.init where
  inv := Inv.init wellFormed
  values := fun n below notTodo => absurd ((wellFormed.ops n).mpr below) notTodo
  results := fun n below notTodo =>
    absurd ((wellFormed.ops n).mpr below) notTodo
  leaves := fun _ _ noInput => noInput

theorem Sound.input (sound : Sound library f argument (n :: todo) current state)
    {input : Output} (member : input ∈ (f.heap.node n).input_values)
    {value : Tensor V}
    (evaluates : Evaluates library (given f argument) [] f.heap input value) :
    Stands library (given f argument) state (moved current input) value := by
  obtain ⟨below, done, bound⟩ := sound.inv.inputs member
  exact sound.values input.node below done input.index bound value evaluates

/-- A step over a node, with what stands for its outputs. -/
theorem Sound.step (sound : Sound library f argument (n :: todo) current state)
    (effect : Effect state after n replacement)
    (inv : Inv f todo (Function.update current n replacement) after)
    (original : ∀ m, m ≠ n →
      after.orig_result_out_shape m = state.orig_result_out_shape m)
    (newValue : ∀ i < (f.heap.node n).output_shapes.length, ∀ value,
      Evaluates library (given f argument) [] f.heap ⟨n, i⟩ value →
        Stands library (given f argument) after ⟨replacement, i⟩ value)
    (newResult : (f.heap.node n).op = .Result →
      after.orig_result_out_shape n = f.heap.get_shape ⟨n, 0⟩ ∧
        replacement = n ∧ ∀ value,
        Evaluates library (given f argument) [] f.heap ⟨n, 0⟩ value →
          Evaluates library (given f argument) after.transposes_to_delete
            after.heap ⟨n, 0⟩ value)
    (newLeaf : (f.heap.node n).input_values = [] →
      (after.heap.node n).input_values = []) :
    Sound library f argument todo (Function.update current n replacement)
      after := by
  have notTodo : ∀ {m}, m ∉ todo → m ≠ n → m ∉ n :: todo := by
    intro m notTodo different member
    cases List.mem_cons.mp member with
    | inl same => exact different same
    | inr member => exact notTodo member
  refine ⟨inv, ?values, ?results, ?leaves⟩
  case values =>
    intro m below isDone i bound value evaluates
    by_cases same : m = n
    · subst same
      rw [Function.update_self]
      exact newValue i bound value evaluates
    · rw [Function.update_of_ne same]
      have isDone := notTodo isDone same
      obtain ⟨t, order, pending, isEntry, op, evaluated, isOrder, isValue⟩ :=
        sound.values m below isDone i bound value evaluates
      refine ⟨t, order, pending, ?_, ?_,
        effect.evaluates sound.inv below isDone evaluated, isOrder, isValue⟩
      · rw [effect.reorders _ (sound.inv.below m below)
          (sound.inv.current_ne below same)]
        exact isEntry
      · rw [effect.ops t (sound.inv.entryBelow _ t isEntry)]
        exact op
  case results =>
    intro m below isDone isResult
    by_cases same : m = n
    · subst same
      rw [Function.update_self]
      exact newResult isResult
    · rw [Function.update_of_ne same, original m same]
      have isDone := notTodo isDone same
      obtain ⟨shape, stays, evaluated⟩ := sound.results m below isDone isResult
      refine ⟨shape, stays, fun value evaluates => ?_⟩
      have here := evaluated value evaluates
      rw [← stays] at here ⊢
      exact effect.evaluates sound.inv below isDone here
  case leaves =>
    intro m below noInput
    by_cases same : m = n
    · subst same
      exact newLeaf noInput
    · have stateBelow := Nat.lt_of_lt_of_le below sound.inv.sizes
      rw [effect.inputs m stateBelow same, sound.leaves m below noInput,
        List.map_nil]

end Step

end NGraphBridge.TransposeSinking
