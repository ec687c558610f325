import NGraphBridge.Lib.Postorder
import NGraphBridge.TransposeSinking.Purge
import NGraphBridge.TransposeSinking.Soundness

/-!
# The pass as a whole

After the main loop the marked transposes are purged and all shapes are inferred
again. The results are computed as before if no step goes wrong.
-/

namespace NGraphBridge.TransposeSinking

open NGraph (Output Shape)
open Tensor Axes

section Purge

variable {V : Type} [Inhabited V] {other : Inference}
  {library : Library V other} {known : Output → Option (Tensor V)} {heap : Heap}
  {t : Nat} {rest : List Nat}

/-- Each of these nodes has one input, an older node. -/
def Descends (heap : Heap) (deleted : List Nat) : Prop :=
  ∀ t ∈ deleted, ∃ arg, (heap.node t).input_values = [arg] ∧ arg.node < t

theorem Descends.delete (descends : Descends heap (t :: rest)) :
    Descends (deleteTranspose heap t) rest := by
  intro u member
  obtain ⟨arg, inputs, older⟩ := descends u (List.mem_cons_of_mem t member)
  refine ⟨bypass heap t arg, ?_, ?_⟩
  · rw [deleteTranspose_node, inputs, List.map_singleton]
  · by_cases here : arg = ⟨t, 0⟩
    · obtain ⟨argT, inputsT, olderT⟩ := descends t List.mem_cons_self
      rw [bypass, if_pos here, input_value_of inputsT rfl]
      rw [here] at older
      exact Nat.lt_trans olderT older
    · rw [bypass, if_neg here]
      exact older

/-- A transpose that is passed over may as well be deleted. -/
theorem Evaluates.delete (descends : Descends heap (t :: rest))
    (unknown : known ⟨t, 0⟩ = none) {output : Output} {value : Tensor V}
    (evaluates : Evaluates library known (t :: rest) heap output value) :
    Evaluates library known rest (deleteTranspose heap t) (bypass heap t output)
      value := by
  induction evaluates with
  | known isKnown =>
      have notHere : ∀ {output value}, known output = some value →
          output ≠ ⟨t, 0⟩ := by
        rintro output value isKnown rfl
        exact absurd (isKnown.symm.trans unknown) (by simp)
      rw [bypass, if_neg (notHere isKnown)]
      exact .known isKnown
  | @deleted id value unknown' isDeleted _ ih =>
      obtain ⟨arg, inputs, older⟩ := descends id isDeleted
      rw [input_value_of inputs rfl] at ih
      by_cases here : id = t
      · subst here
        have notHere : arg ≠ ⟨id, 0⟩ :=
          fun same => Nat.ne_of_lt older (congrArg Output.node same)
        rw [bypass, if_neg notHere] at ih
        rw [bypass, if_pos rfl, input_value_of inputs rfl]
        exact ih
      · have notHere : (⟨id, 0⟩ : Output) ≠ ⟨t, 0⟩ :=
          fun same => here (congrArg Output.node same)
        have isRest : id ∈ rest :=
          (List.mem_cons.mp isDeleted).resolve_left here
        have inputs' : ((deleteTranspose heap t).node id).input_values =
            [bypass heap t arg] := by
          rw [deleteTranspose_node, inputs, List.map_singleton]
        rw [bypass, if_neg notHere]
        refine .deleted unknown' isRest ?_
        rw [input_value_of inputs' rfl]
        exact ih
  | @node output values outputs _ unknown' notDeleted lengths _ applied
    picked ih =>
      have notHere : output ≠ ⟨t, 0⟩ := by
        rintro rfl
        exact notDeleted ⟨List.mem_cons_self, rfl⟩
      rw [bypass, if_neg notHere]
      refine .node unknown'
        (fun both => notDeleted ⟨List.mem_cons_of_mem t both.1, both.2⟩) ?_ ?_
        applied picked
      · rw [deleteTranspose_node, List.length_map]
        exact lengths
      · intro i input arg atInput atValue
        rw [deleteTranspose_node, List.getElem?_map] at atInput
        obtain ⟨source, atSource, rfl⟩ := Option.map_eq_some_iff.mp atInput
        exact ih i source arg atSource atValue

theorem Evaluates.purge {order : List Nat} (descends : Descends heap order)
    (unknown : ∀ t ∈ order, known ⟨t, 0⟩ = none) {output : Output}
    {value : Tensor V} (stays : output.node ∉ order)
    (evaluates : Evaluates library known order heap output value) :
    Evaluates library known
      [] (TransposeSinking.purge order heap) output value := by
  induction order generalizing heap with
  | nil => exact evaluates
  | cons t order ih =>
      have here := evaluates.delete descends (unknown t List.mem_cons_self)
      have notHere : output ≠ ⟨t, 0⟩ :=
        fun same => stays (same ▸ List.mem_cons_self)
      rw [bypass, if_neg notHere] at here
      exact ih descends.delete
        (fun u member => unknown u (List.mem_cons_of_mem t member))
        (fun member => stays (List.mem_cons_of_mem t member)) here

theorem Evaluates.same_deleted {deleted order : List Nat}
    (descends : Descends heap deleted) (members : ∀ t, t ∈ order ↔ t ∈ deleted)
    {output : Output} {value : Tensor V}
    (evaluates : Evaluates library known deleted heap output value) :
    Evaluates library known order heap output value := by
  refine @Evaluates.transport V _ other library known _ _ (fun _ => True)
    _ _ (fun _ _ _ _ => trivial)
    ?_ (fun _ _ => rfl) (fun _ _ => rfl) (fun id _ => members id)
    _ _ trivial evaluates
  intro id _ isDeleted
  obtain ⟨arg, inputs, _⟩ := descends id isDeleted
  rw [inputs]
  exact List.cons_ne_nil _ _

theorem purge_op {order : List Nat} {id : Nat} :
    ((TransposeSinking.purge order heap).node id).op = (heap.node id).op := by
  induction order generalizing heap with
  | nil => rfl
  | cons t order ih => exact ih

theorem purge_leaf {order : List Nat} {id : Nat}
    (noInput : (heap.node id).input_values = []) :
    ((TransposeSinking.purge order heap).node id).input_values = [] := by
  induction order generalizing heap with
  | nil => exact noInput
  | cons t order ih =>
      apply ih
      rw [deleteTranspose_node, noInput]
      rfl

end Purge

/-- The nodes that `get_ordered_ops` starts from. -/
def Function.roots (f : Function) : List Nat :=
  f.results ++ f.ops.filter fun n => match (f.heap.node n).op with
    | .Parameter _ => true
    | _ => false

/-- The nodes that the roots are computed from, each behind its inputs. -/
structure TopologicalOrder (heap : Heap) (roots ops : List Nat) : Prop where
  complete : ∀ r ∈ roots, r ∈ ops
  reached : ∀ n ∈ ops, ∃ r ∈ roots, Relation.ReflTransGen heap.Feeds n r
  inputs : ∀ earlier n rest, ops = earlier ++ n :: rest →
    ∀ input ∈ (heap.node n).input_values, input.node ∈ earlier

theorem mem_roots {f : Function} {n : Nat} (isRoot : n ∈ f.roots) :
    n ∈ f.results ∨ n ∈ f.ops ∧
    ∃ shape, (f.heap.node n).op = .Parameter shape := by
  cases List.mem_append.mp isRoot with
  | inl isResult => exact .inl isResult
  | inr isParameter =>
      obtain ⟨isOp, isParameter⟩ := List.mem_filter.mp isParameter
      refine .inr ⟨isOp, ?_⟩
      split at isParameter
      · next shape op => exact ⟨shape, op⟩
      · exact absurd isParameter (by simp)

section Revalidate

variable {V : Type} [Inhabited V] {other : Inference}
  {library : Library V other} {f : Function} {argument : Nat → Tensor V}
  {heap after : Heap}

/-- The parameters are left as they are. -/
def KeepsParameters (f : Function) (heap : Heap) : Prop :=
  ∀ n < f.heap.size, ∀ shape, (f.heap.node n).op = .Parameter shape →
    (heap.node n).op = .Parameter shape ∧ (heap.node n).input_values = []

/-- One of the outputs of a node has a value. -/
def HasValue (library : Library V other) (f : Function)
    (argument : Nat → Tensor V) (heap : Heap) (n : Nat) : Prop :=
  ∃ i value, Evaluates library (given f argument) [] heap ⟨n, i⟩ value

theorem Evaluates.accessible (parameters : KeepsParameters f heap)
    {output : Output} {value : Tensor V}
    (evaluates : Evaluates library (given f argument) [] heap output value) :
    Acc heap.Feeds output.node := by
  induction evaluates with
  | known isKnown =>
      obtain ⟨⟨shape, op⟩, below, _⟩ := given_iff.mp isKnown
      refine .intro _ fun producer feeds => ?_
      obtain ⟨input, member, _⟩ := feeds
      rw [(parameters _ below shape op).2] at member
      exact absurd member List.not_mem_nil
  | deleted _ isDeleted => exact absurd isDeleted List.not_mem_nil
  | node _ _ lengths _ _ _ ih =>
      refine .intro _ fun producer feeds => ?_
      obtain ⟨input, member, rfl⟩ := feeds
      obtain ⟨i, atInput⟩ := List.mem_iff_getElem?.mp member
      have bound := (List.getElem?_eq_some_iff.mp atInput).1
      exact ih i input _ atInput
        (List.getElem?_eq_getElem (lengths.symm ▸ bound))

theorem HasValue.feeds (parameters : KeepsParameters f heap)
    {producer reader : Nat} (hasValue : HasValue library f argument heap reader)
    (feeds : heap.Feeds producer reader) :
    HasValue library f argument heap producer := by
  obtain ⟨i, value, evaluates⟩ := hasValue
  obtain ⟨input, member, rfl⟩ := feeds
  cases isGiven : given f argument ⟨reader, i⟩ with
  | some tensor =>
      obtain ⟨⟨shape, op⟩, below, _⟩ := given_iff.mp isGiven
      rw [(parameters _ below shape op).2] at member
      exact absurd member List.not_mem_nil
  | none =>
      obtain ⟨val, _, args, _⟩ :=
        evaluates.apply_inv isGiven fun both => List.not_mem_nil both.1
      exact ⟨input.index, val input, args input member⟩

theorem HasValue.reached (parameters : KeepsParameters f heap) {n r : Nat}
    (path : Relation.ReflTransGen heap.Feeds n r)
    (hasValue : HasValue library f argument heap r) :
    HasValue library f argument heap n := by
  induction path using Relation.ReflTransGen.head_induction_on with
  | refl => exact hasValue
  | head feeds _ ih => exact ih.feeds parameters feeds

/-- The stored shapes of some nodes are those of their values. -/
def ShapesHold (library : Library V other) (f : Function)
    (argument : Nat → Tensor V) (heap after : Heap) (ids : List Nat) : Prop :=
  ∀ n ∈ ids, ∀ i value,
    Evaluates library (given f argument) [] heap ⟨n, i⟩ value →
    after.get_shape ⟨n, i⟩ = value.shape

/-- The shapes of a node with a value are inferred from those of its inputs. -/
theorem HasValue.inferred (parameters : KeepsParameters f heap)
    (accepts : Accepts f argument) {n : Nat}
    (hasValue : HasValue library f argument heap n) {ids : List Nat}
    (shapes : ShapesHold library f argument heap after ids)
    (inputs : ∀ input ∈ (heap.node n).input_values, input.node ∈ ids) :
    ∃ output_shapes,
      infer other (heap.node n).op
        ((heap.node n).input_values.map after.get_shape) =
      some output_shapes ∧ ∀ i value,
        Evaluates library (given f argument) [] heap ⟨n, i⟩ value →
          output_shapes.getD i [] = value.shape := by
  obtain ⟨i, value, evaluates⟩ := hasValue
  cases isGiven : given f argument ⟨n, i⟩ with
  | some tensor =>
      obtain ⟨⟨shape, op⟩, below, _⟩ := given_iff.mp isGiven
      obtain ⟨sameOp, noInput⟩ := parameters n below shape op
      rw [sameOp, noInput]
      refine ⟨[shape], rfl, fun j another evaluates => ?_⟩
      cases isGiven' : given f argument ⟨n, j⟩ with
      | some tensor' =>
          obtain ⟨_, _, first, isArgument⟩ := given_iff.mp isGiven'
          have first : j = 0 := first
          rw [evaluates.unique (.known isGiven'), ← isArgument,
            accepts n below shape op, first]
          rfl
      | none =>
          obtain ⟨_, _, _, applied, _⟩ :=
            evaluates.apply_inv isGiven' fun both => List.not_mem_nil both.1
          rw [sameOp] at applied
          exact absurd (apply_parameter.symm.trans applied) (by simp)
  | none =>
      obtain ⟨val, outputs, args, applied, _⟩ :=
        evaluates.apply_inv isGiven fun both => List.not_mem_nil both.1
      have inferred := infer_of_apply applied
      have argShapes : ((heap.node n).input_values.map val).map Tensor.shape =
          (heap.node n).input_values.map after.get_shape := by
        rw [List.map_map]
        apply List.map_congr_left
        intro input member
        exact (shapes input.node (inputs input member) input.index
            _ (args input member)).symm
      rw [argShapes] at inferred
      refine ⟨_, inferred, fun j another evaluates => ?_⟩
      cases isGiven' : given f argument ⟨n, j⟩ with
      | some tensor' =>
          obtain ⟨⟨shape, op⟩, below, _⟩ := given_iff.mp isGiven'
          rw [(parameters n below shape op).1] at applied
          exact absurd (apply_parameter.symm.trans applied) (by simp)
      | none =>
          obtain ⟨val', outputs', args', applied', picked⟩ :=
            evaluates.apply_inv isGiven' fun both => List.not_mem_nil both.1
          have sameVal :
              (heap.node n).input_values.map val' =
                (heap.node n).input_values.map val := by
            apply List.map_congr_left
            intro input member
            exact (args' input member).unique (args input member)
          have sameOutputs := applied'.symm.trans (sameVal ▸ applied)
          obtain rfl := Option.some.inj sameOutputs
          rw [List.getD_eq_getElem?_getD, List.getElem?_map, picked]
          rfl

/-- Two graphs of the same ops and edges. -/
def SameGraph (heap after : Heap) : Prop :=
  ∀ id, (after.node id).op = (heap.node id).op ∧
    (after.node id).input_values = (heap.node id).input_values

theorem revalidate_ok (parameters : KeepsParameters f heap)
    (accepts : Accepts f argument) {earlier ops : List Nat} {before : Heap}
    (hasValue : ∀ n ∈ ops, HasValue library f argument heap n)
    (inputs : ∀ first n rest, ops = first ++ n :: rest →
      ∀ input ∈ (heap.node n).input_values, input.node ∈ earlier ++ first)
    (same : SameGraph heap before)
    (shapes : ShapesHold library f argument heap before earlier) :
    ∃ after, revalidate other ops before = .ok after ∧ SameGraph heap after ∧
      ShapesHold library f argument heap after (earlier ++ ops) := by
  induction ops generalizing earlier before with
  | nil =>
      rw [List.append_nil]
      exact ⟨before, rfl, same, shapes⟩
  | cons n ops ih =>
      have readsEarlier := inputs [] n ops rfl
      rw [List.append_nil] at readsEarlier
      obtain ⟨output_shapes, inferred, outputs⟩ :=
        (hasValue n List.mem_cons_self).inferred parameters accepts shapes
          readsEarlier
      rw [← (same n).1, ← (same n).2] at inferred
      have changed : SameGraph heap
          (before.set n { before.node n with output_shapes :=
              output_shapes }) := by
        intro id
        by_cases here : id = n
        · rw [here, Heap.set_node_self]
          exact same n
        · rw [Heap.set_node_ne here]
          exact same id
      have shapes' : ShapesHold library f argument heap
          (before.set n { before.node n with output_shapes := output_shapes })
          (earlier ++ [n]) := by
        intro m member i value evaluates
        by_cases here : m = n
        · subst here
          rw [Heap.get_shape, Heap.set_node_self]
          exact outputs i value evaluates
        · have isEarlier : m ∈ earlier := by
            cases List.mem_append.mp member with
            | inl isEarlier => exact isEarlier
            | inr isNode => exact absurd (List.mem_singleton.mp isNode) here
          rw [Heap.get_shape, Heap.set_node_ne here]
          exact shapes m isEarlier i value evaluates
      obtain ⟨after, success, sameAfter, shapesAfter⟩ := ih
        (fun m member => hasValue m (List.mem_cons_of_mem n member))
        (fun first m rest split input member => by
          rw [List.append_assoc]
          exact inputs (n :: first) m rest (congrArg (n :: ·) split) input
            member) changed shapes'
      rw [List.append_assoc] at shapesAfter
      refine ⟨after, ?_, sameAfter, shapesAfter⟩
      rw [revalidate]
      simp only [inferred]
      exact success

theorem checkResults_ok {orig_result_out_shape : Nat → Shape}
    {results : List Nat}
    (shapes : ∀ r ∈ results,
      after.get_shape ⟨r, 0⟩ = after.get_shape (after.input_value r 0) ∧
      after.get_shape ⟨r, 0⟩ = orig_result_out_shape r) :
    checkResults after orig_result_out_shape results = .ok () := by
  induction results with
  | nil => rfl
  | cons r results ih =>
      rw [checkResults, if_pos (shapes r List.mem_cons_self)]
      exact ih fun s member => shapes s (List.mem_cons_of_mem r member)

end Revalidate

/-- What is relied on of the order of addresses and of `get_ordered_ops`. -/
structure Enumeration.Complete (enumeration : Enumeration) (f : Function) :
    Prop where
  address : ∀ deleted t, t ∈ enumeration.address deleted ↔ t ∈ deleted
  get_ordered_ops : ∀ heap, (∀ r ∈ f.roots, Acc heap.Feeds r) →
    TopologicalOrder heap f.roots (enumeration.get_ordered_ops heap)

/-- The results have their values, whatever is given to the parameters. -/
def KeepsResults (other : Inference) (f : Function) (after : Heap) : Prop :=
  ∀ (V : Type) [Inhabited V] (library : Library V other)
    (argument : Nat → Tensor V), Accepts f argument → ∀ r ∈ f.results, ∃ value,
      Evaluates library (given f argument) [] f.heap ⟨r, 0⟩ value ∧
        Evaluates library (given f argument) [] after ⟨r, 0⟩ value

/-- The pass does not throw, and the function that it leaves computes the same
results. -/
def RunsCorrectly (other : Inference) (enumeration : Enumeration)
    (f : Function) : Prop :=
  ∃ after, runOnFunction other enumeration f = .ok after ∧
    KeepsResults other f after

theorem infer_result {other : Inference} {shapes outs : List Shape}
    (inferred : infer other .Result shapes = some outs) :
    ∃ shape, shapes = [shape] ∧ outs = [shape] := by
  cases shapes with
  | nil => exact absurd inferred (by simp [infer])
  | cons shape rest =>
      cases rest with
      | nil => exact ⟨shape, rfl, (Option.some.inj inferred).symm⟩
      | cons _ _ => exact absurd inferred (by simp [infer])

section Run

variable {V : Type} [Inhabited V] {other : Inference}
  {library : Library V other} {f : Function} {argument : Nat → Tensor V}
  {enumeration : Enumeration}

theorem apply_result {values outputs : List (Tensor V)}
    (applied : Op.apply library .Result values = some outputs) :
    ∃ tensor, values = [tensor] ∧ outputs = [tensor] := by
  cases values with
  | nil => exact absurd applied (by simp [Op.apply])
  | cons tensor rest =>
      cases rest with
      | nil => exact ⟨tensor, rfl, (Option.some.inj applied).symm⟩
      | cons _ _ => exact absurd applied (by simp [Op.apply])

theorem Evaluates.result {heap : Heap} {r : Nat} {value : Tensor V}
    (isResult : (heap.node r).op = .Result)
    (unknown : given f argument ⟨r, 0⟩ = none)
    (evaluates : Evaluates library (given f argument) [] heap ⟨r, 0⟩ value) :
    ∃ input, (heap.node r).input_values = [input] ∧
      Evaluates library (given f argument) [] heap input value := by
  obtain ⟨val, outputs, args, applied, picked⟩ :=
    evaluates.apply_inv unknown fun both => List.not_mem_nil both.1
  rw [isResult] at applied
  obtain ⟨tensor, values, rfl⟩ := apply_result applied
  obtain ⟨input, inputs, rfl⟩ := map_singleton values
  obtain rfl := Option.some.inj picked
  exact ⟨input, inputs, args input (by simp [inputs])⟩

theorem SameGraph.evaluates {heap after : Heap} (same : SameGraph heap after)
    {output : Output} {value : Tensor V}
    (evaluates : Evaluates library (given f argument) [] heap output value) :
    Evaluates library (given f argument) [] after output value :=
  @Evaluates.transport V _ other library _ _ _ (fun _ => True)
    _ _ (fun _ _ _ _ => trivial)
    (fun _ _ isDeleted => absurd isDeleted List.not_mem_nil)
    (fun id _ => (same id).1)
    (fun id _ => (same id).2) (fun _ _ => Iff.rfl) _ _ trivial evaluates

/-- After the main loop, the results have their values in the purged graph. -/
theorem Sound.results_purged {current : Nat → Nat} {state : State}
    {order : List Nat} (sound : Sound library f argument [] current state)
    (wellFormed : WellFormed other f) (accepts : Accepts f argument)
    (members : ∀ t, t ∈ order ↔ t ∈ state.transposes_to_delete) {r : Nat}
    (isResult : r ∈ f.results) : ∃ value,
      Evaluates library (given f argument) [] f.heap ⟨r, 0⟩ value ∧
      Evaluates library (given f argument)
      [] (purge order state.heap) ⟨r, 0⟩ value ∧
      state.orig_result_out_shape r = value.shape := by
  have inv := sound.inv
  obtain ⟨isOp, op⟩ := wellFormed.results r isResult
  have below := (wellFormed.ops r).mp isOp
  have inferred := wellFormed.inferred r isOp
  rw [op] at inferred
  obtain ⟨shape, _, outs⟩ := infer_result inferred
  have bound : 0 < (f.heap.node r).output_shapes.length := by
    rw [outs]
    exact Nat.one_pos
  obtain ⟨value, evaluates⟩ := wellFormed.evaluates accepts below bound
  obtain ⟨noted, _, evaluated⟩ := sound.results r below List.not_mem_nil op
  have descends : Descends state.heap state.transposes_to_delete := by
    intro t isDeleted
    obtain ⟨_, _, order, arg, shape, isNode, older, _⟩ :=
      inv.deleted t isDeleted
    exact ⟨arg, by rw [isNode], older⟩
  have above : ∀ t ∈ order, f.heap.size ≤ t :=
    fun t member => (inv.deleted t ((members t).mp member)).2.1
  have notDeleted : r ∉ order :=
    fun member => absurd below (Nat.not_lt.mpr (above r member))
  refine ⟨value, evaluates, ?_,
    noted.trans (wellFormed.value_get_shape accepts below evaluates).symm⟩
  apply Evaluates.purge _ (fun t member => given_new (above t member))
    notDeleted
  · exact (evaluated value evaluates).same_deleted descends members
  · exact fun t member => descends t ((members t).mp member)

theorem runOnFunction_ok (wellFormed : WellFormed other f)
    (complete : enumeration.Complete f) (meets : Along (Meets f) f.ops f.init)
    (accepts : Accepts f argument) :
    ∃ after, runOnFunction other enumeration f = .ok after ∧
      KeepsParameters f after ∧ ∀ r ∈ f.results, ∃ value,
      Evaluates library (given f argument) [] f.heap ⟨r, 0⟩ value ∧
        Evaluates library (given f argument) [] after ⟨r, 0⟩ value := by
  obtain ⟨state, current, looped, sound⟩ :=
    @Sound.sinkNodes V _ other library f argument _ _ _
      wellFormed accepts (Sound.init wellFormed) meets
  have results :=
    fun r isResult => @Sound.results_purged V _ other library f argument
      current state _ sound wellFormed accepts (complete.address _) r isResult
  have parameters : KeepsParameters f
      (purge (enumeration.address state.transposes_to_delete) state.heap) := by
    intro n below shape op
    exact ⟨purge_op.trans ((sound.inv.ops n below).trans op),
      purge_leaf (sound.leaves n below (wellFormed.parameter below op).1)⟩
  have resultOp : ∀ r ∈ f.results,
      ((purge (enumeration.address state.transposes_to_delete) state.heap).node
        r).op = .Result := by
    intro r isResult
    obtain ⟨isOp, op⟩ := wellFormed.results r isResult
    exact purge_op.trans
      ((sound.inv.ops r ((wellFormed.ops r).mp isOp)).trans op)
  generalize isPurged :
      purge (enumeration.address state.transposes_to_delete) state.heap = purged
    at results parameters resultOp
  have rootValue : ∀ r ∈ f.roots, HasValue library f argument purged r := by
    intro r isRoot
    cases mem_roots isRoot with
    | inl isResult =>
        obtain ⟨value, _, evaluates, _⟩ := results r isResult
        exact ⟨0, value, evaluates⟩
    | inr isParameter =>
        obtain ⟨isOp, shape, op⟩ := isParameter
        exact ⟨0, argument r,
          .known
            (given_iff.mpr ⟨⟨shape, op⟩, (wellFormed.ops r).mp isOp, rfl, rfl⟩)⟩
  have ordered := complete.get_ordered_ops purged fun r isRoot => by
    obtain ⟨i, value, evaluates⟩ := rootValue r isRoot
    exact evaluates.accessible parameters
  obtain ⟨after, validated, same, shapes⟩ :=
    @revalidate_ok V _ other library f argument purged
      parameters accepts [] (enumeration.get_ordered_ops purged) purged
      (fun n member => by
        obtain ⟨r, isRoot, path⟩ := ordered.reached n member
        exact (rootValue r isRoot).reached parameters path)
      ordered.inputs (fun _ => ⟨rfl, rfl⟩)
      (fun n member => absurd member List.not_mem_nil)
  have checked : checkResults after state.orig_result_out_shape f.results =
      .ok () := by
    apply checkResults_ok
    intro r isResult
    obtain ⟨value, _, evaluates, noted⟩ := results r isResult
    have isOp := ordered.complete r (List.mem_append_left _ isResult)
    have unknown : given f argument ⟨r, 0⟩ = none :=
      given_none (wellFormed.results r isResult).2 fun _ => Op.noConfusion
    obtain ⟨input, inputs, evaluatesInput⟩ :=
      evaluates.result (resultOp r isResult) unknown
    have read : after.input_value r 0 = input :=
      input_value_of ((same r).2.trans inputs) rfl
    have inputOp : input.node ∈ enumeration.get_ordered_ops purged := by
      obtain ⟨earlier, rest, split⟩ := List.append_of_mem isOp
      have isEarlier :=
        ordered.inputs earlier r rest split input (by simp [inputs])
      rw [split]
      exact List.mem_append_left _ isEarlier
    rw [read, shapes r isOp 0 value evaluates, noted,
      shapes input.node inputOp input.index value evaluatesInput]
    exact ⟨rfl, rfl⟩
  refine ⟨after, ?_, ?_, fun r isResult => ?_⟩
  · unfold runOnFunction
    simp only [bind, Except.bind, looped, isPurged, validated, checked]
  · intro n below shape op
    rw [(same n).1, (same n).2]
    exact parameters n below shape op
  · obtain ⟨value, original, evaluates, _⟩ := results r isResult
    exact ⟨value, original, same.evaluates evaluates⟩

end Run

/-- Tensors without elements to tell apart: only shapes are computed. -/
def Library.units (other : Inference) : Library Unit other where
  unary := fun _ x => x
  binary := fun _ x _ => x
  apply := fun type_name values =>
    (other type_name (values.map Tensor.shape)).map
      (List.map fun shape => .ofFn shape fun _ => ())
  shapes := by
    intro type_name values
    have sameShapes :
        List.map Tensor.shape ∘
          List.map (fun shape => .ofFn shape fun _ => ()) =
        (id : List Shape → List Shape) := by
      funext shapes
      rw [Function.comp_apply, List.map_map]
      exact List.map_id shapes
    rw [Option.map_map, sameShapes, Option.map_id, id]

def unitArgument (f : Function) (n : Nat) : Tensor Unit :=
  .ofFn ((f.heap.node n).output_shapes.headD []) fun _ => ()

/-- The pass does not throw and keeps every result, if no step of the main loop
goes wrong. -/
theorem runOnFunction_correct {other : Inference} {enumeration : Enumeration}
    {f : Function} (wellFormed : WellFormed other f)
    (complete : enumeration.Complete f) (meets : Along (Meets f) f.ops f.init) :
    RunsCorrectly other enumeration f := by
  have accepts : Accepts f (unitArgument f) := by
    intro n below shape op
    rw [unitArgument, (wellFormed.parameter below op).2]
    rfl
  obtain ⟨after, success, _, _⟩ :=
    @runOnFunction_ok Unit _ other (.units other) f _ enumeration
      wellFormed complete meets accepts
  refine ⟨after, success, fun V _ library argument accepts r isResult => ?_⟩
  obtain ⟨after', success', _, results⟩ :=
    @runOnFunction_ok V _ other library f argument
      enumeration wellFormed complete meets accepts
  obtain rfl := Except.ok.inj (success.symm.trans success')
  exact results r isResult

def Heap.sources (heap : Heap) (n : Nat) : List Nat :=
  (heap.node n).input_values.map Output.node

theorem Heap.edge_sources (heap : Heap) :
    Postorder.Edge heap.sources = heap.Feeds := by
  funext producer reader
  exact propext List.mem_map

open Classical in
/-- A walk from the roots: what `get_ordered_ops` returns. -/
noncomputable def postorder (f : Function) : Enumeration where
  address := fun deleted => deleted
  get_ordered_ops := fun heap =>
    if accessible : ∀ r ∈ f.roots, Acc (Postorder.Edge heap.sources) r then
      f.roots.attach.foldl (fun done r =>
        Postorder.visit heap.sources r.1 (accessible r.1 r.2) done) []
    else []

theorem postorder_complete (f : Function) : (postorder f).Complete f where
  address := fun _ _ => Iff.rfl
  get_ordered_ops := by
    intro heap accessible
    rw [← heap.edge_sources] at accessible
    obtain ⟨behind, _, visited, reached⟩ :=
      @Postorder.visits_foldl Nat heap.sources _ Subtype.val
        (fun done r =>
          Postorder.visit heap.sources r.1 (accessible r.1 r.2) done)
        f.roots.attach
        (fun r _ done behind =>
          Postorder.visit_visits (accessible r.1 r.2) behind)
        [] Postorder.behind_nil
    have unfolded :
        (postorder f).get_ordered_ops heap = f.roots.attach.foldl (fun done r =>
        Postorder.visit heap.sources r.1 (accessible r.1 r.2) done) [] := by
      unfold postorder
      simp only [dif_pos accessible]
    rw [unfolded]
    refine ⟨fun r isRoot => visited ⟨r, isRoot⟩ (List.mem_attach _ _),
      fun n member => ?_, ?_⟩
    · cases reached n member with
      | inl before => exact absurd before List.not_mem_nil
      | inr found =>
          obtain ⟨r, _, path⟩ := found
          rw [heap.edge_sources] at path
          exact ⟨r.1, r.2, path⟩
    · intro earlier n rest split input member
      exact behind earlier n rest split input.node (List.mem_map_of_mem member)

/-- A transpose, an op on elements, and the transpose back. -/
def roundTripFunction : Function where
  heap := .ofList [⟨.Parameter [2, 3, 4], [], [[2, 3, 4]]⟩,
    ⟨.Transpose [1, 2, 0], [⟨0, 0⟩], [[3, 4, 2]]⟩,
    ⟨.Unary "Relu", [⟨1, 0⟩], [[3, 4, 2]]⟩, ⟨.Parameter [2], [], [[2]]⟩,
    ⟨.Binary "Add", [⟨2, 0⟩, ⟨3, 0⟩], [[3, 4, 2]]⟩,
    ⟨.Transpose [2, 0, 1], [⟨4, 0⟩], [[2, 3, 4]]⟩,
    ⟨.Result, [⟨5, 0⟩], [[2, 3, 4]]⟩]
  ops := [0, 1, 2, 3, 4, 5, 6]
  results := [6]

theorem roundTripFunction_wellFormed :
    WellFormed (fun _ _ => none) roundTripFunction :=
  .of_range rfl (by decide) (by decide) (by decide) (by decide)

theorem runOnFunction_roundTrip :
    RunsCorrectly (fun _ _ => none) (postorder roundTripFunction)
      roundTripFunction :=
  runOnFunction_correct roundTripFunction_wellFormed (postorder_complete _)
    (by decide)

/-- The entry of the sum is the one of the vector, of a lower rank: it cannot be
done in front of the result. -/
theorem runOnFunction_broadcast :
    WellFormed (fun _ _ => none) broadcastFunction ∧
    (postorder broadcastFunction).Complete broadcastFunction ∧
    ¬ RunsCorrectly (fun _ _ => none) (postorder broadcastFunction)
      broadcastFunction := by
  refine ⟨broadcastFunction_wellFormed, postorder_complete _, ?_⟩
  rintro ⟨after, success, _⟩
  have thrown : sinkNodes broadcastFunction.ops broadcastFunction.init =
      .error .node_validation_failure := by rfl
  unfold runOnFunction at success
  rw [thrown] at success
  exact absurd success (by simp [bind, Except.bind])

end NGraphBridge.TransposeSinking
