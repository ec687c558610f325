import NGraphBridge.Executable.Blobs
import NGraphBridge.NGraph.Inference

/-!
# Hoisted constants and shapes

A function without used parameters gets a parameter in the place of one of its
constants. Its values stay the same, but the shapes that depended on the value
of the constant do not survive the inference of types in the rebuilt function.
-/

namespace NGraphBridge.Executable

open NGraph NGraph.Function

variable {func : Function} {shapes : ShapeInference} {interp : Interpretation}

theorem withUsedParameters_operands (wf : func.WF) {node : Node}
    (member : node ∈ func.ops) :
    (withUsedParameters func).operands node = func.operands node := by
  apply List.map_congr_left
  intro input isInput
  rw [operand, operand, withUsedParameters_source wf member isInput]

theorem documented_used (wf : func.WF) (documented : shapes.Documented func) :
    shapes.Documented (withUsedParameters func) where
  known := by
    intro node member
    have inOps := (withUsedParameters_mem.mp member).1
    rw [withUsedParameters_operands wf inOps]
    exact documented.known node inOps
  value := by
    intro node member
    have inOps := (withUsedParameters_mem.mp member).1
    rw [withUsedParameters_operands wf inOps]
    exact documented.value node inOps
  shape := by
    intro node member
    have inOps := (withUsedParameters_mem.mp member).1
    rw [withUsedParameters_operands wf inOps]
    exact documented.shape node inOps

theorem staysUsed_of_reads {node : Node} (notParam : node.op ≠ .Parameter) :
    staysUsed func node = true := by
  have other : node.is_parameter = false := by
    apply Bool.eq_false_iff.mpr
    exact fun isParam => notParam (is_parameter_iff.mp isParam)
  rw [staysUsed, other]
  rfl

theorem loses_used_iff {constant : Nat} {output : Output} :
    shapes.Loses (withUsedParameters func) constant output ↔
      shapes.Loses func constant output := by
  constructor
  · exact ShapeInference.Loses.mono fun node member _ =>
      (withUsedParameters_mem.mp member).1
  · apply ShapeInference.Loses.mono
    intro node member notParam
    exact withUsedParameters_mem.mpr ⟨member, staysUsed_of_reads notParam⟩

section Hoist

variable {constant : Node} {value : NGraph.Tensor}

/-- What is known of an output of a node once the constant is a parameter. -/
structure Known (shapes : ShapeInference) (func : Function)
    (constant node : Node) (index : Nat) (operand : Operand) : Prop where
  element_type :
    operand.type.element_type = (node.get_output_type index).element_type
  lost : shapes.Loses func constant.id ⟨node.id, index⟩ →
    operand.type.partial_shape = .dynamic
  kept : ¬ shapes.Loses func constant.id ⟨node.id, index⟩ →
    operand.type.partial_shape = (node.get_output_type index).partial_shape
  constant : operand.constant = if node.id = constant.id then none
    else node.as_constant

theorem Known.of_kept {node : Node} {index : Nat} {operand : Operand}
    (kept : ¬ shapes.Loses func constant.id ⟨node.id, index⟩)
    (type : operand.type = node.get_output_type index)
    (same : operand.constant = if node.id = constant.id then none
      else node.as_constant) :
    Known shapes func constant node index operand where
  element_type := by rw [type]
  lost := fun lost => absurd lost kept
  kept := fun _ => by rw [type]
  constant := same

theorem Known.weaker {node : Node} {index : Nat} {operand : Operand}
    (known : Known shapes func constant node index operand) :
    operand.Weaker ⟨node.get_output_type index, node.as_constant⟩ where
  element_type := known.element_type
  shape := by
    by_cases lost : shapes.Loses func constant.id ⟨node.id, index⟩
    · exact .inr (known.lost lost)
    · exact .inl (known.kept lost)
  constant := by
    have isConstant := known.constant
    split at isConstant
    case isTrue => exact .inr isConstant
    case isFalse => exact .inl isConstant

variable (wf : func.WF) (isOp : constant ∈ func.ops)
  (kind : constant.op = .Constant value)

include wf isOp kind

theorem known_constant (index : Nat) (operands : List Operand) :
    Known shapes func constant constant index
      (shapes.infer (hoistNode func constant value constant) operands
        index) := by
  have hoisted : hoistNode func constant value constant =
      hoistedParam func constant value :=
    if_pos (by simp)
  have outputs : (hoistedParam func constant value).outputs =
      constant.outputs :=
    (wf.constants isOp kind).2.symm
  apply Known.of_kept
  · exact ShapeInference.Loses.not_source wf isOp (by simp [kind])
      (by simp [kind])
  · rw [hoisted]
    change (hoistedParam func constant value).get_output_type index = _
    rw [Node.get_output_type, outputs]
    rfl
  · rw [hoisted, if_pos rfl]
    rfl

omit isOp kind in
theorem source_output {node : Node} (member : node ∈ func.ops) {input : Output}
    (isInput : input ∈ node.input_values) :
    (⟨(func.node input.node).id, input.index⟩ : Output) = input :=
  Output.ext (wf.source_mem member isInput).2 rfl

section Operation

variable {node : Node} {type_name : String} {values : Output → Operand}
  {index : Nat} (documented : shapes.Documented func) (member : node ∈ func.ops)
  (isOperation : node.op = .op type_name)
  (inputs : ∀ input ∈ node.input_values,
    Known shapes func constant (func.node input.node)
    input.index (values input)) (inside : index < node.outputs.length)

omit wf isOp kind in
include inputs in
theorem operands_weaker :
    List.Forall₂ Operand.Weaker (node.input_values.map values)
    (func.operands node) := by
  rw [operands, List.forall₂_map_left_iff, List.forall₂_map_right_iff,
    List.forall₂_same]
  exact fun input isInput => (inputs input isInput).weaker

omit isOp kind in
include documented member isOperation inputs inside in
theorem op_lost (lost : shapes.Loses func constant.id ⟨node.id, index⟩) :
    shapes.validate_and_infer_types node.id
      (node.input_values.map values) index =
      ⟨(node.get_output_type index).element_type, .dynamic⟩ := by
  have weaker := operands_weaker inputs
  cases ShapeInference.Loses.of_node wf member lost with
  | inr isResult =>
      rw [isOperation] at isResult
      simp at isResult
  | inl fromInput =>
      obtain ⟨_, _, k, input, reads, either⟩ := fromInput
      have isInput := List.mem_of_getElem? reads
      have source := inputs input isInput
      have atK : (node.input_values.map values)[k]? = some (values input) := by
        rw [List.getElem?_map, reads]
        rfl
      cases either with
      | inl reader =>
          obtain ⟨atConstant, needs⟩ := reader
          apply documented.value node member type_name isOperation _ weaker
            index inside k (values input) atK needs
          have sameId := (wf.source_mem member isInput).2
          rw [source.constant, if_pos (sameId.trans atConstant)]
      | inr follower =>
          obtain ⟨lostInput, needs⟩ := follower
          apply documented.shape node member type_name isOperation _ weaker
            index inside k (values input) atK needs
          exact source.lost ((source_output wf member isInput).symm ▸ lostInput)

omit isOp kind in
include documented member isOperation inputs inside in
theorem op_kept (kept : ¬ shapes.Loses func constant.id ⟨node.id, index⟩) :
    shapes.validate_and_infer_types node.id
      (node.input_values.map values) index =
      node.get_output_type index := by
  apply documented.known node member type_name isOperation
    _ (operands_weaker inputs) index inside
  intro k operand otherOperand atK otherAtK
  rw [List.getElem?_map] at atK
  obtain ⟨input, reads, rfl⟩ := Option.map_eq_some_iff.mp atK
  rw [operands, List.getElem?_map, reads] at otherAtK
  obtain rfl := Option.some.inj otherAtK
  have isInput := List.mem_of_getElem? reads
  have source := inputs input isInput
  constructor
  · intro needs
    have apart : (func.node input.node).id ≠ constant.id := by
      intro atConstant
      apply kept
      apply ShapeInference.Loses.value member isOperation _ needs
      · exact input.index
      · rw [reads, ← atConstant, (wf.source_mem member isInput).2]
    rw [source.constant, if_neg apart]
    rfl
  · intro needs
    apply source.kept
    intro lostInput
    exact kept (.shape member isOperation reads needs
        (source_output wf member isInput ▸ lostInput))

omit isOp kind in
include documented member isOperation inputs inside in
theorem known_op (other : node.id ≠ constant.id) :
    Known shapes func constant node index
    ⟨shapes.validate_and_infer_types node.id (node.input_values.map values)
      index, none⟩ := by
  have noConstant : (none : Option NGraph.Tensor) =
      if node.id = constant.id then none else node.as_constant := by
    rw [if_neg other, Node.as_constant, isOperation]
  by_cases lost : shapes.Loses func constant.id ⟨node.id, index⟩
  · rw [op_lost wf documented member isOperation inputs inside lost]
    exact ⟨rfl, fun _ => rfl, fun kept => absurd lost kept, noConstant⟩
  · have type := op_kept wf documented member isOperation inputs inside lost
    exact .of_kept lost type noConstant

end Operation

/-- A node makes as much known as its operands allow. -/
theorem known_hoistNode (noParams : func.parameters = [])
    (documented : shapes.Documented func) {node : Node}
    (member : node ∈ func.ops) {values : Output → Operand}
    (inputs : ∀ input ∈ node.input_values,
      Known shapes func constant (func.node input.node)
      input.index (values input)) {index : Nat}
    (inside : index < node.outputs.length) :
    Known shapes func constant node index
      (shapes.infer (hoistNode func constant value node)
        (node.input_values.map values) index) := by
  by_cases isHoisted : node.id = constant.id
  · obtain rfl := wf.id_injective member isOp isHoisted
    exact known_constant wf isOp kind index _
  · obtain ⟨sameOp, sameId⟩ :
      (hoistNode func constant value node).op = node.op ∧
        (hoistNode func constant value node).id = node.id :=
      hoistNode_of_ne isHoisted
    unfold ShapeInference.infer
    rw [sameOp, sameId]
    cases nodeKind : node.op with
    | Parameter =>
        have impossible := wf.declared node member nodeKind
        simp [noParams] at impossible
    | Constant other =>
        have outputs := (wf.constants member nodeKind).2
        obtain rfl : index = 0 := by simpa [outputs] using inside
        apply Known.of_kept
        · exact ShapeInference.Loses.not_source wf member (by simp [nodeKind])
            (by simp [nodeKind])
        · simp [Node.get_output_type, outputs]
        · rw [if_neg isHoisted, Node.as_constant, nodeKind]
    | op type_name =>
        exact known_op wf documented member nodeKind inputs inside isHoisted
    | Result =>
        obtain ⟨input, isInput, outputs⟩ := wf.resultInputs member nodeKind
        obtain rfl : index = 0 := by simpa [outputs] using inside
        have fromInput : input ∈ node.input_values := by simp [isInput]
        have source := inputs input fromInput
        have sameOutput := source_output wf member fromInput
        have sameType : node.get_output_type 0 =
            (func.node input.node).get_output_type input.index := by
          rw [Node.get_output_type, outputs]
          rfl
        have loses : shapes.Loses func constant.id ⟨node.id, 0⟩ ↔
            shapes.Loses func constant.id input :=
          ShapeInference.Loses.result_iff wf member nodeKind isInput
        rw [isInput]
        constructor
        case element_type =>
          rw [sameType]
          exact source.element_type
        case lost =>
          intro lost
          exact source.lost (sameOutput.symm ▸ loses.mp lost)
        case kept =>
          intro kept
          rw [sameType]
          exact source.kept (fun lost => kept (loses.mpr (sameOutput ▸ lost)))
        case constant => rw [if_neg isHoisted, Node.as_constant, nodeKind]

/-- What the inference of types finds in the rebuilt function. -/
theorem inferred_hoist (noParams : func.parameters = [])
    (documented : shapes.Documented func) {node : Node}
    (member : node ∈ func.ops) {index : Nat}
    (inside : index < node.outputs.length) :
    Known shapes func constant node index
      (shapes.inferred (hoist func constant value)
      ⟨hoistId func constant node.id, index⟩) := by
  have ordered :
      StraightLine.Ordered shapes.inference []
        (hoist func constant value).ops :=
    ShapeInference.inference_ordered (hoist_wf wf noParams isOp kind)
  have all := @StraightLine.run_induction _ _ _ _ _ _ _ ordered
    (fun _ _ => default)
    (fun id known => ∀ node ∈ func.ops, hoistId func constant node.id = id →
      ∀ index < node.outputs.length,
      Known shapes func constant node index (known index))
    (by simp) ?_ _ (hoist_mem.mpr ⟨node, member, rfl⟩)
  · have here := all node member (hoistNode_id node).symm index inside
    change Known shapes func constant node index
      (shapes.inferred (hoist func constant value)
      ⟨(hoistNode func constant value node).id, index⟩) at here
    rwa [hoistNode_id] at here
  · intro statement inHoist values reads other otherMember sameId index inside
    obtain ⟨node, member, rfl⟩ := hoist_mem.mp inHoist
    obtain rfl := wf.id_injective otherMember member
      (hoistId_injective otherMember member (sameId.trans (hoistNode_id node)))
    change Known shapes func constant other index
      (shapes.infer (hoistNode func constant value other)
      ((hoistNode func constant value other).input_values.map fun input =>
        values input.node input.index) index)
    rw [hoistNode_input_values wf isOp kind member, List.map_map]
    apply known_hoistNode wf isOp kind noParams documented member _ inside
    intro input isInput
    obtain ⟨inOps, sourceId⟩ := wf.source_mem member isInput
    have isRead : (hoistOutput func constant input).node ∈
        shapes.inference.reads (hoistNode func constant value other) := by
      apply List.mem_map_of_mem
      rw [hoistNode_input_values wf isOp kind member]
      exact List.mem_map_of_mem isInput
    apply reads _ isRead _ inOps _ _ (wf.index other member input isInput)
    rw [sourceId]
    rfl

end Hoist

theorem hoistable_none (wf : func.WF) {node : Node} (member : node ∈ func.ops) :
    hoistable node = none ↔ ∀ value, node.op = .Constant value →
      value.element_type = .i64 ∨ value.element_type = .u64 := by
  unfold hoistable Node.as_constant
  cases kind : node.op with
  | Constant value =>
      have noInputs := (wf.constants member kind).1
      simp only [noInputs]
      simp [or_iff_not_imp_left]
  | Parameter => simp
  | Result => simp
  | op type_name => simp

theorem firstHoistable_none {nodes : List Node} :
    firstHoistable nodes = none ↔ ∀ node ∈ nodes, hoistable node = none := by
  induction nodes with
  | nil => simp [firstHoistable]
  | cons node nodes ih =>
      rw [firstHoistable, List.forall_mem_cons, ← ih]
      cases hoistable node with
      | none => simp
      | some value => simp

theorem precision_error_ne (element_type : ElementType) :
    "Can't convert type " ++ element_type.get_type_name ++ " to IE precision!" ≠
      wantOfParameter := by
  cases element_type <;> decide

/-- The constructor finds no parameter only if all constants are of the two
types. -/
theorem hoistParams_want (wf : func.WF) (noParams : func.parameters = []) :
    hoistParams func = .error wantOfParameter ↔ ∀ node ∈ func.ops, ∀ value,
      node.op = .Constant value → value.element_type = .i64 ∨
      value.element_type = .u64 := by
  have noneIff : firstHoistable func.ops = none ↔ ∀ node ∈ func.ops, ∀ value,
      node.op = .Constant value → value.element_type = .i64 ∨
      value.element_type = .u64 := by
    rw [firstHoistable_none]
    apply forall₂_congr
    exact fun node member => hoistable_none wf member
  rw [← noneIff]
  constructor
  · intro throws
    cases found : firstHoistable func.ops with
    | none => rfl
    | some entry =>
        rw [hoistParams_some noParams found] at throws
        split at throws
        case isTrue => simp at throws
        case isFalse =>
          exact absurd (Except.error.inj throws) (precision_error_ne _)
  · exact hoistParams_none noParams

/-- The function has results of the static shapes and values that another has,
given tensors for its parameters. -/
def SameResults (interp : Interpretation) (func network : Function)
    (given : List NGraph.Tensor) : Prop :=
  List.Forall₂ (fun result other =>
    (∃ shape, (result.get_output_type 0).partial_shape = .static shape ∧
      (other.get_output_type 0).partial_shape = .static shape) ∧
    ∀ inputs, network.value interp given other =
      func.value interp inputs result) func.results network.results

/-- The constructor fails to hoist a constant only if there is none that can be
hoisted, and the function with the hoisted parameter has the results that the
function has. `hoist` leaves the types as they were; the function that is
compiled is the one with the types inferred anew. -/
structure HoistsCorrectly (shapes : ShapeInference) (interp : Interpretation)
    (func : Function) : Prop where
  throws : hoistParams (usedFunction func) = .error wantOfParameter →
    ∀ node ∈ func.ops, ∀ value, node.op = .Constant value →
      value.element_type = .i64 ∨ value.element_type = .u64
  compiled : ∀ network m_hoisted_params,
    hoistParams (usedFunction func) = .ok (network, m_hoisted_params) →
    SameResults interp func (shapes.validate network)
      (m_hoisted_params.map Prod.snd)

section Construct

variable (wf : func.WF) (unused : used_parameters func = [])

include wf

theorem construct_hoists (nontrivial : trivial_fn func = false)
    {ie : InferenceEngine} {device : String}
    (opset : ∀ node ∈ func.ops, ie.contains_op_type node = true) :
    construct ie func device = hoistParams (usedFunction func) >>= fun built =>
      ie.LoadNetwork built.1 device >>= fun _ =>
        .ok ⟨device, none, built.1, some built.1, built.2,
          skipped_inputs func⟩ := by
  have supported : (func.ops.find? fun node => !ie.contains_op_type node) =
      none := by
    apply List.find?_eq_none.mpr
    intro node member
    simp [opset node member]
  have isUsed : usedFunction func = withUsedParameters func :=
    usedFunction_eq wf
  have notTrivial : trivial_fn (usedFunction func) = false := by
    rw [isUsed, trivial_fn_used wf, nontrivial]
  unfold construct
  rw [supported]
  dsimp only
  change (if trivial_fn (usedFunction func) then _ else _) = _
  rw [notTrivial, if_neg (by simp)]
  rfl

include unused

/-- The values survive hoisting. -/
theorem hoist_value {constant : Node} {value : NGraph.Tensor}
    (isOp : constant ∈ (withUsedParameters func).ops)
    (kind : constant.op = .Constant value) {result : Node}
    (isResult : result ∈ func.results) (inputs : List NGraph.Tensor) :
    (hoist (withUsedParameters func) constant value).value interp [value]
        (hoistNode (withUsedParameters func) constant value result) =
      func.value interp inputs result := by
  have usedWf := withUsedParameters_wf wf
  have inOps := (usedWf.results result isResult).1
  have given : (hoist (withUsedParameters func) constant value).argument [value]
      (withUsedParameters func).nextId = value := by
    simp [argument, hoist, hoistedParam]
  have noParam : ∀ param ∈ used_parameters func,
      func.argument inputs param.id = func.argument inputs param.id :=
    fun _ _ => rfl
  rw [Function.value, hoistNode_id,
    hoist_evaluate usedWf unused isOp kind given inOps 0]
  exact withUsedParameters_evaluate wf noParam inOps 0

theorem hoisted_result (documented : shapes.Documented func) {constant : Node}
    {value : NGraph.Tensor} (isOp : constant ∈ (withUsedParameters func).ops)
    (kind : constant.op = .Constant value) {result : Node}
    (isResult : result ∈ func.results) :
    ∃ operand, Known shapes (withUsedParameters func) constant result
      0 operand ∧
      (shapes.retype (hoist (withUsedParameters func) constant value)
        (hoistNode (withUsedParameters func) constant value
          result)).get_output_type 0 =
          operand.type := by
  have usedWf := withUsedParameters_wf wf
  obtain ⟨inOps, resultKind⟩ := usedWf.results result isResult
  obtain ⟨_, _, outputs⟩ := usedWf.resultInputs inOps resultKind
  have inside : 0 < result.outputs.length := by simp [outputs]
  refine ⟨_, inferred_hoist usedWf isOp kind unused
    (documented_used wf documented) inOps inside, ?_⟩
  rw [ShapeInference.retype_get_output_type, hoistNode_id]
  rwa [hoistNode_outputs usedWf isOp kind inOps]

theorem sameResults_iff (documented : shapes.Documented func)
    (static : ∀ result ∈ func.results, ∃ shape,
      (result.get_output_type 0).partial_shape = .static shape)
    {constant : Node} {value : NGraph.Tensor}
    (isOp : constant ∈ (withUsedParameters func).ops)
    (kind : constant.op = .Constant value) :
    SameResults interp func
      (shapes.validate (hoist (withUsedParameters func) constant value))
        [value] ↔
      ∀ result ∈ func.results,
        ¬ shapes.Loses func constant.id ⟨result.id, 0⟩ := by
  have results :
      (shapes.validate
        (hoist (withUsedParameters func) constant value)).results =
      func.results.map fun result =>
        shapes.retype (hoist (withUsedParameters func) constant value)
          (hoistNode (withUsedParameters func) constant value result) := by
    simp [ShapeInference.validate, hoist, withUsedParameters]
  rw [SameResults, results, List.forall₂_map_right_iff, List.forall₂_same]
  apply forall₂_congr
  intro result isResult
  obtain ⟨operand, known, type⟩ :=
    hoisted_result wf unused documented isOp kind isResult
  rw [type, ← loses_used_iff]
  constructor
  · rintro ⟨⟨shape, _, isStatic⟩, _⟩ lost
    rw [known.lost lost] at isStatic
    simp at isStatic
  · intro kept
    obtain ⟨shape, isStatic⟩ := static result isResult
    refine ⟨⟨shape, isStatic, (known.kept kept).trans isStatic⟩, ?_⟩
    intro inputs
    rw [ShapeInference.validate_value]
    exact hoist_value wf unused isOp kind isResult inputs

end Construct

/-- Hoisting leaves the results as they are if and only if no result needs the
value of the constant for its shape. -/
theorem hoistsCorrectly_iff (wf : func.WF) (documented : shapes.Documented func)
    (nontrivial : trivial_fn func = false) (unused : used_parameters func = [])
    (static : ∀ result ∈ func.results, ∃ shape,
      (result.get_output_type 0).partial_shape = .static shape) :
    (∀ (ie : InferenceEngine) device,
      (∀ node ∈ func.ops, ie.contains_op_type node = true) →
      construct ie func device = hoistParams (usedFunction func) >>=
        fun built =>
        ie.LoadNetwork built.1 device >>= fun _ =>
          .ok ⟨device, none, built.1, some built.1, built.2,
            skipped_inputs func⟩) ∧
    (HoistsCorrectly shapes interp func ↔ ∀ constant value,
      firstHoistable func.ops = some (constant, value) →
      IETensor.hasPrecision value.element_type = true →
      ∀ result ∈ func.results,
        ¬ shapes.Loses func constant.id ⟨result.id, 0⟩) := by
  refine ⟨fun ie device opset => construct_hoists wf nontrivial opset, ?_⟩
  have usedWf := withUsedParameters_wf wf
  have first : firstHoistable (withUsedParameters func).ops =
      firstHoistable func.ops :=
    firstHoistable_filter func.ops
  constructor
  · intro correct constant value found precision
    rw [← first] at found
    obtain ⟨isOp, kind⟩ := firstHoistable_some found
    have built := hoistParams_some unused found
    rw [if_pos precision, ← usedFunction_eq wf] at built
    have same := correct.compiled _ _ built
    rw [usedFunction_eq wf] at same
    exact (sameResults_iff wf unused documented static isOp kind).mp same
  · intro harmless
    constructor
    case throws =>
      intro throws node member value kind
      rw [usedFunction_eq wf] at throws
      have stays := withUsedParameters_mem.mpr
        ⟨member, staysUsed_of_reads (by simp [kind])⟩
      exact (hoistParams_want usedWf unused).mp throws node stays value kind
    case compiled =>
      intro network m_hoisted_params built
      rw [usedFunction_eq wf] at built
      cases found : firstHoistable (withUsedParameters func).ops with
      | none => simp [hoistParams_none unused found] at built
      | some entry =>
          obtain ⟨constant, value⟩ := entry
          obtain ⟨isOp, kind⟩ := firstHoistable_some found
          rw [hoistParams_some unused found] at built
          split at built
          case isFalse => simp at built
          case isTrue precision =>
            obtain ⟨rfl, rfl⟩ := Prod.mk.inj (Except.ok.inj built)
            apply (sameResults_iff wf unused documented static isOp kind).mpr
            exact harmless constant value (first ▸ found) precision

/-- The numbers in the bytes of an i32 tensor, the low byte first. -/
def int32s : List UInt8 → List Int
  | first :: second :: third :: fourth :: rest =>
      Int.bmod (first.toNat + 2 ^ 8 * second.toNat + 2 ^ 16 * third.toNat +
        2 ^ 24 * fourth.toNat) (2 ^ 32) :: int32s rest
  | _ => []

/-- A shape without some of its axes, or without all those of dimension 1. -/
def squeezeShape (shape : Shape) (axes : List Int) : Shape :=
  if axes.isEmpty then
    shape.filter (· != 1)
  else
    (shape.zipIdx.filter fun entry =>
      !(axes.contains entry.2 || axes.contains (entry.2 - shape.length))).map
        Prod.fst

/-- Squeeze as an operation with two operands, the data and the axes. -/
def squeezeShapes : ShapeInference where
  validate_and_infer_types := fun _ operands _ =>
    match operands with
    | [data, axes] =>
        match data.type.partial_shape, axes.constant with
        | .static shape, some value =>
            ⟨data.type.element_type,
              .static (squeezeShape shape (int32s value.data))⟩
        | _, _ => ⟨data.type.element_type, .dynamic⟩
    | _ => ⟨.u8, .dynamic⟩
  needsConstant := fun _ _ k => k == 1
  needsShape := fun _ _ k => k == 0

def squeezing : Interpretation := fun _ arguments _ =>
  match arguments with
  | [data, axes] =>
      let shape := squeezeShape data.shape (int32s axes.data)
      if same : shape_size shape = shape_size data.shape then
        ⟨data.element_type, shape, data.data, by rw [data.full, same]⟩
      else
        default
  | _ => default

/-- What is left of a constant of shape [1, 2] without its first axis. -/
def squeezed (element_type : ElementType) : Function :=
  let data : Node := ⟨0, "data", .Constant (.fill element_type [1, 2] 0), [],
    [⟨element_type, .static [1, 2]⟩]⟩
  let axes : Node :=
    ⟨1, "axes", .Constant (.fill .i32 [1] 0), [], [⟨.i32, .static [1]⟩]⟩
  let squeeze : Node := ⟨2, "squeeze", .op "Squeeze", [⟨0, 0⟩, ⟨1, 0⟩],
    [⟨element_type, .static [2]⟩]⟩
  let result : Node :=
    ⟨3, "result", .Result, [⟨2, 0⟩], [⟨element_type, .static [2]⟩]⟩
  ⟨[data, axes, squeeze, result], [result], []⟩

theorem squeezed_wf (element_type : ElementType) :
    (squeezed element_type).WF := by
  cases element_type <;> constructor <;> decide

theorem squeezed_op {element_type : ElementType} {node : Node}
    {type_name : String} (member : node ∈ (squeezed element_type).ops)
    (kind : node.op = .op type_name) :
    node = (squeezed element_type).node 2 := by
  simp only [squeezed, List.mem_cons, List.not_mem_nil, or_false] at member
  rcases member with rfl | rfl | rfl | rfl
  · simp at kind
  · simp at kind
  · rfl
  · simp at kind

theorem squeezed_cases {element_type : ElementType} {node : Node}
    {type_name : String} {operands : List Operand} {index : Nat}
    (member : node ∈ (squeezed element_type).ops)
    (kind : node.op = .op type_name)
    (weaker : List.Forall₂ Operand.Weaker operands
      ((squeezed element_type).operands node))
    (inside : index < node.outputs.length) :
    node = (squeezed element_type).node 2 ∧ index = 0 ∧
      ∃ data axes, operands = [data, axes] ∧
      data.type.element_type = element_type := by
  obtain rfl := squeezed_op member kind
  refine ⟨rfl, Nat.lt_one_iff.mp inside, ?_⟩
  cases weaker with
  | cons data rest =>
      cases rest with
      | cons axes rest =>
          cases rest with
          | nil => exact ⟨_, _, rfl, data.element_type⟩

theorem squeezeShapes_documented (element_type : ElementType) :
    squeezeShapes.Documented (squeezed element_type) where
  known := by
    intro node member type_name kind operands weaker index inside needs
    obtain ⟨rfl, rfl, data, axes, rfl, type⟩ :=
      squeezed_cases member kind weaker inside
    have shape : data.type.partial_shape = .static [1, 2] :=
      (needs 0 data _ rfl rfl).2 rfl
    have constant : axes.constant = some (.fill .i32 [1] 0) :=
      (needs 1 axes _ rfl rfl).1 rfl
    simp only [squeezeShapes, shape, constant, type]
    rfl
  value := by
    intro node member type_name kind operands weaker index inside k operand atK
      needs isUnknown
    obtain ⟨rfl, rfl, data, axes, rfl, type⟩ :=
      squeezed_cases member kind weaker inside
    obtain rfl : k = 1 := beq_iff_eq.mp needs
    obtain rfl := Option.some.inj atK
    simp only [squeezeShapes, isUnknown, type]
    cases data.type.partial_shape with
    | dynamic => rfl
    | static shape => rfl
  shape := by
    intro node member type_name kind operands weaker index inside k operand atK
      needs isUnknown
    obtain ⟨rfl, rfl, data, axes, rfl, type⟩ :=
      squeezed_cases member kind weaker inside
    obtain rfl : k = 0 := beq_iff_eq.mp needs
    obtain rfl := Option.some.inj atK
    simp only [squeezeShapes, isUnknown, type]
    rfl

theorem squeezed_static (element_type : ElementType) :
    ∀ result ∈ (squeezed element_type).results,
    ∃ shape, (result.get_output_type 0).partial_shape = .static shape := by
  intro result isResult
  obtain rfl := List.mem_singleton.mp isResult
  exact ⟨[2], rfl⟩

/-- Squeeze does not take the value of its data for the shape. -/
theorem squeezed_data_kept (element_type : ElementType) (index : Nat) :
    ¬ squeezeShapes.Loses (squeezed element_type) 0 ⟨2, index⟩ := by
  intro lost
  have wf := squeezed_wf element_type
  have isSqueeze :
      (squeezed element_type).node 2 ∈ (squeezed element_type).ops := by
    simp [squeezed, Function.node]
  cases @ShapeInference.Loses.of_node squeezeShapes _ wf 0 _ index
    isSqueeze lost with
  | inr isResult => exact absurd isResult.1 (by simp [squeezed, Function.node])
  | inl isOp =>
      obtain ⟨_, _, k, input, reads, either⟩ := isOp
      cases either with
      | inl reader =>
          obtain ⟨isData, needs⟩ := reader
          obtain rfl : k = 1 := beq_iff_eq.mp needs
          obtain rfl := Option.some.inj reads
          simp at isData
      | inr follower =>
          obtain ⟨lostData, needs⟩ := follower
          obtain rfl : k = 0 := beq_iff_eq.mp needs
          obtain rfl := Option.some.inj reads
          have isData : (squeezed element_type).node 0 ∈
              (squeezed element_type).ops := by
            simp [squeezed, Function.node]
          exact @ShapeInference.Loses.not_source squeezeShapes _ wf 0 _ 0 isData
            (by simp [squeezed, Function.node])
            (by simp [squeezed, Function.node]) lostData

/-- With data that can be hoisted the axes stay a constant. -/
theorem hoistsCorrectly_iff_squeezed :
    HoistsCorrectly squeezeShapes squeezing (squeezed .f32) := by
  apply (hoistsCorrectly_iff (squeezed_wf .f32) (squeezeShapes_documented .f32)
      (by decide) (by decide) (squeezed_static .f32)).2.mpr
  intro constant value found _ result isResult lost
  have isData : (constant, value) =
      ((squeezed .f32).node 0, .fill .f32 [1, 2] 0) :=
    Option.some.inj (found.symm.trans rfl)
  obtain ⟨rfl, rfl⟩ := Prod.mk.inj isData
  obtain rfl := List.mem_singleton.mp isResult
  have isOp : (squeezed .f32).node 3 ∈ (squeezed .f32).ops := by decide
  exact squeezed_data_kept .f32 0
    ((ShapeInference.Loses.result_iff (squeezed_wf .f32) isOp rfl rfl).mp lost)

/-- Otherwise the axes become a parameter, and the shape of the result is
lost. -/
theorem hoistsCorrectly_axes : (squeezed .i64).WF ∧
    squeezeShapes.Documented (squeezed .i64) ∧
    trivial_fn (squeezed .i64) = false ∧ used_parameters (squeezed .i64) = [] ∧
    (∀ result ∈ (squeezed .i64).results,
      (result.get_output_type 0).partial_shape = .static [2]) ∧
    ¬ HoistsCorrectly squeezeShapes squeezing (squeezed .i64) := by
  refine ⟨squeezed_wf _, squeezeShapes_documented _, by decide, by decide,
    by decide, ?_⟩
  intro correct
  have same := correct.compiled _ _ rfl
  cases same with
  | cons result rest =>
      obtain ⟨⟨shape, _, isStatic⟩, _⟩ := result
      change PartialShape.dynamic = .static shape at isStatic
      simp at isStatic

end NGraphBridge.Executable
