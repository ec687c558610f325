import NGraphBridge.Executable.Executable

/-!
# Rebuilt functions

The constructor drops unused parameters and may turn a constant into a
parameter.  Neither changes what the results are.
-/

namespace NGraphBridge.Executable

open NGraph NGraph.Function

variable {func : Function} {interp : Interpretation}

theorem isUnused_iff {param : Node} : isUnused func param = true ↔
    ∀ node ∈ func.ops, ∀ input ∈ node.input_values, input.node ≠ param.id := by
  simp [isUnused, get_users]

/-- The nodes that stay when the unused parameters go. -/
def staysUsed (func : Function) (node : Node) : Bool :=
  !(node.is_parameter && isUnused func node)

theorem is_parameter_iff {node : Node} : node.is_parameter = true ↔
    node.op = .Parameter := by
  unfold Node.is_parameter
  split
  case h_1 isParam => simp [isParam]
  case h_2 other =>
    constructor
    · intro impossible
      simp at impossible
    · intro isParam
      exact absurd isParam other

theorem staysUsed_of_source (wf : func.WF) {node : Node}
    (member : node ∈ func.ops) {input : Output}
    (isInput : input ∈ node.input_values) :
    staysUsed func (func.node input.node) = true := by
  have same := (wf.source_mem member isInput).2
  have used : isUnused func (func.node input.node) = false := by
    apply Bool.eq_false_iff.mpr
    intro unused
    exact isUnused_iff.mp unused node member input isInput same.symm
  simp [staysUsed, used]

theorem withUsedParameters_mem {node : Node} :
    node ∈ (withUsedParameters func).ops ↔
    node ∈ func.ops ∧ staysUsed func node = true := List.mem_filter

theorem withUsedParameters_node (wf : func.WF) {node : Node}
    (member : node ∈ func.ops) (stays : staysUsed func node = true) :
    (withUsedParameters func).node node.id = node := by
  apply node_of_mem
  · exact wf.ids.sublist (List.filter_sublist.map _)
  · exact withUsedParameters_mem.mpr ⟨member, stays⟩

theorem withUsedParameters_source (wf : func.WF) {node : Node}
    (member : node ∈ func.ops) {input : Output}
    (isInput : input ∈ node.input_values) :
    (withUsedParameters func).node input.node = func.node input.node := by
  obtain ⟨inOps, same⟩ := wf.source_mem member isInput
  have found := withUsedParameters_node wf inOps
    (staysUsed_of_source wf member isInput)
  rwa [same] at found

theorem input_value_mem (wf : func.WF) {result : Node}
    (member : result ∈ func.results) :
    result.input_value 0 ∈ result.input_values := by
  obtain ⟨inOps, isResult⟩ := wf.results result member
  obtain ⟨input, isInput, _⟩ := wf.resultInputs inOps isResult
  simp [Node.input_value, isInput]

theorem withUsedParameters_parent (wf : func.WF) {result : Node}
    (member : result ∈ func.results) :
    parent (withUsedParameters func) result = parent func result :=
  withUsedParameters_source wf (wf.results result member).1
    (input_value_mem wf member)

theorem withUsedParameters_wf (wf : func.WF) :
    (withUsedParameters func).WF where
  ordered := by
    apply wf.ordered.filter
    · exact fun _ isKept => isKept
    · simp
    · intro node member gone reader isReader isRead
      obtain ⟨input, isInput, same⟩ := List.mem_map.mp isRead
      have unused : isUnused func node = true := by
        simp only [Bool.not_eq_eq_eq_not, Bool.not_false,
          Bool.and_eq_true] at gone
        exact gone.2
      exact isUnused_iff.mp unused reader isReader input isInput same
  index := by
    intro node member input isInput
    have inOps := (withUsedParameters_mem.mp member).1
    rw [withUsedParameters_source wf inOps isInput]
    exact wf.index node inOps input isInput
  param := by
    intro node member
    obtain ⟨isParam, used⟩ := List.mem_filter.mp member
    obtain ⟨inOps, kind⟩ := wf.param node isParam
    refine ⟨withUsedParameters_mem.mpr ⟨inOps, ?_⟩, kind⟩
    simp only [Bool.not_eq_eq_eq_not, Bool.not_true] at used
    simp [staysUsed, used]
  declared := by
    intro node member kind
    obtain ⟨inOps, stays⟩ := withUsedParameters_mem.mp member
    refine List.mem_filter.mpr ⟨wf.declared node inOps kind, ?_⟩
    simpa [staysUsed, is_parameter_iff.mpr kind] using stays
  paramsNodup := wf.paramsNodup.filter _
  paramInputs :=
    fun node member => wf.paramInputs node (withUsedParameters_mem.mp member).1
  constant := fun node member =>
    wf.constant node (withUsedParameters_mem.mp member).1
  results := by
    intro node member
    obtain ⟨inOps, kind⟩ := wf.results node member
    refine ⟨withUsedParameters_mem.mpr ⟨inOps, ?_⟩, kind⟩
    simp [staysUsed, Node.is_parameter, kind]
  resultInput := by
    intro node member kind
    have inOps := (withUsedParameters_mem.mp member).1
    obtain ⟨input, isInput, type⟩ := wf.resultInputs inOps kind
    have first : node.input_value 0 = input := by
      simp [Node.input_value, isInput]
    rw [first, withUsedParameters_source wf inOps (by simp [isInput]), isInput]
    exact ⟨rfl, type⟩

/-- What is left computes what it did. -/
theorem withUsedParameters_evaluate (wf : func.WF)
    {argument other : Nat → NGraph.Tensor}
    (agree : ∀ param ∈ used_parameters func, other param.id = argument param.id)
    {node : Node} (member : node ∈ (withUsedParameters func).ops)
    (index : Nat) :
    (withUsedParameters func).evaluate interp other ⟨node.id, index⟩ =
      func.evaluate interp argument ⟨node.id, index⟩ := by
  apply (withUsedParameters_wf wf).evaluate_eq _ member
  intro node member index
  obtain ⟨inOps, stays⟩ := withUsedParameters_mem.mp member
  rw [wf.evaluate_node inOps]
  unfold compute
  cases kind : node.op with
  | Parameter =>
      have used : node ∈ used_parameters func :=
        ((withUsedParameters_wf wf).params node).mpr ⟨member, kind⟩
      exact (agree node used).symm
  | Constant value => rfl
  | Result => rfl
  | op type_name => rfl

theorem skipped_inputs_mem {i : Nat} : i ∈ skipped_inputs func ↔
    ∃ param, func.parameters[i]? = some param ∧ isUnused func param = true := by
  simp only [skipped_inputs, List.mem_map, List.mem_filter, Prod.exists,
    exists_eq_right, List.mem_zipIdx_iff_getElem?]

/-- The function that the rest of the constructor looks at. -/
def usedFunction (func : Function) : Function :=
  if func.parameters.length != (used_parameters func).length then
    withUsedParameters func else func

/-- The test on the lengths changes nothing: without unused parameters the
rebuilt function is the function. -/
theorem usedFunction_eq (wf : func.WF) :
    usedFunction func = withUsedParameters func := by
  unfold usedFunction
  split
  case isTrue => rfl
  case isFalse same =>
    have allUsed : used_parameters func = func.parameters := by
      apply List.filter_sublist.eq_of_length
      exact (not_not.mp (bne_iff_ne.not.mp same)).symm
    have allStay : func.ops.filter (staysUsed func) = func.ops := by
      apply List.filter_eq_self.mpr
      intro node member
      by_cases isParam : node.is_parameter = true
      · have used : node ∈ used_parameters func := by
          rw [allUsed]
          exact (wf.params node).mpr ⟨member, is_parameter_iff.mp isParam⟩
        have notUnused := (List.mem_filter.mp used).2
        simp only [Bool.not_eq_eq_eq_not, Bool.not_true] at notUnused
        simp [staysUsed, notUnused]
      · simp [staysUsed, isParam]
    have rebuilt : withUsedParameters func =
        ⟨func.ops.filter (staysUsed func), func.results,
          used_parameters func⟩ := rfl
    rw [rebuilt, allStay, allUsed]

theorem trivial_fn_used (wf : func.WF) :
    trivial_fn (withUsedParameters func) = trivial_fn func := by
  unfold trivial_fn
  change func.results.all _ = _
  apply Bool.eq_iff_iff.mpr
  rw [List.all_eq_true, List.all_eq_true]
  apply forall₂_congr
  intro result member
  rw [isTrivialResult, isTrivialResult, withUsedParameters_parent wf member]

theorem construct_trivial (wf : func.WF) {ie : InferenceEngine}
    {device : String} {exec : Executable} (isTrivial : trivial_fn func = true)
    (built : construct ie func device = .ok exec) :
    exec = ⟨device, some (withUsedParameters func), func, none, [],
      skipped_inputs func⟩ := by
  have isUsed := usedFunction_eq wf
  unfold usedFunction at isUsed
  unfold construct at built
  split at built
  case h_1 => simp at built
  case h_2 =>
    dsimp only at built
    rw [isUsed, trivial_fn_used wf, isTrivial, if_pos rfl] at built
    exact (Except.ok.inj built).symm

theorem le_foldl_max (ids : List Nat) (start : Nat) :
    start ≤ ids.foldl max start ∧ ∀ id ∈ ids, id ≤ ids.foldl max start := by
  induction ids generalizing start with
  | nil => simp
  | cons id ids ih =>
      obtain ⟨first, rest⟩ := ih (max start id)
      refine ⟨Nat.le_trans (Nat.le_max_left _ _) first, ?_⟩
      intro other member
      cases List.mem_cons.mp member with
      | inl same =>
          rw [same]
          exact Nat.le_trans (Nat.le_max_right _ _) first
      | inr later => exact rest other later

theorem lt_nextId {node : Node} (member : node ∈ func.ops) :
    node.id < func.nextId :=
  Nat.lt_succ_of_le ((le_foldl_max _ 0).2 node.id (List.mem_map_of_mem member))

theorem hoistable_iff {node : Node} {value : NGraph.Tensor}
    (hoists : hoistable node = some value) :
    node.op = .Constant value := by
  unfold hoistable Node.as_constant at hoists
  split at hoists
  case h_1 constant isConstant =>
    split at hoists
    case isTrue =>
      split at isConstant
      case h_1 other kind =>
        rw [kind, Option.some.inj isConstant, Option.some.inj hoists]
      case h_2 => simp at isConstant
    case isFalse => simp at hoists
  case h_2 => simp at hoists

theorem firstHoistable_some {nodes : List Node} {constant : Node}
    {value : NGraph.Tensor}
    (found : firstHoistable nodes = some (constant, value)) :
    constant ∈ nodes ∧ constant.op = .Constant value := by
  induction nodes with
  | nil => simp [firstHoistable] at found
  | cons node nodes ih =>
      unfold firstHoistable at found
      split at found
      case h_1 other hoists =>
        obtain ⟨rfl, rfl⟩ := Prod.mk.inj (Option.some.inj found)
        exact ⟨List.mem_cons_self, hoistable_iff hoists⟩
      case h_2 =>
        obtain ⟨later, kind⟩ := ih found
        exact ⟨List.mem_cons_of_mem _ later, kind⟩

theorem hoistable_of_parameter {node : Node}
    (isParam : node.is_parameter = true) :
    hoistable node = none := by
  have kind := is_parameter_iff.mp isParam
  simp [hoistable, Node.as_constant, kind]

theorem firstHoistable_filter (nodes : List Node) :
    firstHoistable (nodes.filter (staysUsed func)) = firstHoistable nodes := by
  induction nodes with
  | nil => rfl
  | cons node nodes ih =>
      by_cases stays : staysUsed func node = true
      · rw [List.filter_cons_of_pos stays, firstHoistable, firstHoistable, ih]
      · have isParam : node.is_parameter = true := by
          simp only [staysUsed, Bool.not_eq_true, Bool.not_eq_false',
            Bool.and_eq_true] at stays
          exact stays.1
        rw [List.filter_cons_of_neg stays, ih, firstHoistable,
          hoistable_of_parameter isParam]

/-- What the constructor throws when it finds no constant to hoist. -/
def wantOfParameter : String :=
  "Unable to add a parameter to a function with no parameterss"

theorem hoistParams_none (noParams : func.parameters = [])
    (none_ : firstHoistable func.ops = none) :
    hoistParams func = .error wantOfParameter := by
  rw [hoistParams, noParams, if_pos List.isEmpty_nil, none_]
  rfl

theorem hoistParams_some (noParams : func.parameters = []) {constant : Node}
    {value : NGraph.Tensor}
    (found : firstHoistable func.ops = some (constant, value)) :
    hoistParams func = if IETensor.hasPrecision value.element_type then
      .ok (hoist func constant value, [(constant.friendly_name, value)])
    else
      .error ("Can't convert type " ++ value.element_type.get_type_name ++
        " to IE precision!") := by
  rw [hoistParams, noParams, if_pos List.isEmpty_nil, found]
  dsimp only
  unfold IETensor.allocate
  split
  case isFalse => rfl
  case isTrue =>
    have whole : IETensor.write (.fill value.element_type value.shape 0)
        value.data = .ok value :=
      IETensor.write_whole rfl rfl
    change Except.bind (IETensor.write _ value.data) _ = _
    rw [whole]
    rfl

/-- The id that the node with an id has after hoisting. -/
def hoistId (func : Function) (constant : Node) (id : Nat) : Nat :=
  if id == constant.id then func.nextId else id

def hoistOutput (func : Function) (constant : Node)
    (output : Output) : Output :=
  ⟨hoistId func constant output.node, output.index⟩

section Hoist

variable {constant : Node} {value : NGraph.Tensor}

theorem hoistNode_id (node : Node) :
    (hoistNode func constant value node).id =
      hoistId func constant node.id := by
  unfold hoistNode hoistId
  split <;> rfl

theorem hoistNode_friendly_name (wf : func.WF) (isOp : constant ∈ func.ops)
    {node : Node} (member : node ∈ func.ops) :
    (hoistNode func constant value node).friendly_name =
      node.friendly_name := by
  unfold hoistNode
  split
  case isTrue same =>
    rw [wf.id_injective member isOp (by simpa using same)]
    rfl
  case isFalse => rfl

theorem hoistNode_outputs (wf : func.WF) (isOp : constant ∈ func.ops)
    (kind : constant.op = .Constant value) {node : Node}
    (member : node ∈ func.ops) :
    (hoistNode func constant value node).outputs = node.outputs := by
  unfold hoistNode
  split
  case isTrue same =>
    rw [wf.id_injective member isOp (by simpa using same),
      (wf.constants isOp kind).2]
    rfl
  case isFalse => rfl

theorem hoistNode_input_values (wf : func.WF) (isOp : constant ∈ func.ops)
    (kind : constant.op = .Constant value) {node : Node}
    (member : node ∈ func.ops) :
    (hoistNode func constant value node).input_values =
      node.input_values.map (hoistOutput func constant) := by
  unfold hoistNode
  split
  case isTrue same =>
    rw [wf.id_injective member isOp (by simpa using same),
      (wf.constants isOp kind).1]
    rfl
  case isFalse =>
    apply List.map_congr_left
    intro input _
    unfold hoistOutput hoistId
    split <;> rfl

theorem hoistNode_of_ne {node : Node} (other : node.id ≠ constant.id) :
    (hoistNode func constant value node).op = node.op ∧
      (hoistNode func constant value node).id = node.id := by
  rw [hoistNode, if_neg (by simpa using other)]
  exact ⟨rfl, rfl⟩

theorem hoistNode_op (wf : func.WF) (isOp : constant ∈ func.ops)
    (kind : constant.op = .Constant value) {node : Node}
    (member : node ∈ func.ops) (other : node.op ≠ .Constant value) :
    (hoistNode func constant value node).op = node.op ∧
      (hoistNode func constant value node).id = node.id := by
  apply hoistNode_of_ne
  intro same
  rw [wf.id_injective member isOp same] at other
  exact other kind

theorem hoistId_injective {left right : Node} (leftOp : left ∈ func.ops)
    (rightOp : right ∈ func.ops)
    (same : hoistId func constant left.id = hoistId func constant right.id) :
    left.id = right.id := by
  have leftBefore := lt_nextId leftOp
  have rightBefore := lt_nextId rightOp
  unfold hoistId at same
  split at same
  case isTrue atLeft =>
    split at same
    case isTrue atRight => rw [beq_iff_eq.mp atLeft, beq_iff_eq.mp atRight]
    case isFalse => omega
  case isFalse =>
    split at same
    case isTrue => omega
    case isFalse => exact same

theorem hoist_mem {node : Node} : node ∈ (hoist func constant value).ops ↔
    ∃ old ∈ func.ops, hoistNode func constant value old = node := List.mem_map

theorem hoist_ordered (wf : func.WF) (isOp : constant ∈ func.ops)
    (kind : constant.op = .Constant value) {interp : Interpretation}
    {argument : Nat → NGraph.Tensor} :
    StraightLine.Ordered (meaning interp argument)
    [] (hoist func constant value).ops := by
  have ordered : StraightLine.Ordered (meaning interp argument) [] func.ops :=
    ordered_meaning wf.ordered
  change StraightLine.Ordered _ (([] : List Nat).map (hoistId func constant)) _
  apply ordered.map
  · intro node _
    exact hoistNode_id node
  · intro node member read isRead
    obtain ⟨input, isInput, rfl⟩ := List.mem_map.mp isRead
    rw [hoistNode_input_values wf isOp kind member] at isInput
    obtain ⟨old, isOld, rfl⟩ := List.mem_map.mp isInput
    exact ⟨old.node, List.mem_map_of_mem isOld, rfl⟩
  · intro node member old isOld same
    cases isOld with
    | inl impossible => simp at impossible
    | inr found =>
        obtain ⟨earlier, earlierOp, rfl⟩ := found
        exact hoistId_injective member earlierOp same

theorem hoist_node (wf : func.WF) (isOp : constant ∈ func.ops)
    (kind : constant.op = .Constant value) {node : Node}
    (member : node ∈ func.ops) :
    (hoist func constant value).node (hoistId func constant node.id) =
      hoistNode func constant value node := by
  have ordered :
      StraightLine.Ordered (meaning (fun _ _ _ => default) fun _ => default) []
      (hoist func constant value).ops := hoist_ordered wf isOp kind
  have found := node_of_mem ordered.nodup (hoist_mem.mpr ⟨node, member, rfl⟩)
  rwa [hoistNode_id] at found

theorem hoist_source (wf : func.WF) (isOp : constant ∈ func.ops)
    (kind : constant.op = .Constant value) {node : Node}
    (member : node ∈ func.ops) {input : Output}
    (isInput : input ∈ node.input_values) :
    (hoist func constant value).node (hoistOutput func constant input).node =
      hoistNode func constant value (func.node input.node) := by
  obtain ⟨inOps, same⟩ := wf.source_mem member isInput
  have found := hoist_node wf isOp kind inOps
  rwa [same] at found

theorem hoist_wf (wf : func.WF) (noParams : func.parameters = [])
    (isOp : constant ∈ func.ops) (kind : constant.op = .Constant value) :
    (hoist func constant value).WF where
  ordered := hoist_ordered wf isOp kind
  index := by
    intro node member input isInput
    obtain ⟨old, isOld, rfl⟩ := hoist_mem.mp member
    rw [hoistNode_input_values wf isOp kind isOld] at isInput
    obtain ⟨before, isBefore, rfl⟩ := List.mem_map.mp isInput
    rw [hoist_source wf isOp kind isOld isBefore,
      hoistNode_outputs wf isOp kind (wf.source_mem isOld isBefore).1]
    exact wf.index old isOld before isBefore
  param := by
    intro node member
    obtain rfl := List.mem_singleton.mp member
    refine ⟨hoist_mem.mpr ⟨constant, isOp, ?_⟩, rfl⟩
    rw [hoistNode, if_pos (by simp)]
  declared := by
    intro node member isParam
    obtain ⟨old, isOld, rfl⟩ := hoist_mem.mp member
    unfold hoistNode at isParam ⊢
    split at isParam
    case isTrue same =>
      rw [if_pos same]
      exact List.mem_singleton_self _
    case isFalse =>
      have impossible := wf.declared old isOld isParam
      simp [noParams] at impossible
  paramsNodup := List.nodup_singleton _
  paramInputs := by
    intro node member isParam
    obtain ⟨old, isOld, rfl⟩ := hoist_mem.mp member
    unfold hoistNode at isParam ⊢
    split at isParam
    case isTrue same =>
      rw [if_pos same]
      exact ⟨rfl, rfl⟩
    case isFalse =>
      have impossible := wf.declared old isOld isParam
      simp [noParams] at impossible
  constant := by
    intro node member other isConstant
    obtain ⟨old, isOld, rfl⟩ := hoist_mem.mp member
    unfold hoistNode at isConstant ⊢
    split at isConstant
    case isTrue => simp [hoistedParam, Node.as_constant] at isConstant
    case isFalse different =>
      obtain ⟨noInputs, outputs⟩ := wf.constant old isOld other isConstant
      rw [if_neg different]
      exact ⟨by rw [Node.redirect, noInputs]; rfl, outputs⟩
  results := by
    intro node member
    obtain ⟨old, isOld, rfl⟩ := List.mem_map.mp member
    obtain ⟨inOps, isResult⟩ := wf.results old isOld
    refine ⟨hoist_mem.mpr ⟨old, inOps, rfl⟩, ?_⟩
    rw [(hoistNode_op wf isOp kind inOps (by simp [isResult])).1, isResult]
  resultInput := by
    intro node member isResult
    obtain ⟨old, isOld, rfl⟩ := hoist_mem.mp member
    have oldResult : old.op = .Result := by
      unfold hoistNode at isResult
      split at isResult
      case isTrue => simp [hoistedParam] at isResult
      case isFalse => exact isResult
    obtain ⟨input, isInput, type⟩ := wf.resultInputs isOld oldResult
    have inputs := hoistNode_input_values wf isOp kind isOld
    rw [isInput] at inputs
    have first : (hoistNode func constant value old).input_value 0 =
        hoistOutput func constant input := by
      rw [Node.input_value, inputs]
      rfl
    have fromInput : input ∈ old.input_values := by simp [isInput]
    rw [first, hoist_source wf isOp kind isOld fromInput,
      hoistNode_outputs wf isOp kind isOld, inputs, type]
    refine ⟨rfl, ?_⟩
    rw [Node.get_output_type, Node.get_output_type,
      hoistNode_outputs wf isOp kind (wf.source_mem isOld fromInput).1]
    rfl

/-- Given the constant as its argument, the function computes what it did. -/
theorem hoist_evaluate (wf : func.WF) (noParams : func.parameters = [])
    (isOp : constant ∈ func.ops) (kind : constant.op = .Constant value)
    {argument other : Nat → NGraph.Tensor} (given : other func.nextId = value)
    {node : Node} (member : node ∈ func.ops) (index : Nat) :
    (hoist func constant value).evaluate interp other
      ⟨hoistId func constant node.id, index⟩ =
      func.evaluate interp argument ⟨node.id, index⟩ := by
  have solves : ∀ node ∈ func.ops, ∀ index,
      (hoist func constant value).evaluate interp other
          (hoistOutput func constant ⟨node.id, index⟩) =
        compute interp argument node (node.input_values.map fun output =>
          (hoist func constant value).evaluate interp other
            (hoistOutput func constant output))
          index := by
    intro node member index
    have here := @WF.evaluate_node _ interp (hoist_wf wf noParams isOp kind) _
      (hoist_mem.mpr ⟨node, member, rfl⟩) other index
    rw [hoistNode_id, hoistNode_input_values wf isOp kind member,
      List.map_map] at here
    refine here.trans ?_
    by_cases same : node.id = constant.id
    · have isConstant := wf.id_injective member isOp same
      rw [isConstant, hoistNode, if_pos (by simp)]
      simp only [compute, hoistedParam, kind, given]
    · obtain ⟨sameOp, sameId⟩ :
        (hoistNode func constant value node).op = node.op ∧
          (hoistNode func constant value node).id = node.id :=
        hoistNode_of_ne same
      unfold compute
      rw [sameOp, sameId]
      cases nodeKind : node.op with
      | Parameter =>
          have impossible := wf.declared node member nodeKind
          simp [noParams] at impossible
      | Constant _ => rfl
      | Result => rfl
      | op _ => rfl
  exact (@WF.evaluate_eq func interp wf argument (fun output =>
    (hoist func constant value).evaluate interp other
      (hoistOutput func constant output)) solves node member index).symm

end Hoist

end NGraphBridge.Executable
