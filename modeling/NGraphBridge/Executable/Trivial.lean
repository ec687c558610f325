import Mathlib.Algebra.BigOperators.Group.List.Basic
import Mathlib.Algebra.GroupWithZero.Basic
import Mathlib.Algebra.BigOperators.GroupWithZero.Action
import NGraphBridge.Executable.Rebuild

/-!
# Calls of trivial functions

A trivial function keeps only its used parameters, but a call still gets one
tensor for every parameter.
-/

namespace NGraphBridge.Executable

open NGraph NGraph.Function

variable {func : Function} {interp : Interpretation}

/-- The outputs of a call: none at all, or for each result none or a tensor of
its type. -/
def Prepared (func : Function) (outputs : List (Option NGraph.Tensor)) : Prop :=
  outputs = [] ∨ List.Forall₂ (fun result output =>
    ∀ tensor ∈ output, (result.get_output_type 0).Has tensor)
      func.results outputs

/-- Every call leaves the values of the results in the outputs. -/
def CallsCorrectly (ie : InferenceEngine) (interp : Interpretation)
    (func : Function) (exec : Executable) : Prop :=
  ∀ request inputs outputs, func.Accepts inputs → Prepared func outputs →
    exec.Call ie request inputs outputs =
      .ok (func.results.map fun result =>
        some (func.value interp inputs result))

/-- The condition under which a trivial function is computed correctly. -/
structure Aligned (func : Function) : Prop where
  result : ∀ result ∈ func.results,
    IETensor.hasPrecision (result.get_output_type 0).element_type = true ∧
      ∃ shape, (result.get_output_type 0).partial_shape = .static shape
  order : ∀ result ∈ func.results, hasZeroDim result = false →
    ∀ k : Nat, func.parameters[k]? = some (parent func result) →
    ∀ j < k, ∀ param, func.parameters[j]? = some param →
    isUnused func param = false

/-- The position of a parameter among the used ones. -/
theorem used_parameters_at {parameters : List Node} {keep : Node → Bool}
    {k : Nat} {param : Node} (atK : parameters[k]? = some param)
    (kept : keep param = true) :
    (parameters.filter keep)[(parameters.take k).countP keep]? =
      some param := by
  induction parameters generalizing k with
  | nil => simp at atK
  | cons head rest ih =>
      cases k with
      | zero =>
          obtain rfl : head = param := by simpa using atK
          rw [List.filter_cons_of_pos kept]
          rfl
      | succ k =>
          have inRest := ih (by simpa using atK)
          by_cases keepHead : keep head = true
          · rw [List.filter_cons_of_pos keepHead, List.take_succ_cons,
              List.countP_cons_of_pos keepHead, List.getElem?_cons_succ]
            exact inRest
          · rw [List.filter_cons_of_neg keepHead, List.take_succ_cons,
              List.countP_cons_of_neg keepHead]
            exact inRest

theorem get_parameter_index_at (wf : func.WF) {k : Nat} {param : Node}
    (atK : func.parameters[k]? = some param) :
    func.get_parameter_index param = some k := by
  rw [get_parameter_index, List.findIdx?_eq_some_iff_findIdx_eq]
  exact ⟨(List.getElem?_eq_some_iff.mp atK).1, wf.findIdx_param atK⟩

theorem parent_index (wf : func.WF) {result : Node}
    (member : result ∈ func.results) {k : Nat}
    (atK : func.parameters[k]? = some (parent func result)) :
    (withUsedParameters func).get_parameter_index (parent func result) =
      some ((func.parameters.take k).countP fun param =>
        !isUnused func param) := by
  apply get_parameter_index_at (withUsedParameters_wf wf)
  apply used_parameters_at atK
  have stays := staysUsed_of_source wf (wf.results result member).1
    (input_value_mem wf member)
  have isParam :=
    is_parameter_iff.mpr ((wf.params _).mp (List.mem_of_getElem? atK)).2
  unfold staysUsed at stays
  change (!((parent func result).is_parameter && _)) = true at stays
  rw [isParam, Bool.true_and] at stays
  exact stays

theorem trivialOutputs_iff {used : Function} {inputs : List NGraph.Tensor}
    {results : List Node} {outputs : List (Option NGraph.Tensor)}
    {value : Node → NGraph.Tensor} :
    trivialOutputs used inputs results outputs =
        .ok (results.map fun result => some (value result)) ↔
      List.Forall₂ (fun result output =>
        trivialOutput used inputs result output = .ok (value result)) results
      outputs := by
  induction results generalizing outputs with
  | nil => simp [trivialOutputs]
  | cons result results ih =>
      cases outputs with
      | nil => simp [trivialOutputs]
      | cons output outputs =>
          rw [List.forall₂_cons, ← ih]
          constructor
          · intro success
            obtain ⟨written, atFirst, success⟩ := bind_ok success
            obtain ⟨rest, atRest, success⟩ := bind_ok success
            have same := Except.ok.inj success
            simp only [List.map_cons, List.cons.injEq,
              Option.some.injEq] at same
            rw [atFirst, atRest, same.1, same.2]
            exact ⟨rfl, rfl⟩
          · rintro ⟨atFirst, atRest⟩
            rw [trivialOutputs, atFirst, atRest]
            rfl

/-- A call is a round for every result. -/
theorem callsCorrectly_iff (wf : func.WF) {ie : InferenceEngine}
    {device : String} {exec : Executable} (isTrivial : trivial_fn func = true)
    (built : construct ie func device = .ok exec) :
    CallsCorrectly ie interp func exec ↔
      ∀ inputs, func.Accepts inputs → ∀ result ∈ func.results,
        ∀ output : Option NGraph.Tensor,
        (∀ tensor ∈ output, (result.get_output_type 0).Has tensor) →
        trivialOutput (withUsedParameters func) inputs result output =
          .ok (func.value interp inputs result) := by
  have call : ∀ request inputs outputs, exec.Call ie request inputs outputs =
      CallTrivial (withUsedParameters func) inputs outputs := by
    intro request inputs outputs
    rw [construct_trivial wf isTrivial built]
    rfl
  constructor
  · intro correct inputs accepts result member output typed
    let outputs :=
      func.results.map fun other => if other = result then output else none
    have prepared : List.Forall₂ (fun result output =>
        ∀ tensor ∈ output, (result.get_output_type 0).Has tensor)
          func.results outputs := by
      apply List.forall₂_map_right_iff.mpr
      apply List.forall₂_same.mpr
      intro other _ tensor isOutput
      split at isOutput
      case isTrue same => exact same ▸ typed tensor isOutput
      case isFalse => simp at isOutput
    have called :=
      correct ⟨fun _ => 0, fun _ => default⟩ inputs outputs accepts
        (.inr prepared)
    have nonempty : outputs.isEmpty = false := by
      rw [List.isEmpty_eq_false_iff]
      exact List.ne_nil_of_mem (List.mem_map_of_mem member)
    rw [call, CallTrivial, nonempty] at called
    have rounds := trivialOutputs_iff.mp called
    have atResult :=
      List.forall₂_same.mp (List.forall₂_map_right_iff.mp rounds) result member
    simpa using atResult
  · intro rounds request inputs outputs accepts prepared
    rw [call, CallTrivial]
    apply trivialOutputs_iff.mpr
    change List.Forall₂ _ func.results _
    cases prepared with
    | inl none_ =>
        subst none_
        have replicated : (if ([] : List (Option NGraph.Tensor)).isEmpty &&
            !(withUsedParameters func).results.isEmpty then
              List.replicate (withUsedParameters func).results.length none
            else ([] : List (Option NGraph.Tensor))) = func.results.map fun _ =>
            none := by
          change (if _ && !func.results.isEmpty then
              List.replicate func.results.length _ else _) = _
          cases func.results with
          | nil => rfl
          | cons result results => simp [List.map_const', List.replicate_succ]
        rw [replicated]
        apply List.forall₂_map_right_iff.mpr
        apply List.forall₂_same.mpr
        exact fun result member =>
          rounds inputs accepts result member none (by simp)
    | inr typed =>
        have given :
            (if outputs.isEmpty &&
              !(withUsedParameters func).results.isEmpty then
              List.replicate (withUsedParameters func).results.length none
            else outputs) = outputs := by
          change (if _ && !func.results.isEmpty then _ else _) = _
          have lengths := typed.length_eq
          cases outputs with
          | nil =>
              rw [List.eq_nil_of_length_eq_zero (lengths.trans List.length_nil)]
              rfl
          | cons output outputs => rfl
        rw [given]
        have members : ∀ result ∈ func.results, result ∈ func.results :=
          fun _ member => member
        refine List.Forall₂.imp ?_
          ((List.forall₂_and_left _ _).mpr ⟨members, typed⟩)
        exact fun result output both =>
          rounds inputs accepts result both.1 output both.2

theorem has_static {type : OutputType} {tensor : NGraph.Tensor} {shape : Shape}
    (has : type.Has tensor) (static : type.partial_shape = .static shape) :
    tensor.element_type = type.element_type ∧ tensor.shape = shape :=
  ⟨has.1, has.2 shape static⟩

theorem outputOr_write {output : Option NGraph.Tensor} {value : NGraph.Tensor}
    (precision : IETensor.hasPrecision value.element_type = true)
    (typed : ∀ tensor ∈ output,
      tensor.element_type = value.element_type ∧ tensor.shape = value.shape) :
    (outputOr output value.element_type value.shape >>= fun output =>
      IETensor.write output value.data) = .ok value := by
  cases output with
  | none =>
      rw [outputOr, IETensor.allocate, if_pos precision]
      exact IETensor.write_whole rfl rfl
  | some tensor =>
      obtain ⟨type, shape⟩ := typed tensor rfl
      exact IETensor.write_whole type shape

theorem result_type (wf : func.WF) {result : Node}
    (member : result ∈ func.results) :
    result.get_output_type 0 =
      (parent func result).get_output_type (result.input_value 0).index := by
  obtain ⟨inOps, isResult⟩ := wf.results result member
  obtain ⟨input, isInput, type⟩ := wf.resultInputs inOps isResult
  simp [Node.get_output_type, type, parent, Node.input_value, isInput]

theorem parent_mem (wf : func.WF) {result : Node}
    (member : result ∈ func.results) :
    parent func result ∈ func.ops ∧
    (parent func result).id = (result.input_value 0).node :=
  wf.source_mem (wf.results result member).1 (input_value_mem wf member)

theorem value_eq (wf : func.WF) {result : Node} (member : result ∈ func.results)
    (inputs : List NGraph.Tensor) : func.value interp inputs result =
      func.evaluate interp (func.argument inputs)
        ⟨(parent func result).id, (result.input_value 0).index⟩ := by
  rw [value, wf.evaluate_result member, (parent_mem wf member).2]

theorem value_typed (wf : func.WF) (typed : func.Typed interp)
    {inputs : List NGraph.Tensor} (accepts : func.Accepts inputs)
    {result : Node} (member : result ∈ func.results) :
    (result.get_output_type 0).Has (func.value interp inputs result) := by
  obtain ⟨inOps, isResult⟩ := wf.results result member
  obtain ⟨input, _, type⟩ := wf.resultInputs inOps isResult
  exact wf.evaluate_typed typed accepts inOps (by simp [type])

theorem hasZeroDim_static {result : Node} {shape : Shape}
    (static : (result.get_output_type 0).partial_shape = .static shape) :
    hasZeroDim result = shape.contains 0 := by
  rw [hasZeroDim, static]

theorem eq_of_zeroDim {left right : NGraph.Tensor}
    (type : left.element_type = right.element_type)
    (shape : left.shape = right.shape) (zero : left.shape.contains 0 = true) :
    left = right := by
  have empty : ∀ tensor : NGraph.Tensor, tensor.shape.contains 0 = true →
      tensor.data = [] := by
    intro tensor hasZero
    have full := tensor.full
    rw [shape_size, List.prod_eq_zero (by simpa using hasZero),
      Nat.zero_mul] at full
    exact List.eq_nil_of_length_eq_zero full
  apply NGraph.Tensor.ext_data type shape
  rw [empty left zero, empty right (shape ▸ zero)]

theorem countP_eq_of_used {k : Nat} {param : Node}
    (atK : func.parameters[k]? = some param)
    (used : ∀ j < k, ∀ other, func.parameters[j]? = some other →
      isUnused func other = false) :
    (func.parameters.take k).countP (fun param => !isUnused func param) =
      k := by
  have inside := (List.getElem?_eq_some_iff.mp atK).1
  have all : (func.parameters.take k).countP
      (fun param => !isUnused func param) =
      (func.parameters.take k).length := by
    apply List.countP_eq_length.mpr
    intro other member
    obtain ⟨j, atJ⟩ := List.mem_iff_getElem?.mp member
    rw [List.getElem?_take] at atJ
    split at atJ
    case isTrue before => simp [used j before other atJ]
    case isFalse => simp at atJ
  rw [all, List.length_take]
  omega

theorem not_trivialResult {result : Node} {shape : Shape}
    (static : (result.get_output_type 0).partial_shape = .static shape)
    (zero : ¬ shape.contains 0 = true)
    (noParam : (parent func result).is_parameter = false)
    (noConstant : (parent func result).as_constant = none) :
    ¬ isTrivialResult func result = true := by
  rw [isTrivialResult, hasZeroDim_static static, noParam, noConstant]
  simpa using zero

theorem trivialOutput_of_aligned (wf : func.WF) (typed : func.Typed interp)
    (isTrivial : trivial_fn func = true) (aligned : Aligned func)
    {inputs : List NGraph.Tensor} (accepts : func.Accepts inputs)
    {result : Node} (member : result ∈ func.results)
    {output : Option NGraph.Tensor}
    (outputTyped : ∀ tensor ∈ output, (result.get_output_type 0).Has tensor) :
    trivialOutput (withUsedParameters func) inputs result output =
      .ok (func.value interp inputs result) := by
  obtain ⟨precision, shape, static⟩ := aligned.result result member
  have valueType := has_static (value_typed wf typed accepts member) static
  have isTrivialOne := List.all_eq_true.mp isTrivial result member
  unfold trivialOutput
  rw [static]
  dsimp only
  rw [withUsedParameters_parent wf member]
  by_cases zero : shape.contains 0 = true
  · rw [if_pos zero]
    cases output with
    | none =>
        rw [outputOr, IETensor.allocate, if_pos precision]
        apply congrArg Except.ok
        exact eq_of_zeroDim valueType.1.symm valueType.2.symm zero
    | some tensor =>
        have tensorType := has_static (outputTyped tensor rfl) static
        apply congrArg Except.ok
        apply eq_of_zeroDim (tensorType.1.trans valueType.1.symm)
          (tensorType.2.trans valueType.2.symm)
        rw [tensorType.2, zero]
  · rw [if_neg zero]
    have outputType : ∀ tensor ∈ output,
        tensor.element_type = (func.value interp inputs result).element_type ∧
          tensor.shape = (func.value interp inputs result).shape := by
      intro tensor isOutput
      have tensorType := has_static (outputTyped tensor isOutput) static
      exact ⟨tensorType.1.trans valueType.1.symm,
        tensorType.2.trans valueType.2.symm⟩
    have valuePrecision : IETensor.hasPrecision
        (func.value interp inputs result).element_type = true := by
      rw [valueType.1, precision]
    cases kind : (parent func result).op with
    | Parameter =>
        obtain ⟨k, atK⟩ := List.mem_iff_getElem?.mp
          ((wf.params _).mpr ⟨(parent_mem wf member).1, kind⟩)
        obtain ⟨inside, _⟩ := List.getElem?_eq_some_iff.mp atK
        have insideInputs : k < inputs.length := accepts.length_eq ▸ inside
        have given : inputs[k]? = some inputs[k] :=
          List.getElem?_eq_getElem insideInputs
        have notZero : hasZeroDim result = false := by
          rw [hasZeroDim_static static]
          simpa using zero
        have value : func.value interp inputs result = inputs[k] := by
          rw [value_eq wf member, wf.evaluate_param atK given]
        dsimp only
        rw [parent_index wf member atK,
          countP_eq_of_used atK (aligned.order result member notZero k atK)]
        dsimp only
        rw [given]
        dsimp only
        rw [value] at outputType valuePrecision ⊢
        exact outputOr_write valuePrecision outputType
    | Constant constant =>
        have value : func.value interp inputs result = constant := by
          rw [value_eq wf member,
            wf.evaluate_constant (parent_mem wf member).1 kind]
        dsimp only
        rw [value] at outputType valuePrecision ⊢
        exact outputOr_write valuePrecision outputType
    | Result =>
        exact absurd isTrivialOne
          (not_trivialResult static zero (by simp [Node.is_parameter, kind])
          (by simp [Node.as_constant, kind]))
    | op type_name =>
        exact absurd isTrivialOne
          (not_trivialResult static zero (by simp [Node.is_parameter, kind])
          (by simp [Node.as_constant, kind]))

/-- Tensors for the parameters, all zero except for one that is all one. -/
def distinguishing (func : Function) (k : Nat) : List NGraph.Tensor :=
  func.parameters.mapIdx fun j param =>
    .fill (param.get_output_type 0).element_type
      (match (param.get_output_type 0).partial_shape with
      | .dynamic => []
      | .static shape => shape)
      (if j = k then 1 else 0)

theorem distinguishing_accepts (func : Function) (k : Nat) :
    func.Accepts (distinguishing func k) := by
  apply List.forall₂_iff_get.mpr
  refine ⟨by simp [distinguishing], ?_⟩
  intro j inside given
  simp only [distinguishing, List.get_eq_getElem, List.getElem_mapIdx]
  refine ⟨rfl, ?_⟩
  intro shape static
  simp only [NGraph.Tensor.fill, static]

theorem outputOr_bind_ok {output : Option NGraph.Tensor}
    {element_type : ElementType} {shape : Shape} {bytes : List UInt8}
    {written : NGraph.Tensor}
    (success : (outputOr output element_type shape >>= fun output =>
      IETensor.write output bytes) = .ok written) :
    ∃ before, outputOr output element_type shape = .ok before ∧
      written.data = bytes ++ before.data.drop bytes.length := by
  obtain ⟨before, isBefore, success⟩ := bind_ok success
  unfold IETensor.write at success
  split at success
  case isTrue fits =>
    refine ⟨before, isBefore, ?_⟩
    rw [← Except.ok.inj success]
  case isFalse => simp at success

theorem allocate_ok {element_type : ElementType} {shape : Shape}
    {tensor : NGraph.Tensor}
    (success : IETensor.allocate element_type shape = .ok tensor) :
    IETensor.hasPrecision element_type = true := by
  unfold IETensor.allocate at success
  split at success
  case isTrue precision => exact precision
  case isFalse => simp at success

theorem static_of_trivialOutput {used : Function} {inputs : List NGraph.Tensor}
    {result : Node} {output : Option NGraph.Tensor} {written : NGraph.Tensor}
    (success : trivialOutput used inputs result output = .ok written) :
    ∃ shape, (result.get_output_type 0).partial_shape = .static shape := by
  unfold trivialOutput at success
  split at success
  case h_1 => simp at success
  case h_2 shape static => exact ⟨shape, static⟩

theorem precision_of_trivialOutput {used : Function}
    {inputs : List NGraph.Tensor} {result : Node} {written : NGraph.Tensor}
    (success : trivialOutput used inputs result none = .ok written)
    (same : written.element_type = (result.get_output_type 0).element_type) :
    IETensor.hasPrecision (result.get_output_type 0).element_type = true := by
  have fromWrite :
      ∀ {element_type : ElementType} {shape : Shape} {bytes : List UInt8},
      (outputOr none element_type shape >>= fun output =>
        IETensor.write output bytes) =
        .ok written → IETensor.hasPrecision written.element_type = true := by
    intro element_type shape bytes success
    obtain ⟨before, isBefore, success⟩ := bind_ok success
    have precision := allocate_ok isBefore
    unfold outputOr IETensor.allocate at isBefore
    rw [if_pos precision] at isBefore
    have beforeType : before.element_type = element_type := by
      rw [← Except.ok.inj isBefore]
      rfl
    unfold IETensor.write at success
    split at success
    case isTrue fits => rwa [← Except.ok.inj success, beforeType]
    case isFalse => simp at success
  unfold trivialOutput at success
  split at success
  case h_1 => simp at success
  case h_2 shape static =>
    split at success
    case isTrue => exact allocate_ok success
    case isFalse =>
      rw [← same]
      split at success
      case h_1 =>
        split at success
        case h_1 => simp at success
        case h_2 index _ =>
          split at success
          case h_1 => simp at success
          case h_2 input _ => exact fromWrite success
      case h_2 value _ => exact fromWrite success
      case h_3 => simp at success

theorem countP_lt_of_unused {k j : Nat} {param : Node}
    (inside : k < func.parameters.length) (before : j < k)
    (atJ : func.parameters[j]? = some param)
    (unused : isUnused func param = true) :
    (func.parameters.take k).countP (fun param => !isUnused func param) <
      k := by
  have atTake : (func.parameters.take k)[j]? = some param := by
    rw [List.getElem?_take, if_pos before, atJ]
  have notAll : (func.parameters.take k).countP
      (fun param => !isUnused func param) ≠
      (func.parameters.take k).length := by
    intro all
    have used := List.countP_eq_length.mp all param
      (List.mem_of_getElem? atTake)
    simp [unused] at used
  have most := List.countP_le_length (p := fun param => !isUnused func param)
    (l := func.parameters.take k)
  rw [List.length_take, Nat.min_eq_left inside.le] at most notAll
  omega

theorem order_of_rounds (wf : func.WF)
    (rounds : ∀ inputs, func.Accepts inputs → ∀ result ∈ func.results,
      ∀ output : Option NGraph.Tensor,
      (∀ tensor ∈ output, (result.get_output_type 0).Has tensor) →
      trivialOutput (withUsedParameters func) inputs result output =
        .ok (func.value interp inputs result))
    {result : Node} (member : result ∈ func.results)
    (notZero : hasZeroDim result = false) {k j : Nat}
    (atK : func.parameters[k]? = some (parent func result)) (before : j < k)
    {param : Node} (atJ : func.parameters[j]? = some param) :
    isUnused func param = false := by
  apply Bool.eq_false_iff.mpr
  intro unused
  obtain ⟨inside, _⟩ := List.getElem?_eq_some_iff.mp atK
  obtain ⟨parentOp, isParam⟩ := (wf.params _).mp (List.mem_of_getElem? atK)
  have wrong := countP_lt_of_unused inside before atJ unused
  have accepts := distinguishing_accepts func k
  have round := rounds _ accepts result member
  obtain ⟨shape, static⟩ := static_of_trivialOutput (round none (by simp))
  have single : (result.input_value 0).index = 0 := by
    have inputIndex :=
      wf.index result (wf.results result member).1 _ (input_value_mem wf member)
    have oneOutput := (wf.paramInputs _ parentOp isParam).2
    change _ < (parent func result).outputs.length at inputIndex
    omega
  have sameType := result_type wf member
  rw [single] at sameType
  have value : func.value interp (distinguishing func k) result =
      .fill (result.get_output_type 0).element_type shape 1 := by
    have given : (distinguishing func k)[k]? =
        some (.fill (result.get_output_type 0).element_type shape 1) := by
      rw [distinguishing, List.getElem?_mapIdx, atK, Option.map_some,
        ← sameType, static, if_pos rfl]
    rw [value_eq wf member, wf.evaluate_param atK given]
  have zeroAt : ∃ tensor : NGraph.Tensor,
      (distinguishing func k)[(func.parameters.take k).countP
      fun param => !isUnused func param]? = some tensor ∧ ∀ byte ∈ tensor.data,
      byte = 0 := by
    have insideZero := wrong.trans inside
    refine ⟨_, List.getElem?_eq_getElem
      (by rwa [distinguishing, List.length_mapIdx]), ?_⟩
    intro byte isByte
    simp only [distinguishing, List.getElem_mapIdx, if_neg wrong.ne,
      NGraph.Tensor.fill] at isByte
    exact List.eq_of_mem_replicate isByte
  obtain ⟨zeros, atIndex, isZero⟩ := zeroAt
  have written :=
    round (some (.fill (result.get_output_type 0).element_type shape 0)) (by
    intro tensor isTensor
    obtain rfl := Option.some.inj isTensor
    refine ⟨rfl, fun other isOther => ?_⟩
    rw [static] at isOther
    exact PartialShape.static.inj isOther)
  have noZero : shape.contains 0 = false := by
    rw [← hasZeroDim_static static, notZero]
  rw [value] at written
  unfold trivialOutput at written
  rw [static] at written
  dsimp only at written
  rw [withUsedParameters_parent wf member, isParam] at written
  dsimp only at written
  rw [parent_index wf member atK, noZero, if_neg (by simp)] at written
  dsimp only at written
  rw [atIndex] at written
  dsimp only at written
  obtain ⟨blank, isBlank, data⟩ := outputOr_bind_ok written
  have allZero :
      ∀ byte ∈
        (NGraph.Tensor.fill (result.get_output_type 0).element_type
          shape 1).data,
      byte = 0 := by
    intro byte isByte
    rw [data, List.mem_append] at isByte
    cases isByte with
    | inl copied => exact isZero byte copied
    | inr left =>
        rw [← Except.ok.inj isBlank] at left
        exact List.eq_of_mem_replicate (List.mem_of_mem_drop left)
  have some_ : 0 < shape_size shape *
      (result.get_output_type 0).element_type.size := by
    apply Nat.mul_pos _ (ElementType.size_pos _)
    apply Nat.pos_of_ne_zero
    rw [shape_size, Ne, List.prod_eq_zero_iff]
    simpa using noZero
  have one : (1 : UInt8) = 0 :=
    allZero 1 (List.mem_replicate.mpr ⟨some_.ne', rfl⟩)
  exact absurd one (by decide)

/-- The executable of a trivial function leaves the values of the results in the
outputs of every call if and only if no unused parameter comes before one that
feeds a result with elements, and new tensors can be made for the results. -/
theorem callTrivial_iff (wf : func.WF) (typed : func.Typed interp)
    {ie : InferenceEngine} {device : String} {exec : Executable}
    (isTrivial : trivial_fn func = true)
    (built : construct ie func device = .ok exec) :
    CallsCorrectly ie interp func exec ↔ Aligned func := by
  rw [callsCorrectly_iff wf isTrivial built]
  constructor
  · intro rounds
    constructor
    case result =>
      intro result member
      have accepts := distinguishing_accepts func 0
      have fresh := rounds _ accepts result member none (by simp)
      exact ⟨precision_of_trivialOutput fresh
        (value_typed wf typed accepts member).1, static_of_trivialOutput fresh⟩
    case order =>
      intro result member notZero k atK j before param atJ
      exact order_of_rounds wf rounds member notZero atK before atJ
  · intro aligned inputs accepts result member output outputTyped
    exact trivialOutput_of_aligned wf typed isTrivial aligned accepts member
      outputTyped

/-- Of two parameters the second feeds a result, and the first does or not. -/
def secondOfTwo (firstUsed : Bool) : Function :=
  let type : OutputType := ⟨.i8, .static [1]⟩
  let a : Node := ⟨0, "a", .Parameter, [], [type]⟩
  let b : Node := ⟨1, "b", .Parameter, [], [type]⟩
  let fromA : Node := ⟨2, "first", .Result, [⟨0, 0⟩], [type]⟩
  let fromB : Node := ⟨3, "second", .Result, [⟨1, 0⟩], [type]⟩
  if firstUsed then
    ⟨[a, b, fromA, fromB], [fromA, fromB], [a, b]⟩
  else
    ⟨[a, b, fromB], [fromB], [a, b]⟩

theorem secondOfTwo_wf (firstUsed : Bool) : (secondOfTwo firstUsed).WF := by
  cases firstUsed <;> constructor <;> decide

/-- An engine for functions without operations. -/
def identityEngine : InferenceEngine where
  contains_op_type := fun _ => true
  LoadNetwork := fun _ _ => .ok ()
  getInputsInfo := fun func => func.parameters.map Node.friendly_name
  getOutputsInfo := fun func => func.results.map (get_output_name func)
  Infer := fun _ _ memory => memory

def identityExecutable (firstUsed : Bool) : Executable where
  m_device := "CPU"
  m_trivial_fn := some (withUsedParameters (secondOfTwo firstUsed))
  m_function := secondOfTwo firstUsed
  m_network := none
  m_hoisted_params := []
  m_skipped_inputs := if firstUsed then [] else [0]

theorem construct_secondOfTwo (firstUsed : Bool) :
    construct identityEngine (secondOfTwo firstUsed) "CPU" =
      .ok (identityExecutable firstUsed) := by
  cases firstUsed <;> rfl

theorem callTrivial_iff_secondOfTwo :
    CallsCorrectly identityEngine (fun _ _ _ => default) (secondOfTwo true)
      (identityExecutable true) := by
  apply (callTrivial_iff (secondOfTwo_wf true) _ (by decide)
      (construct_secondOfTwo true)).mpr
  · constructor
    case result =>
      intro result member
      change result ∈ [_, _] at member
      simp only [List.mem_cons, List.not_mem_nil, or_false] at member
      rcases member with rfl | rfl <;> exact ⟨rfl, [1], rfl⟩
    case order =>
      intro result member _ k _ j _ param atJ
      have allUsed : ∀ param ∈ (secondOfTwo true).parameters,
          isUnused (secondOfTwo true) param = false := by decide
      exact allUsed param (List.mem_of_getElem? atJ)
  · intro node member type_name kind
    have noOps : ∀ node ∈ (secondOfTwo true).ops,
        node.op = .Parameter ∨ node.op = .Result := by decide
    cases noOps node member with
    | inl isParam => simp [isParam] at kind
    | inr isResult => simp [isResult] at kind

/-- The unused parameter shifts the inputs: the output gets its tensor. -/
theorem callTrivial_shifted :
    construct identityEngine (secondOfTwo false) "CPU" =
      .ok (identityExecutable false) ∧
      trivial_fn (secondOfTwo false) = true ∧
      ¬ CallsCorrectly identityEngine (fun _ _ _ => default) (secondOfTwo false)
        (identityExecutable false) := by
  refine ⟨construct_secondOfTwo false, by decide, fun correct => ?_⟩
  have called :=
    correct ⟨fun _ => 0, fun _ => default⟩ [.fill .i8 [1] 0, .fill .i8 [1] 1] []
      (.cons ⟨rfl, fun _ same => PartialShape.static.inj same⟩
        (.cons ⟨rfl, fun _ same => PartialShape.static.inj same⟩ .nil))
      (.inl rfl)
  have differ : (identityExecutable false).Call identityEngine
      ⟨fun _ => 0, fun _ => default⟩
      [.fill .i8 [1] 0, .fill .i8 [1] 1] [] ≠
      .ok ((secondOfTwo false).results.map fun result =>
        some ((secondOfTwo false).value (fun _ _ _ => default)
          [.fill .i8 [1] 0, .fill .i8 [1] 1] result)) := by
    decide
  exact differ called

end NGraphBridge.Executable
