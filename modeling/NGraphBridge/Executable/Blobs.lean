import NGraphBridge.Executable.Trivial
import NGraphBridge.Lib.Text

/-!
# Blob names

A call binds the tensors of a network by name.  An output has the name of the
node that feeds its result.
-/

namespace NGraphBridge.Executable

open NGraph NGraph.Function

variable {func : Function} {interp : Interpretation}

/-- The names that a call binds. -/
def blobNames (network : Function) : List String :=
  network.parameters.map Node.friendly_name ++ network.results.map
    (get_output_name network)

/-- What the Inference Engine documents: the infos have an entry for each name,
and `Infer` writes the value of each output into the blob that is bound to its
name, where different names have different blobs. -/
structure Documented (ie : InferenceEngine) (interp : Interpretation) :
    Prop where
  distinct : ∀ network, (ie.getInputsInfo network).Nodup
  inputs : ∀ network name, name ∈ ie.getInputsInfo network ↔
    ∃ param ∈ network.parameters, param.friendly_name = name
  infer : ∀ network blobs memory, network.WF → (blobNames network).Nodup →
    (∀ name ∈ blobNames network, ∀ other ∈ blobNames network,
      blobs name = blobs other → name = other) →
    ∀ result ∈ network.results,
      ie.Infer network blobs memory (blobs (get_output_name network result)) =
        network.evaluate interp
          (fun id => memory (blobs (network.node id).friendly_name))
          ⟨result.id, 0⟩

/-- One tensor of the right type for every result. -/
def Preallocated (func : Function) (outputs : List (Option NGraph.Tensor)) :
    Prop :=
  List.Forall₂ (fun result output => ∃ tensor, output = some tensor ∧
    (result.get_output_type 0).Has tensor) func.results outputs

/-- Every call binds each tensor under a name of its own, and the outputs get
the values of the results. -/
def BindsCorrectly (ie : InferenceEngine) (interp : Interpretation)
    (func : Function) (exec : Executable) : Prop :=
  ∀ request inputs outputs, func.Accepts inputs → Preallocated func outputs →
    ∃ network bindings, exec.m_network = some network ∧
      setBlobs ie exec network inputs outputs = .ok bindings ∧
      (bindings.map Prod.fst).Nodup ∧
      (∀ (i : Nat) param, func.parameters[i]? = some param →
        isUnused func param = false →
        (param.friendly_name, .input i) ∈ bindings) ∧
      (∀ (j : Nat) result, func.results[j]? = some result →
        (get_output_name func result, .output j) ∈ bindings) ∧
      exec.Call ie request inputs outputs =
        .ok (func.results.map fun result =>
          some (func.value interp inputs result))

/-- The nodes whose values the network takes in. -/
def inputNodes (func : Function) : List Node :=
  if (used_parameters func).isEmpty then
    (firstHoistable func.ops).toList.map Prod.fst
  else
    used_parameters func

/-- The condition under which no two tensors of a call have one name. -/
structure Separate (func : Function) : Prop where
  sources : (func.results.map fun result => result.input_value 0).Nodup
  inputs : ∀ result ∈ func.results, parent func result ∉ inputNodes func
  indexed : ∀ result ∈ func.results, 1 < (parent func result).outputs.length →
    ∀ node, (node ∈ inputNodes func ∨
      ∃ other ∈ func.results, parent func other = node ∧
      node.outputs.length ≤ 1) →
    node.friendly_name ≠
      (parent func result).friendly_name ++ "." ++
      toString (result.input_value 0).index

/-- A name with an index names the node and the index. -/
theorem indexed_injective {left right : String} {i j : Nat}
    (same : left ++ "." ++ toString i = right ++ "." ++ toString j) :
    left = right ∧ i = j := by
  have split : ∀ (name : String) (k : Nat),
      (name ++ "." ++ toString k).toList.reverse =
      (Nat.toDigits 10 k).reverse ++ '.' :: name.toList.reverse := by
    intro name k
    simp [String.toList_append]
  have plain : ∀ (k : Nat), ∀ c ∈ (Nat.toDigits 10 k).reverse, ¬ c = '.' := by
    intro k c member isDot
    rw [List.mem_reverse, isDot] at member
    cases Text.isNumeral_of_mem_toDigits member with
    | inl isDigit => exact absurd isDigit (by decide)
    | inr isSign => exact absurd isSign (by decide)
  have sameList := congrArg (fun text : String => text.toList.reverse) same
  simp only [split] at sameList
  obtain ⟨digits, rest⟩ :=
    Text.split_unique (plain i) (plain j) (Text.delimited_cons rfl)
      (Text.delimited_cons rfl) sameList
  constructor
  · have names := List.reverse_injective (List.cons.inj rest).2
    exact String.toList_injective names
  · exact Text.toDigits_injective (List.reverse_injective digits)

section Names

variable (wf : func.WF) (unique : (func.ops.map Node.friendly_name).Nodup)
include unique

theorem friendly_name_injective {left right : Node} (leftOp : left ∈ func.ops)
    (rightOp : right ∈ func.ops)
    (same : left.friendly_name = right.friendly_name) :
    left = right :=
  List.inj_on_of_nodup_map unique leftOp rightOp same

include wf

/-- Without a clash between an index and a name, results have different names
exactly if different outputs feed them. -/
theorem get_output_name_injective (separate : Separate func) {left right : Node}
    (leftResult : left ∈ func.results) (rightResult : right ∈ func.results)
    (same : get_output_name func left = get_output_name func right) :
    left.input_value 0 = right.input_value 0 := by
  obtain ⟨leftOp, leftId⟩ := parent_mem wf leftResult
  obtain ⟨rightOp, rightId⟩ := parent_mem wf rightResult
  have ofParents : parent func left = parent func right →
      (left.input_value 0).node = (right.input_value 0).node := by
    intro sameParent
    rw [← leftId, ← rightId, sameParent]
  have inRange : ∀ {result : Node}, result ∈ func.results →
      (result.input_value 0).index < (parent func result).outputs.length :=
    fun member =>
    wf.index _ (wf.results _ member).1 _ (input_value_mem wf member)
  have leftRange := inRange leftResult
  have rightRange := inRange rightResult
  unfold get_output_name at same
  split at same
  case isTrue leftMany =>
    split at same
    case isTrue rightMany =>
      obtain ⟨sameName, sameIndex⟩ := indexed_injective same
      have sameParent := friendly_name_injective unique leftOp rightOp sameName
      exact Output.ext (ofParents sameParent) sameIndex
    case isFalse rightOne =>
      exact absurd same.symm
        (separate.indexed left leftResult leftMany (parent func right)
        (.inr ⟨right, rightResult, rfl, not_lt.mp rightOne⟩))
  case isFalse leftOne =>
    split at same
    case isTrue rightMany =>
      exact absurd same
        (separate.indexed right rightResult rightMany (parent func left)
        (.inr ⟨left, leftResult, rfl, not_lt.mp leftOne⟩))
    case isFalse rightOne =>
      have sameParent := friendly_name_injective unique leftOp rightOp same
      apply Output.ext (ofParents sameParent)
      rw [sameParent] at leftRange leftOne
      omega

omit unique in
theorem inputNodes_mem {node : Node} (member : node ∈ inputNodes func) :
    node ∈ func.ops ∧ node.outputs.length = 1 := by
  unfold inputNodes at member
  split at member
  case isTrue =>
    obtain ⟨entry, isFirst, rfl⟩ := List.mem_map.mp member
    have found : firstHoistable func.ops = some (entry.1, entry.2) :=
      Option.mem_toList.mp isFirst
    obtain ⟨isOp, kind⟩ := firstHoistable_some found
    exact ⟨isOp, by rw [(wf.constants isOp kind).2]; rfl⟩
  case isFalse =>
    obtain ⟨isOp, kind⟩ := wf.param node (List.mem_filter.mp member).1
    exact ⟨isOp, (wf.paramInputs node isOp kind).2⟩

theorem inputNodes_nodup :
    ((inputNodes func).map Node.friendly_name).Nodup := by
  have nodup : (inputNodes func).Nodup := by
    unfold inputNodes
    split
    case isTrue =>
      cases firstHoistable func.ops with
      | none => exact List.nodup_nil
      | some entry => exact List.nodup_singleton _
    case isFalse => exact wf.paramsNodup.filter _
  apply nodup.map_on
  intro left isLeft right isRight same
  exact friendly_name_injective unique (inputNodes_mem wf isLeft).1
    (inputNodes_mem wf isRight).1 same

/-- All names that a call of the network binds. -/
theorem names_nodup_iff : ((inputNodes func).map Node.friendly_name ++
      func.results.map (get_output_name func)).Nodup ↔ Separate func := by
  constructor
  · intro nodup
    obtain ⟨_, resultNames, disjoint⟩ := List.nodup_append.mp nodup
    have apart : ∀ node ∈ inputNodes func, ∀ result ∈ func.results,
        node.friendly_name ≠ get_output_name func result :=
      fun node member result isResult =>
      disjoint _ (List.mem_map_of_mem member) _ (List.mem_map_of_mem isResult)
    constructor
    case sources =>
      apply List.Nodup.of_map (fun output =>
        if (func.node output.node).outputs.length > 1 then
          (func.node output.node).friendly_name ++ "." ++ toString output.index
        else
          (func.node output.node).friendly_name)
      rw [List.map_map]
      exact resultNames
    case inputs =>
      intro result isResult member
      apply apart _ member result isResult
      rw [get_output_name, if_neg (by rw [(inputNodes_mem wf member).2]; omega)]
    case indexed =>
      intro result isResult many node isNode same
      have resultName : get_output_name func result = node.friendly_name := by
        rw [get_output_name, if_pos many, same]
      cases isNode with
      | inl isInput => exact apart node isInput result isResult resultName.symm
      | inr isParent =>
          obtain ⟨other, isOther, rfl, one⟩ := isParent
          have otherName :
              get_output_name func other =
                (parent func other).friendly_name := by
            rw [get_output_name, if_neg (by omega)]
          have equal := List.inj_on_of_nodup_map resultNames isResult isOther
            (resultName.trans otherName.symm)
          rw [equal] at many
          omega
  · intro separate
    apply List.nodup_append.mpr
    refine ⟨inputNodes_nodup wf unique, ?_, ?_⟩
    · have resultsNodup := separate.sources.of_map
      apply resultsNodup.map_on
      intro left isLeft right isRight same
      exact List.inj_on_of_nodup_map separate.sources isLeft isRight
        (get_output_name_injective wf unique separate isLeft isRight same)
    · rintro _ inName _ outName rfl
      obtain ⟨node, member, rfl⟩ := List.mem_map.mp inName
      obtain ⟨result, isResult, same⟩ := List.mem_map.mp outName
      unfold get_output_name at same
      split at same
      case isTrue many =>
        exact separate.indexed result isResult many node (.inl member) same.symm
      case isFalse =>
        have equal := friendly_name_injective unique (parent_mem wf isResult).1
          (inputNodes_mem wf member).1 same
        exact separate.inputs result isResult (equal ▸ member)

end Names

/-- The bindings of the inputs: the used parameters, with the positions of
all. -/
def inputBindings (func : Function) : List (String × Blob) :=
  (func.parameters.zipIdx.filter fun entry => !isUnused func entry.1).map
    fun entry => (entry.1.friendly_name, .input entry.2)

def hoistedBindings (m_hoisted_params : List (String × NGraph.Tensor)) :
    List (String × Blob) :=
  m_hoisted_params.zipIdx.map fun entry => (entry.1.1, .hoisted entry.2)

def outputBindings (func : Function) : List (String × Blob) :=
  func.results.zipIdx.map fun entry =>
    (get_output_name func entry.1, .output entry.2)

theorem inputBlobs_ok {input_info : List String} {m_skipped_inputs : List Nat}
    {parameters : List Node} {used : Node → Bool} {i : Nat}
    {inputs : List NGraph.Tensor} (lengths : parameters.length = inputs.length)
    (skips : ∀ (j : Nat) param, parameters[j]? = some param →
      m_skipped_inputs.contains (i + j) = !used param)
    (known : ∀ param ∈ parameters, used param = true →
      input_info.contains param.friendly_name = true) (others : List Node) :
    inputBlobs input_info m_skipped_inputs i inputs
      (parameters.filter used ++ others) =
      .ok (((parameters.zipIdx i).filter fun entry => used entry.1).map
        fun entry => (entry.1.friendly_name, .input entry.2)) := by
  induction parameters generalizing i inputs with
  | nil =>
      rw [List.length_nil] at lengths
      rw [List.eq_nil_of_length_eq_zero lengths.symm]
      rfl
  | cons param parameters ih =>
      cases inputs with
      | nil => simp at lengths
      | cons input inputs =>
          have rest := @ih (i + 1) inputs (by simpa using lengths)
            (fun j other atJ => by
              rw [show i + 1 + j = i + (j + 1) by omega]
              exact skips (j + 1) other (by simpa using atJ))
            (fun other member => known other (List.mem_cons_of_mem _ member))
          have skipsHere := skips 0 param rfl
          rw [Nat.add_zero] at skipsHere
          unfold inputBlobs
          rw [skipsHere]
          by_cases isUsed : used param = true
          · have knownHere := known param List.mem_cons_self isUsed
            rw [if_neg (by simp [isUsed]), List.filter_cons_of_pos isUsed,
              List.cons_append]
            dsimp only
            rw [if_pos knownHere, rest, List.zipIdx_cons, List.filter_cons]
            dsimp only
            rw [if_pos isUsed]
            rfl
          · rw [if_pos (by simpa using isUsed), List.filter_cons_of_neg isUsed,
              rest, List.zipIdx_cons, List.filter_cons]
            dsimp only
            rw [if_neg isUsed]

theorem outputBlobs_ok {network : Function} {results : List Node} {i : Nat}
    {outputs : List (Option NGraph.Tensor)}
    (prepared : List.Forall₂ (fun _ output => output.isSome = true) results
      outputs) :
    outputBlobs network i results outputs = .ok ((results.zipIdx i).map
      fun entry => (get_output_name network entry.1, .output entry.2)) := by
  induction prepared generalizing i with
  | nil => rfl
  | cons isSome _ ih =>
      obtain ⟨tensor, rfl⟩ := Option.isSome_iff_exists.mp isSome
      rw [outputBlobs, ih]
      rfl

theorem collect_ok {network : Function} {blobs : String → Blob}
    {memory : Blob → NGraph.Tensor} {results : List Node} {i : Nat}
    {outputs : List (Option NGraph.Tensor)}
    (prepared : List.Forall₂ (fun _ output => output.isSome = true) results
      outputs) :
    collect network blobs memory i results outputs =
      (results.zipIdx i).map fun entry => some (memory (.output entry.2)) := by
  induction prepared generalizing i with
  | nil => rfl
  | cons isSome _ ih =>
      obtain ⟨tensor, rfl⟩ := Option.isSome_iff_exists.mp isSome
      rw [collect, ih]
      rfl

theorem foldl_bind_of_notMem {bindings : List (String × Blob)}
    {blobs : String → Blob} {name : String}
    (other : name ∉ bindings.map Prod.fst) :
    bindings.foldl bind blobs name = blobs name := by
  induction bindings generalizing blobs with
  | nil => rfl
  | cons binding bindings ih =>
      rw [List.map_cons, List.mem_cons, not_or] at other
      rw [List.foldl_cons, ih other.2, bind, if_neg other.1]

theorem foldl_bind_of_mem {bindings : List (String × Blob)}
    {blobs : String → Blob} (distinct : (bindings.map Prod.fst).Nodup)
    {name : String} {blob : Blob} (member : (name, blob) ∈ bindings) :
    bindings.foldl bind blobs name = blob := by
  induction bindings generalizing blobs with
  | nil => simp at member
  | cons binding bindings ih =>
      obtain ⟨fresh, distinct⟩ := List.nodup_cons.mp distinct
      cases List.mem_cons.mp member with
      | inl same =>
          subst same
          rw [List.foldl_cons, foldl_bind_of_notMem fresh, bind, if_pos rfl]
      | inr later => exact ih distinct later

/-- How the network that a function was compiled to relates to the function. -/
structure Compiled (func network : Function)
    (m_hoisted_params : List (String × NGraph.Tensor)) (change : Node → Node) :
    Prop where
  wf : network.WF
  params : network.parameters.map Node.friendly_name =
    (inputNodes func).map Node.friendly_name
  results : network.results = func.results.map change
  name : ∀ result ∈ func.results,
    get_output_name network (change result) = get_output_name func result
  given : network.parameters = used_parameters func ∧ m_hoisted_params = [] ∨
    used_parameters func = [] ∧ network.parameters.length = 1 ∧
      m_hoisted_params.map Prod.fst = network.parameters.map Node.friendly_name
  value : ∀ (interp : Interpretation) inputs (named : String → NGraph.Tensor),
    (∀ (k : Nat) param, func.parameters[k]? = some param →
      isUnused func param = false →
      named param.friendly_name = inputs.getD k default) →
    (∀ entry ∈ m_hoisted_params, named entry.1 = entry.2) →
    ∀ result ∈ func.results,
      network.evaluate interp (fun id => named (network.node id).friendly_name)
        ⟨(change result).id, 0⟩ = func.value interp inputs result

theorem construct_network (wf : func.WF) {ie : InferenceEngine}
    {device : String} {exec : Executable} (nontrivial : trivial_fn func = false)
    (built : construct ie func device = .ok exec) : exec.m_trivial_fn = none ∧
      exec.m_skipped_inputs = skipped_inputs func ∧
        ∃ network, exec.m_network = some network ∧
        hoistParams (withUsedParameters func) =
          .ok (network, exec.m_hoisted_params) := by
  have isUsed := usedFunction_eq wf
  unfold usedFunction at isUsed
  unfold construct at built
  split at built
  case h_1 => simp at built
  case h_2 =>
    dsimp only at built
    rw [isUsed, trivial_fn_used wf, nontrivial, if_neg (by simp)] at built
    obtain ⟨⟨network, hoisted⟩, isHoisted, built⟩ := bind_ok built
    obtain ⟨_, _, built⟩ := bind_ok built
    obtain rfl := Except.ok.inj built
    exact ⟨rfl, rfl, network, rfl, isHoisted⟩

theorem compiled_used (wf : func.WF) (some_ : used_parameters func ≠ []) :
    Compiled func (withUsedParameters func) [] id where
  wf := withUsedParameters_wf wf
  params := by
    rw [inputNodes, if_neg (by simpa using some_)]
    rfl
  results := (List.map_id _).symm
  name := by
    intro result member
    simp only [id, get_output_name, withUsedParameters_parent wf member]
  given := .inl ⟨rfl, rfl⟩
  value := by
    intro interp inputs named isNamed _ result member
    obtain ⟨inUsed, _⟩ := (withUsedParameters_wf wf).results result member
    apply withUsedParameters_evaluate wf _ inUsed
    intro param isUsed
    obtain ⟨isParam, used⟩ := List.mem_filter.mp isUsed
    obtain ⟨k, atK⟩ := List.mem_iff_getElem?.mp isParam
    have inOps := ((withUsedParameters_wf wf).param param isUsed).1
    rw [(withUsedParameters_wf wf).node_eq inOps,
      isNamed k param atK (by simpa using used), argument, wf.findIdx_param atK]

theorem compiled_hoist (wf : func.WF) (none_ : used_parameters func = [])
    {constant : Node} {value : NGraph.Tensor}
    (found : firstHoistable func.ops = some (constant, value)) :
    Compiled func (hoist (withUsedParameters func) constant value)
      [(constant.friendly_name, value)]
      (hoistNode (withUsedParameters func) constant value) := by
  have usedWf := withUsedParameters_wf wf
  have foundUsed : firstHoistable (withUsedParameters func).ops =
      some (constant, value) := by
    rw [← found]
    exact firstHoistable_filter func.ops
  obtain ⟨isOp, kind⟩ := firstHoistable_some foundUsed
  have hoistWf := hoist_wf usedWf none_ isOp kind
  have resultOp : ∀ result ∈ func.results,
      result ∈ (withUsedParameters func).ops :=
    fun result member => (usedWf.results result member).1
  constructor
  case wf => exact hoistWf
  case params =>
    rw [inputNodes, none_, if_pos List.isEmpty_nil, found]
    rfl
  case results => rfl
  case name =>
    intro result member
    have isInput : result.input_value 0 ∈ result.input_values :=
      input_value_mem wf member
    have first :
        (hoistNode (withUsedParameters func) constant value result).input_value
          0 =
        hoistOutput (withUsedParameters func) constant
          (result.input_value 0) := by
      obtain ⟨input, isOne, _⟩ := usedWf.resultInputs (resultOp result member)
        (usedWf.results result member).2
      rw [Node.input_value, Node.input_value,
        hoistNode_input_values usedWf isOp kind (resultOp result member), isOne]
      rfl
    have isParent := (usedWf.source_mem (resultOp result member) isInput).1
    rw [get_output_name, parent, first,
      hoist_source usedWf isOp kind (resultOp result member) isInput,
      hoistNode_outputs usedWf isOp kind isParent,
      hoistNode_friendly_name usedWf isOp isParent]
    change _ = get_output_name func result
    rw [get_output_name, ← withUsedParameters_parent wf member]
    rfl
  case given => exact .inr ⟨none_, rfl, rfl⟩
  case value =>
    intro interp inputs named _ isHoisted result member
    have given : named ((hoist (withUsedParameters func) constant value).node
        (withUsedParameters func).nextId).friendly_name = value := by
      have constantNode := hoist_node usedWf isOp kind isOp
      rw [hoistId, if_pos (by simp)] at constantNode
      rw [constantNode, hoistNode_friendly_name usedWf isOp isOp]
      exact isHoisted _ (List.mem_singleton_self _)
    have here := @hoist_evaluate _ interp constant value usedWf none_ isOp kind
      (func.argument inputs) (fun id =>
        named ((hoist (withUsedParameters func) constant value).node
            id).friendly_name) given
      result (resultOp result member) 0
    rw [← hoistNode_id] at here
    refine here.trans ?_
    apply withUsedParameters_evaluate wf _ (resultOp result member)
    intro param isUsed
    simp [none_] at isUsed

theorem compiled_of_hoistParams (wf : func.WF) {network : Function}
    {m_hoisted_params : List (String × NGraph.Tensor)}
    (success : hoistParams (withUsedParameters func) =
      .ok (network, m_hoisted_params)) :
    ∃ change, Compiled func network m_hoisted_params change := by
  by_cases none_ : used_parameters func = []
  · cases found : firstHoistable (withUsedParameters func).ops with
    | none => simp [hoistParams_none none_ found] at success
    | some entry =>
        obtain ⟨constant, value⟩ := entry
        rw [hoistParams_some none_ found] at success
        split at success
        case isTrue =>
          obtain ⟨rfl, rfl⟩ := Prod.mk.inj (Except.ok.inj success)
          refine ⟨_, compiled_hoist wf none_ ?_⟩
          rw [← found]
          exact (firstHoistable_filter func.ops).symm
        case isFalse => simp at success
  · have notEmpty : ¬ (withUsedParameters func).parameters.isEmpty = true :=
      fun isEmpty => none_ (List.isEmpty_iff.mp isEmpty)
    rw [hoistParams, if_neg notEmpty] at success
    obtain ⟨rfl, rfl⟩ := Prod.mk.inj (Except.ok.inj success)
    exact ⟨id, compiled_used wf none_⟩

theorem isSome_of_preallocated {outputs : List (Option NGraph.Tensor)}
    (preallocated : Preallocated func outputs) :
    List.Forall₂ (fun _ output => output.isSome = true)
      func.results outputs := by
  refine List.Forall₂.imp ?_ preallocated
  intro _ output isTensor
  obtain ⟨tensor, rfl, _⟩ := isTensor
  rfl

section Calls

variable {ie : InferenceEngine} {exec : Executable} {network : Function}
  {change : Node → Node} {inputs : List NGraph.Tensor}
  {outputs : List (Option NGraph.Tensor)}

/-- All names of a call, in the order of the calls of `SetBlob`. -/
theorem Compiled.names
    (compiled : Compiled func network exec.m_hoisted_params change) :
    (inputBindings func ++ hoistedBindings exec.m_hoisted_params ++
      outputBindings func).map Prod.fst =
      (inputNodes func).map Node.friendly_name ++ func.results.map
        (get_output_name func) := by
  have inputNames : (inputBindings func).map Prod.fst =
      (used_parameters func).map Node.friendly_name := by
    have filtered :
        (func.parameters.zipIdx.filter fun entry => !isUnused func entry.1).map
        Prod.fst = used_parameters func := by
      have all : func.parameters.zipIdx.map Prod.fst = func.parameters :=
        List.zipIdx_map_fst _ _
      rw [used_parameters]
      conv_rhs => rw [← all]
      rw [List.filter_map]
      rfl
    rw [← filtered, List.map_map, inputBindings, List.map_map]
    rfl
  have hoistedNames : (hoistedBindings exec.m_hoisted_params).map Prod.fst =
      exec.m_hoisted_params.map Prod.fst := by
    conv_rhs => rw [← List.zipIdx_map_fst 0 exec.m_hoisted_params]
    rw [hoistedBindings, List.map_map, List.map_map]
    rfl
  have outputNames : (outputBindings func).map Prod.fst =
      func.results.map (get_output_name func) := by
    conv_rhs => rw [← List.zipIdx_map_fst 0 func.results]
    rw [outputBindings, List.map_map, List.map_map]
    rfl
  rw [List.map_append, List.map_append, inputNames, hoistedNames, outputNames,
    ← compiled.params]
  cases compiled.given with
  | inl used => simp [used.1, used.2]
  | inr hoisted => simp [hoisted.1, hoisted.2.2]

theorem Compiled.setBlobs_ok
    (compiled : Compiled func network exec.m_hoisted_params change)
    (documented : Documented ie interp)
    (skipped : exec.m_skipped_inputs = skipped_inputs func)
    (accepts : func.Accepts inputs) (preallocated : Preallocated func outputs) :
    setBlobs ie exec network inputs outputs = .ok
      (inputBindings func ++ hoistedBindings exec.m_hoisted_params ++
        outputBindings func) := by
  have known : ∀ name ∈ network.parameters.map Node.friendly_name,
      (ie.getInputsInfo network).contains name = true := by
    intro name member
    obtain ⟨param, isParam, same⟩ := List.mem_map.mp member
    exact List.contains_iff_mem.mpr
      ((documented.inputs network name).mpr ⟨param, isParam, same⟩)
  have skips : ∀ (j : Nat) param, func.parameters[j]? = some param →
      exec.m_skipped_inputs.contains (0 + j) = !!isUnused func param := by
    intro j param atJ
    rw [skipped, Nat.zero_add, Bool.not_not]
    apply Bool.eq_iff_iff.mpr
    rw [List.contains_iff_mem, skipped_inputs_mem]
    constructor
    · rintro ⟨other, atOther, unused⟩
      obtain rfl : param = other := Option.some.inj (atJ.symm.trans atOther)
      exact unused
    · exact fun unused => ⟨param, atJ, unused⟩
  have fromInputs :
      inputBlobs (ie.getInputsInfo network) exec.m_skipped_inputs 0 inputs
      network.parameters = .ok (inputBindings func) := by
    cases compiled.given with
    | inl used =>
        rw [← List.append_nil network.parameters, used.1]
        apply inputBlobs_ok accepts.length_eq skips
        intro param isParam isUsed
        apply known
        rw [used.1]
        exact List.mem_map_of_mem (List.mem_filter.mpr ⟨isParam, isUsed⟩)
    | inr hoisted =>
        have noneUsed :
            func.parameters.filter (fun param => !isUnused func param) = [] :=
          hoisted.1
        rw [← List.nil_append network.parameters, ← noneUsed]
        apply inputBlobs_ok accepts.length_eq skips
        intro param isParam isUsed
        have impossible : param ∈ used_parameters func :=
          List.mem_filter.mpr ⟨isParam, isUsed⟩
        simp [hoisted.1] at impossible
  have fromHoisted :
      hoistedBlobs (ie.getInputsInfo network) exec.m_hoisted_params =
      hoistedBindings exec.m_hoisted_params := by
    rw [hoistedBlobs, hoistedBindings, List.filter_eq_self.mpr]
    intro entry member
    cases compiled.given with
    | inl used => simp [used.2] at member
    | inr hoisted =>
        apply known
        rw [← hoisted.2.2]
        exact List.mem_map_of_mem (List.fst_mem_of_mem_zipIdx member)
  have fromOutputs : outputBlobs network 0 network.results outputs =
      .ok (outputBindings func) := by
    rw [compiled.results, outputBlobs_ok (List.forall₂_map_left_iff.mpr
      (isSome_of_preallocated preallocated)), List.zipIdx_map, List.map_map]
    apply congrArg Except.ok
    apply List.map_congr_left
    intro entry member
    have isResult : entry.1 ∈ func.results := List.fst_mem_of_mem_zipIdx member
    simp only [Function.comp_apply, Prod.map_fst, Prod.map_snd,
      compiled.name entry.1 isResult, id]
  unfold setBlobs
  dsimp only
  rw [fromInputs, fromOutputs, fromHoisted]
  rfl

theorem binding_iff {m_hoisted_params : List (String × NGraph.Tensor)}
    {name : String} {blob : Blob} :
    (name, blob) ∈
        inputBindings func ++ hoistedBindings m_hoisted_params ++
          outputBindings func ↔
      match blob with
      | .input i => ∃ param, func.parameters[i]? = some param ∧
      isUnused func param = false ∧
          param.friendly_name = name
      | .hoisted k =>
          ∃ entry, m_hoisted_params[k]? = some entry ∧ entry.1 = name
      | .output j =>
          ∃ result, func.results[j]? = some result ∧
            get_output_name func result = name
      | .earlier _ => False := by
  rw [List.mem_append, List.mem_append, inputBindings, hoistedBindings,
    outputBindings, List.mem_map, List.mem_map, List.mem_map]
  cases blob <;> simp [List.mem_zipIdx_iff_getElem?, and_assoc]

/-- A blob has one name. -/
theorem blob_name {m_hoisted_params : List (String × NGraph.Tensor)}
    {left right : String} {blob : Blob} (isLeft : (left, blob) ∈
      inputBindings func ++ hoistedBindings m_hoisted_params ++
        outputBindings func)
    (isRight : (right, blob) ∈
      inputBindings func ++ hoistedBindings m_hoisted_params ++
        outputBindings func) :
    left = right := by
  have leftOf := binding_iff.mp isLeft
  have rightOf := binding_iff.mp isRight
  cases blob with
  | input i =>
      obtain ⟨param, atLeft, _, rfl⟩ := leftOf
      obtain ⟨other, atRight, _, rfl⟩ := rightOf
      rw [Option.some.inj (atLeft.symm.trans atRight)]
  | hoisted k =>
      obtain ⟨entry, atLeft, rfl⟩ := leftOf
      obtain ⟨other, atRight, rfl⟩ := rightOf
      rw [Option.some.inj (atLeft.symm.trans atRight)]
  | output j =>
      obtain ⟨result, atLeft, rfl⟩ := leftOf
      obtain ⟨other, atRight, rfl⟩ := rightOf
      rw [Option.some.inj (atLeft.symm.trans atRight)]
  | earlier k => exact leftOf.elim

/-- With distinct names, a call of the network computes the results. -/
theorem Compiled.call
    (compiled : Compiled func network exec.m_hoisted_params change)
    (documented : Documented ie interp)
    (skipped : exec.m_skipped_inputs = skipped_inputs func)
    (accepts : func.Accepts inputs) (preallocated : Preallocated func outputs)
    (nonempty : func.results ≠ [])
    (distinct : ((inputNodes func).map Node.friendly_name ++
      func.results.map (get_output_name func)).Nodup) (request : Request) :
    CallNetwork ie exec network request inputs outputs =
      .ok (func.results.map fun result =>
        some (func.value interp inputs result)) := by
  let bindings :=
    inputBindings func ++ hoistedBindings exec.m_hoisted_params ++
      outputBindings func
  let blobs := bindings.foldl bind fun name => .earlier (request.blobs name)
  let before := memory exec request inputs outputs
  have names : bindings.map Prod.fst =
      (inputNodes func).map Node.friendly_name ++
      func.results.map (get_output_name func) := compiled.names
  have bindingsDistinct : (bindings.map Prod.fst).Nodup := names ▸ distinct
  have bound : ∀ {name blob}, (name, blob) ∈ bindings → blobs name = blob :=
    foldl_bind_of_mem bindingsDistinct
  have networkNames : blobNames network = bindings.map Prod.fst := by
    rw [names, blobNames, compiled.params, compiled.results, List.map_map]
    apply congrArg (_ ++ ·)
    apply List.map_congr_left
    exact fun result member => compiled.name result member
  have apart : ∀ name ∈ blobNames network, ∀ other ∈ blobNames network,
      blobs name = blobs other → name = other := by
    intro name isName other isOther same
    rw [networkNames] at isName isOther
    obtain ⟨⟨_, left⟩, leftIn, rfl⟩ := List.mem_map.mp isName
    obtain ⟨⟨_, right⟩, rightIn, rfl⟩ := List.mem_map.mp isOther
    rw [bound leftIn, bound rightIn] at same
    subst same
    exact blob_name leftIn rightIn
  have evaluated : ∀ result ∈ func.results,
      network.evaluate interp
        (fun id => before (blobs (network.node id).friendly_name))
        ⟨(change result).id, 0⟩ = func.value interp inputs result := by
    apply compiled.value interp inputs fun name => before (blobs name)
    · intro k param atK used
      have isBinding : (param.friendly_name, Blob.input k) ∈ bindings :=
        binding_iff.mpr ⟨param, atK, used, rfl⟩
      rw [bound isBinding]
      rfl
    · intro entry member
      obtain ⟨k, atK⟩ := List.mem_iff_getElem?.mp member
      have isBinding : (entry.1, Blob.hoisted k) ∈ bindings :=
        binding_iff.mpr ⟨entry, atK, rfl⟩
      rw [bound isBinding]
      simp only [before, memory, atK, Option.map_some, Option.getD_some]
  have enough : ¬ (ie.getInputsInfo network).length >
      inputs.length + exec.m_hoisted_params.length := by
    have subset : (ie.getInputsInfo network).length ≤
        network.parameters.length := by
      have sameLength : (network.parameters.map Node.friendly_name).length =
          network.parameters.length := List.length_map _
      rw [← sameLength]
      apply (List.subperm_of_subset (documented.distinct network) _).length_le
      intro name member
      obtain ⟨param, isParam, same⟩ :=
        (documented.inputs network name).mp member
      exact List.mem_map.mpr ⟨param, isParam, same⟩
    have lengths := accepts.length_eq
    have fewer : (used_parameters func).length ≤ func.parameters.length :=
      List.length_filter_le _ _
    cases compiled.given with
    | inl used =>
        rw [used.1] at subset
        omega
    | inr hoisted =>
        have one := congrArg List.length hoisted.2.2
        rw [List.length_map, List.length_map] at one
        omega
  have given : (if outputs.isEmpty && !(ie.getOutputsInfo network).isEmpty then
      List.replicate (ie.getOutputsInfo network).length none else outputs) =
        outputs := by
    have lengths := preallocated.length_eq
    cases outputs with
    | nil => exact absurd (List.eq_nil_of_length_eq_zero lengths) nonempty
    | cons output outputs => rfl
  unfold CallNetwork
  dsimp only
  rw [if_neg enough, given,
    compiled.setBlobs_ok documented skipped accepts preallocated]
  apply congrArg Except.ok
  rw [compiled.results, collect_ok (List.forall₂_map_left_iff.mpr
    (isSome_of_preallocated preallocated)), List.zipIdx_map, List.map_map]
  conv_rhs => rw [← List.zipIdx_map_fst 0 func.results]
  rw [List.map_map]
  apply List.map_congr_left
  rintro ⟨result, j⟩ member
  have atJ : func.results[j]? = some result :=
    List.mem_zipIdx_iff_getElem?.mp member
  have isResult := List.mem_of_getElem? atJ
  have isBinding : (get_output_name func result, Blob.output j) ∈ bindings :=
    binding_iff.mpr ⟨result, atJ, rfl⟩
  have inferred := documented.infer network blobs before compiled.wf
    (networkNames ▸ bindingsDistinct) apart (change result)
    (by rw [compiled.results]; exact List.mem_map_of_mem isResult)
  rw [compiled.name result isResult, bound isBinding,
    evaluated result isResult] at inferred
  exact congrArg some inferred

theorem preallocated_exists (func : Function) : ∃ outputs,
    Preallocated func outputs := by
  have each : ∀ result : Node, ∃ tensor,
      (result.get_output_type 0).Has tensor := by
    intro result
    cases isShape : (result.get_output_type 0).partial_shape with
    | dynamic =>
        refine ⟨.fill (result.get_output_type 0).element_type [] 0, rfl,
          fun shape static => ?_⟩
        exact absurd (isShape.symm.trans static) (by simp)
    | static shape =>
        refine ⟨.fill (result.get_output_type 0).element_type shape 0, rfl,
          fun other static => ?_⟩
        exact PartialShape.static.inj (isShape.symm.trans static)
  choose tensor has using each
  refine ⟨func.results.map fun result => some (tensor result), ?_⟩
  apply List.forall₂_map_right_iff.mpr
  apply List.forall₂_same.mpr
  intro result _
  exact ⟨_, rfl, has result⟩

end Calls

/-- The calls of a network bind every tensor under a name of its own, and so
give the outputs their values, if and only if no two results share an output, no
result is an input, and no output with an index has the name of a node. -/
theorem bindsCorrectly_iff (wf : func.WF)
    (unique : (func.ops.map Node.friendly_name).Nodup) {ie : InferenceEngine}
    (documented : Documented ie interp) {device : String} {exec : Executable}
    (nontrivial : trivial_fn func = false)
    (built : construct ie func device = .ok exec) :
    BindsCorrectly ie interp func exec ↔ Separate func := by
  obtain ⟨notTrivial, skipped, network, isNetwork, hoisted⟩ :=
    construct_network wf nontrivial built
  obtain ⟨change, compiled⟩ := compiled_of_hoistParams wf hoisted
  constructor
  · intro correct
    obtain ⟨outputs, preallocated⟩ := preallocated_exists func
    have accepts := distinguishing_accepts func 0
    obtain ⟨other, bindings, isOther, isBindings, distinct, _⟩ :=
      correct ⟨fun _ => 0, fun _ => default⟩ _ outputs accepts preallocated
    obtain rfl := Option.some.inj (isNetwork.symm.trans isOther)
    rw [compiled.setBlobs_ok documented skipped accepts preallocated]
      at isBindings
    obtain rfl := Except.ok.inj isBindings
    rw [compiled.names] at distinct
    exact (names_nodup_iff wf unique).mp distinct
  · intro separate request inputs outputs accepts preallocated
    have distinct := (names_nodup_iff wf unique).mpr separate
    have nonempty : func.results ≠ [] := by
      intro noResults
      rw [trivial_fn, noResults] at nontrivial
      simp at nontrivial
    refine ⟨network, _, isNetwork,
      compiled.setBlobs_ok documented skipped accepts preallocated, ?_,
      ?_, ?_, ?_⟩
    · rw [compiled.names]
      exact distinct
    · exact fun i param atI used => binding_iff.mpr ⟨param, atI, used, rfl⟩
    · exact fun j result atJ => binding_iff.mpr ⟨result, atJ, rfl⟩
    · unfold Call
      rw [notTrivial, isNetwork]
      exact compiled.call documented skipped accepts preallocated nonempty
        distinct request

/-- An engine that evaluates the network. -/
def evaluatingEngine (interp : Interpretation) : InferenceEngine where
  contains_op_type := fun _ => true
  LoadNetwork := fun _ _ => .ok ()
  getInputsInfo :=
    fun network => (network.parameters.map Node.friendly_name).dedup
  getOutputsInfo :=
    fun network => (network.results.map (get_output_name network)).dedup
  Infer := fun network blobs memory blob =>
    match network.results.find? fun result =>
      blobs (get_output_name network result) == blob with
    | some result => network.evaluate interp
        (fun id => memory (blobs (network.node id).friendly_name))
        ⟨result.id, 0⟩
    | none => memory blob

theorem evaluatingEngine_documented (interp : Interpretation) :
    Documented (evaluatingEngine interp) interp where
  distinct := fun _ => List.nodup_dedup _
  inputs := by
    intro network name
    rw [evaluatingEngine, List.mem_dedup, List.mem_map]
  infer := by
    intro network blobs memory _ distinct apart result isResult
    have found :
        (network.results.find? fun other =>
          blobs (get_output_name network other) ==
            blobs (get_output_name network result)) = some result := by
      have some_ :
          (network.results.find? fun other =>
            blobs (get_output_name network other) ==
              blobs (get_output_name network result)).isSome := by
        rw [List.find?_isSome]
        exact ⟨result, isResult, by simp⟩
      obtain ⟨other, isOther⟩ := Option.isSome_iff_exists.mp some_
      have inNames : ∀ {result}, result ∈ network.results →
          get_output_name network result ∈ blobNames network := fun member =>
        List.mem_append_right _ (List.mem_map_of_mem member)
      have otherResult := List.mem_of_find?_eq_some isOther
      have sameName := apart _ (inNames otherResult) _ (inNames isResult)
        (by simpa using List.find?_some isOther)
      rw [isOther, List.inj_on_of_nodup_map (List.nodup_append.mp distinct).2.1
        otherResult isResult sameName]
    simp only [evaluatingEngine, found]

/-- The negation of one of two parameters, as one or as two results. -/
def negated (twice : Bool) : Function :=
  let type : OutputType := ⟨.i8, .static [1]⟩
  let unused : Node := ⟨0, "unused", .Parameter, [], [type]⟩
  let x : Node := ⟨1, "x", .Parameter, [], [type]⟩
  let negative : Node := ⟨2, "negative", .op "Negative", [⟨1, 0⟩], [type]⟩
  let first : Node := ⟨3, "first", .Result, [⟨2, 0⟩], [type]⟩
  let second : Node := ⟨4, "second", .Result, [⟨2, 0⟩], [type]⟩
  if twice then
    ⟨[unused, x, negative, first, second], [first, second], [unused, x]⟩
  else
    ⟨[unused, x, negative, first], [first], [unused, x]⟩

theorem negated_wf (twice : Bool) : (negated twice).WF := by
  cases twice <;> constructor <;> decide

/-- Negation of the bytes. -/
def negation : Interpretation := fun _ arguments _ =>
  match arguments with
  | [x] => ⟨x.element_type, x.shape, x.data.map (- ·), by simp [x.full]⟩
  | _ => default

def negatedExecutable (twice : Bool) : Executable where
  m_device := "CPU"
  m_trivial_fn := none
  m_function := withUsedParameters (negated twice)
  m_network := some (withUsedParameters (negated twice))
  m_hoisted_params := []
  m_skipped_inputs := [0]

theorem construct_negated (twice : Bool) :
    construct (evaluatingEngine negation) (negated twice) "CPU" =
      .ok (negatedExecutable twice) := by
  cases twice <;> rfl

theorem bindsCorrectly_iff_negated :
    BindsCorrectly (evaluatingEngine negation) negation
    (negated false) (negatedExecutable false) := by
  apply (bindsCorrectly_iff (negated_wf false) (by decide)
      (evaluatingEngine_documented negation)
    (by decide) (construct_negated false)).mpr
  constructor
  case sources => decide
  case inputs => decide
  case indexed =>
    have single : ∀ result ∈ (negated false).results,
        (parent (negated false) result).outputs.length = 1 := by decide
    intro result isResult many
    rw [single result isResult] at many
    exact absurd many (by decide)

/-- Two results of one output have one blob name. -/
theorem bindsCorrectly_shared :
    construct (evaluatingEngine negation) (negated true) "CPU" =
      .ok (negatedExecutable true) ∧
      trivial_fn (negated true) = false ∧
      ¬ BindsCorrectly (evaluatingEngine negation) negation (negated true)
        (negatedExecutable true) := by
  refine ⟨construct_negated true, by decide, fun correct => ?_⟩
  have typed : ∀ byte : UInt8,
      (⟨.i8, .static [1]⟩ : OutputType).Has (.fill .i8 [1] byte) :=
    fun byte => ⟨rfl, fun _ same => PartialShape.static.inj same⟩
  obtain ⟨network, bindings, _, _, distinct, _, named, _⟩ :=
    correct ⟨fun _ => 0, fun _ => default⟩ [.fill .i8 [1] 0, .fill .i8 [1] 1]
      [some (.fill .i8 [1] 0), some (.fill .i8 [1] 0)]
      (.cons (typed 0) (.cons (typed 1) .nil))
      (.cons ⟨_, rfl, typed 0⟩ (.cons ⟨_, rfl, typed 0⟩ .nil))
  have first := named 0 _ rfl
  have second := named 1 _ rfl
  have same := List.inj_on_of_nodup_map distinct first second rfl
  exact absurd (congrArg Prod.snd same) (by decide)

end NGraphBridge.Executable
