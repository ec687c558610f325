import NGraphBridge.NGraphBuilder.TranslatedGraph
import NGraphBridge.NGraphRewritePass.Presented
import NGraphBridge.NGraphRewritePass.Values

/-!
# What a kernel computes

A kernel has the graph of its cluster translated for the tensors that it is run
with. The function takes what the encapsulate node reads, and gives what the
node stands for in the rewritten graph.
-/

namespace NGraphBridge.NGraphRewritePass

open TF MarkForClustering AssignClusters EncapsulateClusters NGraphBuilder

variable {V : Type}

/-- The tensors of a node. -/
def outputValues (val : Nat × Int → Tensor V) (node : Node) : List (Tensor V) :=
  (List.range node.num_outputs).map fun (slot : Nat) =>
    val (node.id, (slot : Int))

/-- The op makes of its inputs what the node has computed. -/
def Means (meaning : Meaning V) (graph : Graph) (val : Nat × Int → Tensor V)
    (node : Node) (op : OpNode) : Prop :=
  ∃ values, graph.Reads val node.id node.num_inputs values ∧
    meaning op values = some (outputValues val node)

/-- The tensors inside a cluster, by the names of its nodes. -/
def clusterValues (graph : Graph) (val : Nat × Int → Tensor V)
    (inputs : List (Nat × Int)) :
    NodeValues V := fun name =>
  match graph.op_nodes.find? (fun node => node.name == name) with
  | some node => outputValues val node
  | none => [insideVal graph val inputs (name, 0)]

section Tensors

variable {graph : Graph} {order : graph.Enumeration} {manager : ClusterManager}
  {outs : Int → List (Nat × Int)} {added : Int → List NodeDef}
  {enc : Encapsulator} {c : Int} {val : Nat × Int → Tensor V}
  {inputs : List (Nat × Int)}

theorem outputValues_getElem? {node : Node} {slot : Nat}
    (inside : slot < node.num_outputs) :
    (outputValues val node)[slot]? = some (val (node.id, (slot : Int))) := by
  rw [outputValues, List.getElem?_map, List.getElem?_range inside,
    Option.map_some]

theorem clusterValues_node (wf : graph.WF) {node : Node}
    (member : node ∈ graph.op_nodes) :
    clusterValues graph val inputs node.name = outputValues val node := by
  unfold clusterValues
  cases found : graph.op_nodes.find? (fun other => other.name == node.name) with
  | none => exact absurd (List.find?_eq_none.mp found node member) (by simp)
  | some other =>
      have otherIn := (List.mem_filter.mp (List.mem_of_find?_eq_some found)).1
      have sameName : other.name = node.name := by
        simpa using List.find?_some found
      dsimp only
      rw [wf.name_injective otherIn (List.mem_filter.mp member).1 sameName]

theorem clusterValues_argument (encapsulable : Encapsulable manager graph)
    {k : Nat} {tensor : Nat × Int} (atK : inputs[k]? = some tensor) :
    clusterValues graph val inputs (inputName k) = [val tensor] := by
  have noNode : graph.op_nodes.find? (fun node => node.name == inputName k) =
      none := by
    rw [List.find?_eq_none]
    intro node member
    simpa using encapsulable.generated node member k
  unfold clusterValues
  rw [noNode]
  dsimp only
  rw [insideVal_argument encapsulable atK]

theorem outputValues_feeds (wf : graph.WF) {src id : Nat} {slot input : Int}
    (feeds : graph.Feeds src slot id input) {place : Nat}
    (atSlot : slot = place) :
    (outputValues val (graph.node src))[place]? = some (val (src, slot)) := by
  obtain ⟨edge, member, data, rfl, rfl, _, _⟩ := feeds
  have inside := (wf.slots edge member data).1.2
  rw [atSlot] at inside
  rw [outputValues_getElem? (Int.ofNat_lt.mp inside), Graph.node_id, atSlot]

/-- What a node of the cluster reads. -/
theorem clusterValues_read (analysed : Analysed order manager outs added enc)
    (encapsulable : Encapsulable manager graph) {node : Node}
    (member : node ∈ graph.op_nodes) (inCluster : getNodeCluster node = .ok c)
    {src : Nat} {slot input : Int} (feeds : graph.Feeds src slot node.id input)
    {name : String} {place : Nat}
    (called : localTensor graph enc c (src, slot) = (name, (place : Int))) :
    (clusterValues graph val (enc.inputsOf c) name)[place]? =
      some (val (src, slot)) := by
  have wf := encapsulable.wf
  have nodeSelf := wf.node_eq (List.mem_filter.mp member).1
  obtain ⟨clustered, atC⟩ := clusterIdx_of inCluster
  have srcOp := (feeds_ends wf feeds).1.2
  have atSource := @outputValues_feeds V graph val wf _ _ _ _ feeds place
  obtain ⟨edge, inGraph, data, rfl, rfl, atDst, _⟩ := feeds
  cases analysed.localTensor wf inGraph data
    (by rw [atDst, nodeSelf, clustered]) (by rw [atDst, nodeSelf, atC]) with
  | inl own =>
      obtain ⟨rfl, atSlot⟩ := Prod.mk.inj (called.symm.trans own.2)
      rw [clusterValues_node wf srcOp]
      exact atSource atSlot.symm
  | inr border =>
      obtain ⟨k, atK, alsoCalled⟩ := border
      obtain ⟨rfl, isZero⟩ := Prod.mk.inj (called.symm.trans alsoCalled)
      obtain rfl : place = 0 := Int.ofNat_inj.mp isZero
      rw [clusterValues_argument encapsulable atK]
      rfl

end Tensors

variable [Inhabited V]

/-- What a kernel has at hand: the graph of its cluster, whose ops mean what the
nodes have computed, and the elements of constants and of static inputs. -/
structure KernelSees {opset : Opset} (library : NGraphBuilder.Library V opset)
    (meaning : Meaning V) (graph : Graph) (val : Nat × Int → Tensor V)
    (arguments : List (Tensor V)) (static_input_map : StaticInputMap)
    (ordered : List GraphNode) : Prop where
  means : ∀ op ∈ (partsOf ordered).tf_ops, ∀ node ∈ graph.op_nodes,
    node.name = op.name →
    Means meaning graph val node op
  constants : ∀ op ∈ (partsOf ordered).tf_ops, ∀ input slot tensor,
    (input, slot) ∈ op.inputs →
    input.type_string = "Const" → input.value = some tensor →
    ∀ node ∈ graph.op_nodes, node.name = input.name →
    tensor.values = (val (node.id, (slot : Int))).data.map library.toIndex
  statics : ∀ (index : Nat) tensor (argument : Tensor V),
    static_input_map[index]? = some (some tensor) →
    arguments[index]? = some argument →
    tensor.values = argument.data.map library.toIndex

section Cluster

variable {opset : Opset} {library : NGraphBuilder.Library V opset}
  {meaning : Meaning V} {graph : Graph} {order : graph.Enumeration}
  {manager : ClusterManager} {outs : Int → List (Nat × Int)}
  {added : Int → List NodeDef} {enc : Encapsulator} {c : Int}
  {ordered : List GraphNode} {val : Nat × Int → Tensor V}
  {arguments : List (Tensor V)} {static_input_map : StaticInputMap}

omit [Inhabited V] in
/-- An op reads what its node has read. -/
theorem Presented.inputValues
    (presented : Presented graph order manager outs added enc c ordered)
    {op : OpNode} {node : Node} (isCopy : IsCopyOf graph order enc c op node)
    {values : List (Tensor V)}
    (reads : graph.Reads val node.id node.num_inputs values) :
    op.inputValues (clusterValues graph val (enc.inputsOf c)) =
      some values := by
  obtain ⟨member, inCluster, node_def, copied, isNode⟩ := isCopy
  have wf := presented.encapsulable.wf
  have fed : ∀ input < node.num_inputs, ∃ src slot,
      graph.Feeds src slot node.id input := by
    intro input inside
    obtain ⟨tensor, feeds, _⟩ := reads.input inside
    exact ⟨tensor.1, tensor.2, feeds⟩
  obtain ⟨_, _, _, texts⟩ :=
    copyDef_inputs wf presented.encapsulable.legal presented.analysed fed copied
  have named : List.Forall₂ (fun (input : InputNode × Nat) text =>
      (input.1.name, (input.2 : Int)) = parseTensorName text) op.inputs
        node_def.dataInputs := by
    have same := isNode.inputs
    rw [← List.forall₂_eq_eq_eq, List.forall₂_map_left_iff,
      List.forall₂_map_right_iff] at same
    exact same
  have tensors :
      List.Forall₂ (fun (input : Nat) (source : InputNode × Nat) => ∃ src slot,
      graph.Feeds src slot node.id input ∧
      localTensor graph enc c (src, slot) = (source.1.name, (source.2 : Int)))
      (List.range node.num_inputs) op.inputs := by
    apply (Slots.join texts.flip named.flip _)
    rintro text _ input source ⟨src, slot, feeds, parsed⟩ same
    exact ⟨src, slot, feeds, parsed.symm.trans same.symm⟩
  apply Slots.mapM_iff.mpr
  apply Slots.join tensors reads
  rintro input _ source value ⟨src, slot, feeds, called⟩
    ⟨tensor, alsoFeeds, rfl⟩
  obtain ⟨sameSrc, sameSlot⟩ := wf.single_feeds alsoFeeds feeds
  rw [show tensor = (src, slot) from Prod.ext sameSrc sameSlot]
  exact clusterValues_read presented.analysed presented.encapsulable member
    inCluster feeds called

omit [Inhabited V] in
theorem Presented.evaluates
    (presented : Presented graph order manager outs added enc c ordered)
    (means : ∀ op ∈ (partsOf ordered).tf_ops, ∀ node ∈ graph.op_nodes,
      node.name = op.name →
      Means meaning graph val node op) :
    EvaluatesParts meaning ((enc.inputsOf c).map val)
      (clusterValues graph val (enc.inputsOf c)) (partsOf ordered) := by
  constructor
  case arg =>
    intro parm member index hasIndex
    obtain ⟨k, isArg⟩ := presented.params member
    obtain ⟨named, atIndex⟩ := isArg.index
    obtain rfl : k = index :=
      Int.ofNat_inj.mp (Except.ok.inj (atIndex.symm.trans hasIndex))
    obtain ⟨tensor, atInput⟩ := isArg.input
    refine ⟨val tensor, ?_, ?_⟩
    · rw [List.getElem?_map, atInput, Option.map_some]
    · rw [named, clusterValues_argument presented.encapsulable atInput]
  case op =>
    intro op member
    obtain ⟨_, node, isCopy⟩ := presented.ops member
    have named := isCopy.name
    obtain ⟨values, reads, meant⟩ := means op member node isCopy.1 named.symm
    refine ⟨values, presented.inputValues isCopy reads, ?_⟩
    rw [named, clusterValues_node presented.encapsulable.wf isCopy.1]
    exact meant

/-- Where the elements of a static input come from. -/
theorem getStaticNodeTensor_inv {input : InputNode} {tensor : StaticTensor}
    (success : getStaticNodeTensor input static_input_map = .ok tensor) :
    (input.type_string = "_Arg" ∧ ∃ index : Nat,
      getNodeAttrInt input.attrs "index" = .ok (index : Int) ∧
      static_input_map[index]? = some (some tensor)) ∨
    (input.type_string = "Const" ∧ input.value = some tensor) := by
  unfold getStaticNodeTensor at success
  split at success
  next isArg =>
    obtain ⟨arg_index, hasIndex, success⟩ := bind_ok success
    split at success
    next => exact absurd success (by simp)
    next nonnegative =>
      obtain ⟨index, rfl⟩ := Int.eq_ofNat_of_zero_le (Int.not_lt.mp nonnegative)
      rw [Int.toNat_natCast] at success
      refine .inl ⟨isArg, index, returnIfError_iff.mp hasIndex, ?_⟩
      cases atMap : static_input_map[index]? with
      | none => simp [atMap] at success
      | some entry =>
          cases entry with
          | none => simp [atMap] at success
          | some source_tensor =>
              simp only [atMap] at success
              rw [Except.ok.inj success]
  next =>
    split at success
    next isConst =>
      cases hasValue : input.value with
      | none => simp [hasValue] at success
      | some result =>
          simp only [hasValue] at success
          exact .inr ⟨isConst, congrArg some (Except.ok.inj success)⟩
    next => exact absurd success (by simp)

/-- A static input is found with the elements that it has. -/
theorem Presented.current
    (presented : Presented graph order manager outs added enc c ordered)
    (sees : KernelSees library meaning graph val ((enc.inputsOf c).map val)
      static_input_map ordered)
    {op : OpNode} (member : op ∈ (partsOf ordered).tf_ops) :
    StaticsCurrent library.toIndex (clusterValues graph val (enc.inputsOf c))
      static_input_map
      op := by
  intro input slot tensor value isInput found isValue
  obtain ⟨n, inOrdered, visited, _, _, rfl⟩ := partsOf_mem.2.1.mp member
  obtain ⟨source, sourceIn, sourceVisited, sameName, sameType, sameAttrs⟩ :=
    presented.presents.input n inOrdered visited (input, slot) isInput
  dsimp only at sameName sameType sameAttrs
  cases getStaticNodeTensor_inv found with
  | inl isArg =>
      obtain ⟨isArg, index, hasIndex, atMap⟩ := isArg
      have argument : source.isArg = true := by
        rw [GraphNode.isArg, sameType, isArg]
        rfl
      obtain ⟨k, isArgOf⟩ :=
        presented.params
          (partsOf_mem.1.mpr ⟨source, sourceIn, sourceVisited, argument, rfl⟩)
      obtain ⟨named, atIndex⟩ := isArgOf.index
      rw [sameAttrs, hasIndex] at atIndex
      obtain rfl := Int.ofNat_inj.mp (Except.ok.inj atIndex)
      obtain ⟨tensorIn, atInput⟩ := isArgOf.input
      rw [← sameName, named,
        clusterValues_argument presented.encapsulable atInput] at isValue
      obtain ⟨inside, isValue⟩ := List.getElem?_eq_some_iff.mp isValue
      obtain rfl : slot = 0 := Nat.lt_one_iff.mp inside
      have isArgument : ((enc.inputsOf c).map val)[index]? = some value := by
        rw [List.getElem?_map, atInput, Option.map_some]
        exact congrArg some isValue
      exact sees.statics index tensor value atMap isArgument
  | inr isConst =>
      obtain ⟨isConst, hasValue⟩ := isConst
      rcases presented.cases sourceIn sourceVisited
        with ⟨_, isArg⟩ | ⟨_, isRetval⟩ | ⟨node, isCopy⟩
      · have arg := isArg.isArg.2
        rw [GraphNode.isArg, sameType, isConst] at arg
        exact absurd arg (by decide)
      · have retval := isRetval.isRetval.2.2
        rw [GraphNode.isRetval, sameType, isConst] at retval
        exact absurd retval (by decide)
      · have named := (presented.isOp isCopy).2
        rw [← sameName, named,
          clusterValues_node presented.encapsulable.wf isCopy.1] at isValue
        have inside : slot < node.num_outputs := by
          have bound := (List.getElem?_eq_some_iff.mp isValue).1
          rwa [outputValues, List.length_map, List.length_range] at bound
        rw [outputValues_getElem? inside] at isValue
        rw [← Option.some.inj isValue]
        exact sees.constants _ member input slot tensor isInput isConst hasValue
          node isCopy.1 (named.symm.trans sameName)

omit [Inhabited V] in
/-- A result reads the tensor that it stands for. -/
theorem Presented.returned
    (presented : Presented graph order manager outs added enc c ordered)
    (val : Nat × Int → Tensor V) {n : OpNode} {k : Nat}
    (isRetval : IsRetvalOf graph outs c n k) :
    ∃ tensor input slot, (outs c)[k]? = some tensor ∧
      n.inputs = [(input, slot)] ∧
      input.name ∈ (partsOf ordered).tf_ops.map OpNode.name ∧
      (clusterValues graph val (enc.inputsOf c) input.name)[slot]? =
        some (val tensor) := by
  obtain ⟨output, dt, atK, isNode⟩ := isRetval
  have wf := presented.encapsulable.wf
  obtain ⟨edge, crosses, clustered, atC, rfl⟩ :=
    presented.analysed.outSource c output (List.mem_of_getElem? atK)
  have feeds : graph.Feeds edge.src edge.src_output edge.dst edge.dst_input :=
    ⟨edge, crosses.member, crosses.data, rfl, rfl, rfl, rfl⟩
  have srcOp := (feeds_ends wf feeds).1.2
  have nonneg := (wf.slots edge crosses.member crosses.data).1.1
  obtain ⟨text, single, parsed⟩ := @retvalDef_inputs k k _ _ dt
    (presented.encapsulable.legal _ (List.mem_filter.mp srcOp).1) nonneg
  have inputs := isNode.inputs
  rw [single, List.map_singleton, parsed] at inputs
  obtain ⟨⟨input, slot⟩, isInput, called⟩ := List.map_eq_singleton_iff.mp inputs
  obtain ⟨named, atSlot⟩ := Prod.mk.inj called
  obtain ⟨op, isOp, opName⟩ :=
    presented.opAt srcOp (by rw [getNodeCluster_of clustered, atC])
  refine ⟨_, input, slot, atK, isInput, ?_, ?_⟩
  · rw [named, ← opName]
    exact List.mem_map_of_mem isOp
  · rw [named, clusterValues_node wf srcOp]
    exact outputValues_feeds wf feeds atSlot.symm

/-- The function takes the tensors and gives the outputs. -/
structure IsFunctionOf (library : NGraphBuilder.Library V opset)
    (arguments outputs : List (Tensor V)) (func : NGraphBuilder.Function) :
    Prop where
  parameters : func.parameters.length = arguments.length
  parameter : ∀ (k : Nat) (argument : Tensor V), arguments[k]? = some argument →
    ∃ parameter, func.parameters[k]? = some parameter ∧
    parameter.shape = argument.shape
  results : func.results.length = outputs.length
  result : ∀ (k : Nat) (output : Tensor V), outputs[k]? = some output →
    ∃ result, func.results[k]? = some result ∧
      result.value.eval library (argumentAt arguments) = some output

variable {texts : DebugStrings} {table : TranslateOpMap} {name : String}
  {func : NGraphBuilder.Function}

end Cluster

section Node

variable {interp : Interpretation (Tensor V)}
  {library : EncapsulateClusters.Library} {graph_id : Int}
  {device_config : List (String × String)} {graph : Graph}
  {order : graph.Enumeration} {manager : ClusterManager}
  {outs : Int → List (Nat × Int)} {added : Int → List NodeDef}
  {enc : Encapsulator} {result : Rewritten} {val after : Nat × Int → Tensor V}
  {c : Int} {node : Node}

omit [Inhabited V] in
theorem encapsulate_reads (analysed : Analysed order manager outs added enc)
    (encapsulable : Encapsulable manager graph)
    (evaluates : graph.Evaluates interp val)
    (rewired : Rewired library enc graph_id device_config graph result)
    (solves : EvaluatesRewritten interp ⟨result, enc⟩ after)
    (encapsulate : IsEncapsulate library enc graph_id device_config c node)
    (mapped : result.cluster_node_map c = some node.id)
    {arguments : List (Tensor V)}
    (reads : result.graph.Reads after node.id node.num_inputs arguments) :
    arguments = (enc.inputsOf c).map val := by
  have lengths : arguments.length = (enc.inputsOf c).length :=
    reads.length.trans encapsulate.num_inputs
  apply List.ext_getElem? fun k => ?_
  by_cases inside : k < node.num_inputs
  · obtain ⟨moved, feeds, isArgument⟩ := reads.input inside
    obtain ⟨place, src, slot, same, atPlace, atMoved⟩ :=
      (rewired.feedsNew c node.id mapped moved.1 moved.2 k).mp feeds
    obtain rfl := Int.ofNat_inj.mp same
    obtain ⟨edge, crosses, _, _, isSource⟩ :=
      analysed.inSource c _ (List.mem_of_getElem? atPlace)
    have shown : Shown graph outs (src, slot) := by
      rw [isSource]
      exact shown_of_crossing analysed encapsulable.wf crosses
    have unique :=
      rewritten_unique analysed encapsulable evaluates rewired solves _ shown
    rw [atMoved] at unique
    rw [isArgument, List.getElem?_map, atPlace, Option.map_some]
    exact congrArg some unique
  · have outside := Nat.le_of_not_lt inside
    have isCount := reads.length
    rw [List.getElem?_eq_none (by omega),
      List.getElem?_eq_none (by rw [List.length_map]; omega)]

omit [Inhabited V] in
theorem encapsulate_gives (analysed : Analysed order manager outs added enc)
    (encapsulable : Encapsulable manager graph)
    (evaluates : graph.Evaluates interp val)
    (rewired : Rewired library enc graph_id device_config graph result)
    (solves : EvaluatesRewritten interp ⟨result, enc⟩ after)
    (encapsulate : IsEncapsulate library enc graph_id device_config c node)
    (mapped : result.cluster_node_map c = some node.id) :
    outputValues after node = (outs c).map val := by
  have lengths : node.num_outputs = (outs c).length :=
    encapsulate.num_outputs.trans (analysed.outLength c)
  apply List.ext_getElem? fun k => ?_
  by_cases inside : k < (outs c).length
  · have atK := List.getElem?_eq_getElem inside
    have shown :=
      (shown_of_output analysed encapsulable.wf (List.getElem_mem inside)).1
    have unique :=
      rewritten_unique analysed encapsulable evaluates rewired solves _ shown
    rw [moved_output analysed atK mapped] at unique
    rw [outputValues_getElem? (lengths ▸ inside), unique, List.getElem?_map,
      atK, Option.map_some]
  · have outside := Nat.le_of_not_lt inside
    have isCount : (outputValues after node).length = node.num_outputs := by
      rw [outputValues, List.length_map, List.length_range]
    rw [List.getElem?_eq_none (by omega),
      List.getElem?_eq_none (by rw [List.length_map]; omega)]

end Node

section Call

variable {bridge : Bridge} {request : Request} {statics after : Statics}
  {outcome : EncapsulateClusters.Outcome} {interp : Interpretation (Tensor V)}
  {val solution : Nat × Int → Tensor V}

/-- Nodes that were marked before the call have ops that may be marked. -/
def MarksKnown (graph : Graph) : Prop :=
  ∀ node ∈ graph.op_nodes, nodeIsMarkedForClustering node = true →
    HasOpset node.type_string

/-- What a call has gone through when it has rewritten its graph. -/
structure Phases (bridge : Bridge) (request : Request) (statics after : Statics)
    (outcome : EncapsulateClusters.Outcome) (update : Node → Node)
    (outs : Int → List (Nat × Int)) (added : Int → List NodeDef) : Prop where
  annotates : Annotates update
  graph : declustered bridge request statics = request.graph.mapNodes update
  encapsulable : Encapsulable (assigned bridge request statics).manager
    (declustered bridge request statics)
  analysed : Analysed
    (bridge.library.orders (declustered bridge request statics))
    (assigned bridge request statics).manager outs added outcome.enc
  rewired : Rewired bridge.library outcome.enc statics.s_serial_counter
    request.config_map (declustered bridge request statics) outcome.rewritten
  manager : after.manager = outcome.enc.manager
  unprocessed : Unprocessed (declustered bridge request statics)
  known : MarksKnown request.graph →
    ∀ node ∈ (declustered bridge request statics).op_nodes,
    isClustered node = true → HasOpset node.type_string

omit [Inhabited V] in
theorem phases_of_rewritten (rewritable : Rewritable request.graph)
    (success : rewrite bridge request statics = (after, .rewritten outcome)) :
    ∃ update outs added,
      Phases bridge request statics after outcome update outs added := by
  have ran : (rewrite bridge request statics).2 ≠ .skipped := by
    rw [success]
    simp
  obtain ⟨_, unprocessed⟩ := unprocessed_of_ran bridge request statics ran
  obtain ⟨status, encapsulation, sameManager⟩ := rewrite_ok success
  obtain ⟨predicate_map, state, tag, busted, clustered⟩ :=
    clustered_of_ok bridge request statics status
  obtain ⟨enc, analysis, encapsulation⟩ := bind_ok encapsulation
  obtain ⟨rewritten, rewrite_, encapsulation⟩ := bind_ok encapsulation
  obtain rfl := Except.ok.inj encapsulation
  have wf := clustered.wf
  obtain ⟨outs, added, analysed⟩ := analysisPass_analysed wf analysis
  obtain ⟨update, annotates, same⟩ := clustered.annotates
  refine ⟨update, outs, added, annotates, same,
    clustered.encapsulable rewritable, analysed,
    rewritePass_rewired wf analysed rewrite_, sameManager, ?_, ?_⟩
  · rw [same]
    exact annotates.unprocessed unprocessed
  · intro marks node member isClustered_
    have self := wf.node_eq (List.mem_filter.mp member).1
    rw [same] at member
    obtain ⟨other, otherIn, rfl⟩ := annotates.op_nodes.mp member
    have inCluster := getNodeCluster_of isClustered_
    rw [← self, annotates.id] at inCluster
    rw [annotates.type]
    cases clustered.clusterable otherIn inCluster with
    | inl before => exact marks other otherIn before
    | inr accepted => exact hasOpset_of_supported accepted.supported

variable {update : Node → Node} {outs : Int → List (Nat × Int)}
  {added : Int → List NodeDef} {opset : Opset}
  {library : NGraphBuilder.Library V opset} {meaning : Meaning V}
  {arguments : List (Tensor V)} {static_input_map : StaticInputMap}
  {ordered : List GraphNode}

omit [Inhabited V] in
theorem Phases.evaluates
    (phases : Phases bridge request statics after outcome update outs added)
    (oblivious : Oblivious interp)
    (evaluates : request.graph.Evaluates interp val) :
    (declustered bridge request statics).Evaluates interp val := by
  rw [phases.graph]
  exact phases.annotates.evaluates oblivious evaluates

/-- Annotations do not change what a kernel sees. -/
theorem Phases.sees
    (phases : Phases bridge request statics after outcome update outs added)
    (sees : KernelSees library meaning request.graph val arguments
      static_input_map ordered) :
    KernelSees library meaning (declustered bridge request statics) val
      arguments static_input_map
      ordered := by
  rw [phases.graph]
  have annotates := phases.annotates
  constructor
  case means =>
    intro op member node nodeIn named
    obtain ⟨old, oldIn, rfl⟩ := annotates.op_nodes.mp nodeIn
    obtain ⟨values, reads, means⟩ :=
      sees.means op member old oldIn ((annotates.name old).symm.trans named)
    refine ⟨values, ?_, ?_⟩
    · rw [annotates.id, annotates.inputs]
      exact reads
    · rw [means, outputValues, outputValues, annotates.id, annotates.outputs]
  case constants =>
    intro op member input slot tensor isInput isConst hasValue node nodeIn named
    obtain ⟨old, oldIn, rfl⟩ := annotates.op_nodes.mp nodeIn
    rw [annotates.id]
    exact sees.constants op member input slot tensor isInput isConst
      hasValue old oldIn ((annotates.name old).symm.trans named)
  case statics => exact sees.statics

omit [Inhabited V] in
/-- The rewritten graph can be evaluated. -/
theorem Phases.evaluable
    (phases : Phases bridge request statics after outcome update outs added)
    (oblivious : Oblivious interp)
    (evaluates : request.graph.Evaluates interp val) :
    ∃ solution, EvaluatesBridged after.manager interp outcome.rewritten.graph
      solution := by
  rw [phases.manager]
  exact ⟨_, (evaluatesBridged_rewritten phases.rewired phases.unprocessed).mpr
    (rewritten_exists phases.analysed phases.encapsulable
      (phases.evaluates oblivious evaluates) phases.rewired)⟩

omit [Inhabited V] in
/-- An encapsulate node stands for a cluster of the analysis. -/
theorem Phases.placed
    (phases : Phases bridge request statics after outcome update outs added)
    {node : Node} (member : node ∈ outcome.rewritten.graph.op_nodes)
    (isEncapsulate : node.type_string = "_nGraphEncapsulate") :
    ∃ c, outcome.rewritten.cluster_node_map c = some node.id ∧
      IsEncapsulate bridge.library outcome.enc statics.s_serial_counter
        request.config_map c node ∧
      after.manager.getClusterGraph c = some ⟨added c⟩ := by
  have inResult := (List.mem_filter.mp member).1
  obtain ⟨c, mapped⟩ :=
    (rewritten_type phases.rewired phases.unprocessed inResult).mp isEncapsulate
  obtain ⟨_, other, otherIn, sameId, encapsulate⟩ :=
    phases.rewired.placed c node.id mapped
  obtain rfl : other = node :=
    List.inj_on_of_nodup_map phases.rewired.ids otherIn inResult sameId
  obtain ⟨inside, insideOp, inCluster⟩ :=
    (phases.rewired.mapped c).mp (by simp [mapped])
  refine ⟨c, mapped, encapsulate, ?_⟩
  rw [phases.manager]
  exact phases.analysed.getClusterGraph phases.encapsulable insideOp inCluster

omit [Inhabited V] in
/-- The cluster of an encapsulate node. -/
theorem Phases.cluster
    (phases : Phases bridge request statics after outcome update outs added)
    (marks : MarksKnown request.graph) {node : Node}
    (member : node ∈ outcome.rewritten.graph.op_nodes)
    (isEncapsulate : node.type_string = "_nGraphEncapsulate")
    {cluster_idx : Int} {gdef : GraphDef}
    (hasCluster : getNodeAttrInt node.attrs "ngraph_cluster" = .ok cluster_idx)
    (stored : after.manager.getClusterGraph cluster_idx = some gdef)
    (presents : Presents gdef ordered) :
    outcome.rewritten.cluster_node_map cluster_idx = some node.id ∧
      IsEncapsulate bridge.library outcome.enc statics.s_serial_counter
        request.config_map cluster_idx node ∧
      Presented (declustered bridge request statics)
        (bridge.library.orders (declustered bridge request statics))
        (assigned bridge request statics).manager outs added outcome.enc
        cluster_idx ordered := by
  obtain ⟨c, mapped, encapsulate, atCluster⟩ :=
    phases.placed member isEncapsulate
  rw [encapsulate.cluster] at hasCluster
  obtain rfl := Except.ok.inj hasCluster
  rw [atCluster] at stored
  obtain rfl := Option.some.inj stored
  exact ⟨mapped, encapsulate, phases.analysed, phases.encapsulable,
    phases.known marks, presents⟩

/-- An encapsulate node of a rewritten graph whose kernel is run: `solution`
evaluates the rewritten graph, and the kernel has the graph of its cluster
translated in the given order. -/
structure KernelRun (bridge : Bridge) (request : Request)
    (statics after : Statics) (outcome : EncapsulateClusters.Outcome)
    (interp : Interpretation (Tensor V)) (val solution : Nat × Int → Tensor V)
    (library : NGraphBuilder.Library V opset) (meaning : Meaning V)
    (node : Node) (arguments : List (Tensor V))
    (static_input_map : StaticInputMap) (ordered : List GraphNode) : Prop where
  rewritable : Rewritable request.graph
  marks : MarksKnown request.graph
  oblivious : Oblivious interp
  evaluates : request.graph.Evaluates interp val
  rewritten : rewrite bridge request statics = (after, .rewritten outcome)
  solves : EvaluatesBridged after.manager interp
    outcome.rewritten.graph solution
  member : node ∈ outcome.rewritten.graph.op_nodes
  isEncapsulate : node.type_string = "_nGraphEncapsulate"
  cluster : ∃ cluster_idx gdef, getNodeAttrInt node.attrs "ngraph_cluster" =
    .ok cluster_idx ∧
    after.manager.getClusterGraph cluster_idx = some gdef ∧
    Presents gdef ordered
  reads : outcome.rewritten.graph.Reads solution node.id
    node.num_inputs arguments
  sees : KernelSees library meaning request.graph val arguments
    static_input_map ordered

/-- The cluster of the node, and what the node reads and gives. -/
theorem KernelRun.presented {node : Node}
    (run : KernelRun bridge request statics after outcome interp val solution
      library meaning node
      arguments static_input_map ordered) :
    ∃ outs added c, Presented (declustered bridge request statics)
        (bridge.library.orders (declustered bridge request statics))
        (assigned bridge request statics).manager outs added outcome.enc
        c ordered ∧
      KernelSees library meaning (declustered bridge request statics) val
        ((outcome.enc.inputsOf c).map val) static_input_map ordered ∧
      arguments = (outcome.enc.inputsOf c).map val ∧
      outputValues solution node = (outs c).map val ∧
      node.input_types = (outcome.enc.cluster_input_map c).map (·.2.2) := by
  obtain ⟨update, outs, added, phases⟩ :=
    phases_of_rewritten run.rewritable run.rewritten
  obtain ⟨c, gdef, hasCluster, stored, presents⟩ := run.cluster
  obtain ⟨mapped, encapsulate, presented⟩ :=
    phases.cluster run.marks run.member run.isEncapsulate hasCluster
      stored presents
  have evaluates := phases.evaluates run.oblivious run.evaluates
  have solves := run.solves
  rw [phases.manager] at solves
  have solves :=
    (evaluatesBridged_rewritten phases.rewired phases.unprocessed).mp solves
  have arguments :=
    encapsulate_reads phases.analysed phases.encapsulable evaluates
      phases.rewired solves encapsulate mapped run.reads
  have outputs :=
    encapsulate_gives phases.analysed phases.encapsulable evaluates
      phases.rewired solves encapsulate mapped
  refine ⟨outs, added, c, presented, arguments ▸ phases.sees run.sees,
    arguments, outputs, ?_⟩
  obtain ⟨_, _, _, _, _, _, _, same⟩ := encapsulate
  rw [same]
  rfl

/-- The function takes the tensors at its parameters and computes the outputs
at its results. -/
structure IsKernelOf (named : OpNames) (library : NGraphBuilder.Library V opset)
    (arguments outputs : List (Tensor V)) (ng_function : NodeFunction) :
    Prop where
  parameters : ng_function.parameters.length = arguments.length
  parameter : ∀ (k : Nat) (argument : Tensor V),
    arguments[k]? = some argument → ∃ id,
      ng_function.parameters[k]? = some id ∧
      (ng_function.heap.node id).op = .Parameter argument.shape
  results : ng_function.results.length = outputs.length
  result : ∀ (k : Nat) (output : Tensor V), outputs[k]? = some output →
    ∃ id, ng_function.results[k]? = some id ∧
      ng_function.Computes named library (argumentAt arguments) ⟨id, 0⟩ output

/-- The passes leave a function that does what the one before them does. -/
theorem IsFunctionOf.kept {passes : Passes}
    {library : NGraphBuilder.Library V passes.opset}
    {arguments outputs : List (Tensor V)} {func : NGraphBuilder.Function}
    {ng_function : NodeFunction}
    (isFunction : IsFunctionOf library arguments outputs func)
    (keeps : Keeps passes library (argumentAt arguments) func ng_function) :
    IsKernelOf passes.named library arguments outputs ng_function := by
  constructor
  · exact keeps.parameters.length_eq.trans isFunction.parameters
  · intro k argument atK
    obtain ⟨parameter, atParameter, sameShape⟩ :=
      isFunction.parameter k argument atK
    obtain ⟨id, atId, op⟩ := forall₂_getElem? keeps.parameters atParameter
    exact ⟨id, atId, sameShape ▸ op⟩
  · exact keeps.results.length_eq.trans isFunction.results
  · intro k output atK
    obtain ⟨result, atResult, evaluates⟩ := isFunction.result k output atK
    obtain ⟨id, atId, _, computes⟩ := forall₂_getElem? keeps.results atResult
    exact ⟨id, atId, computes output evaluates⟩

end Call

section Kernel

variable {V : Type} [Inhabited V] {bridge : Bridge} {request : Request}
  {statics after : Statics} {outcome : EncapsulateClusters.Outcome}
  {interp : Interpretation (Tensor V)} {val solution : Nat × Int → Tensor V}
  {passes : Passes} {library : NGraphBuilder.Library V passes.opset}
  {meaning : Meaning V} {arguments : List (Tensor V)}
  {static_input_map : StaticInputMap} {ordered : List GraphNode}
  {getEnv : String → String} {texts : DebugStrings} {name : String}
  {node : Node}

end Kernel

end NGraphBridge.NGraphRewritePass
