import NGraphBridge.NGraphEncapsulateOp.Constructor
import NGraphBridge.NGraphRewritePass.StaticInputs
import NGraphBridge.NGraphRewritePass.Translated

/-!
# The kernels of a rewritten graph

A kernel is made for every encapsulate node.  It finds the graph of its
cluster in the `ClusterManager`, and works out for itself which of its inputs
are static.  This agrees with what the rewrite has written at the node.
-/

namespace NGraphBridge.NGraphRewritePass

open TF MarkForClustering AssignClusters EncapsulateClusters NGraphEncapsulateOp

/-- `ConvertGraphDefToGraph` makes an `_Arg` only for a `NodeDef` of one. -/
def ArgsDefined (gdef : GraphDef) (graph : Graph) : Prop :=
  ∀ node ∈ graph.nodes, node.type_string = "_Arg" →
    ∃ node_def ∈ gdef.node, node_def.name = node.name ∧ node_def.op = "_Arg"

section Arguments

variable {graph : Graph} {order : graph.Enumeration} {manager : ClusterManager}
  {enc : Encapsulator} {outs : Int → List (Nat × Int)}
  {added : Int → List NodeDef} {c : Int} {inner : Graph}

/-- The `_Arg` nodes of a cluster stand for the tensors that it reads. -/
theorem argument_at (analysed : Analysed order manager outs added enc)
    (encapsulable : Encapsulable manager graph)
    (converts : Converts ⟨added c⟩ inner)
    (defined : ArgsDefined ⟨added c⟩ inner) {node : Node}
    (member : node ∈ inner.nodes) (isArg : node.type_string = "_Arg") :
    ∃ k < (enc.cluster_input_map c).length,
      node.name = inputName k ∧ IsArgAt inner node k := by
  obtain ⟨node_def, inDef, named, op⟩ := defined node member isArg
  cases (analysed.defs c node_def).mp inDef with
  | inl border =>
      cases border with
      | inl argument =>
          obtain ⟨k, input, atK, rfl⟩ := argument
          obtain ⟨other, otherIn, otherNamed, _, attrs⟩ :=
            converts.node _ inDef
          obtain rfl := converts.wf.name_injective otherIn member
            (otherNamed.trans named)
          refine ⟨k, (List.getElem?_eq_some_iff.mp atK).1, named.symm,
            member, isArg, ?_⟩
          rw [getNodeAttrInt, attrs "index" (.i k) rfl]
      | inr retval =>
          obtain ⟨_, _, _, _, _, rfl⟩ := retval
          simp [retvalDef] at op
  | inr copy =>
      obtain ⟨old, oldIn, inCluster, copied⟩ := copy
      rw [(copyDef_op copied).2] at op
      exact absurd op
        (encapsulable.pure old oldIn (clusterIdx_of inCluster).1).1

theorem arguments_numbered (analysed : Analysed order manager outs added enc)
    (encapsulable : Encapsulable manager graph)
    (converts : Converts ⟨added c⟩ inner)
    (defined : ArgsDefined ⟨added c⟩ inner) :
    ArgsNumbered inner (enc.cluster_input_map c).length := by
  have named : ∀ {node k}, IsArgAt inner node k → node.name = inputName k := by
    intro node k isArg
    obtain ⟨other, _, name, _, _, atOther⟩ :=
      argument_at analysed encapsulable converts defined isArg.1 isArg.2.1
    obtain rfl := Int.ofNat_inj.mp
      (Except.ok.inj (atOther.symm.trans isArg.2.2))
    exact name
  constructor
  case inside =>
    intro node member isArg
    obtain ⟨k, inside, _, atK⟩ :=
      argument_at analysed encapsulable converts defined member isArg
    exact ⟨k, inside, atK⟩
  case each =>
    intro k inside
    have inDef := (analysed.defs c _).mpr
      (.inl (.inl ⟨k, _, List.getElem?_eq_getElem inside, rfl⟩))
    obtain ⟨node, member, _, op, attrs⟩ := converts.node _ inDef
    refine ⟨node, member, op, ?_⟩
    rw [getNodeAttrInt, attrs "index" (.i k) rfl]
  case unique =>
    intro left right k leftArg rightArg
    exact converts.wf.name_injective leftArg.1 rightArg.1
      ((named leftArg).trans (named rightArg).symm)

/-- What the vector of the kernel says is what the node lists. -/
theorem argument_static_iff {count : Nat} (numbered : ArgsNumbered inner count)
    {order : inner.Enumeration} {static_input_indexes : List Int}
    (found : getGraphStaticInputs order inner.nodes = .ok static_input_indexes)
    {node : Node} {k : Nat} (isArg : IsArgAt inner node k) :
    argIsStatic order node = decide ((k : Int) ∈ static_input_indexes) := by
  rw [Bool.eq_iff_iff, decide_eq_true_iff, getGraphStaticInputs_iff found]
  constructor
  · intro isStatic
    exact ⟨node, isArg.1, isArg.2.1, isArg.2.2, isStatic⟩
  · intro listed
    obtain ⟨other, member, otherArg, atIndex, isStatic⟩ := listed
    obtain rfl := numbered.unique isArg ⟨member, otherArg, atIndex⟩
    exact isStatic

end Arguments

/-- A kernel can be made for every encapsulate node of a graph that was
rewritten, as long as its cluster is kept.  The kernel knows of each input of
the node whether it is static. -/
theorem construct_rewritten {bridge : Bridge} {request : Request}
    {statics after : Statics} {outcome : EncapsulateClusters.Outcome}
    (converts : ∀ gdef graph,
      bridge.library.convertGraphDefToGraph gdef = .ok graph →
      Converts gdef graph ∧ ArgsDefined gdef graph)
    (rewritable : Rewritable request.graph)
    (success : rewrite bridge request statics = (after, .rewritten outcome))
    {node : Node} (member : node ∈ outcome.rewritten.graph.op_nodes)
    (isEncapsulate : node.type_string = "_nGraphEncapsulate")
    {manager : ClusterManager}
    (kept : ∀ c, getNodeAttrInt node.attrs "ngraph_cluster" = .ok c →
      manager.getClusterGraph c = after.manager.getClusterGraph c)
    (flib : FunctionLibrary) :
    ∃ m_cluster_id m_graph,
      getNodeAttrInt node.attrs "ngraph_cluster" = .ok m_cluster_id ∧
      construct bridge.library manager flib node =
        .constructed m_graph ⟨m_cluster_id, node.name,
          (List.range node.num_inputs).map fun (k : Nat) =>
            decide ((k : Int) ∈ getStaticInputs node), node.output_types⟩ := by
  obtain ⟨_, outs, added, phases⟩ := phases_of_rewritten rewritable success
  obtain ⟨c, _, encapsulate, stored⟩ := phases.placed member isEncapsulate
  have hasCluster := encapsulate.cluster
  have atManager := (kept c hasCluster).trans stored
  rw [phases.manager] at stored
  obtain ⟨m_graph, converted, found⟩ := encapsulate_static encapsulate stored
  obtain ⟨isConverted, defined⟩ := converts _ _ converted
  have numbered := arguments_numbered phases.analysed phases.encapsulable
    isConverted defined
  have inputs : node.num_inputs = (outcome.enc.cluster_input_map c).length := by
    rw [encapsulate.num_inputs, Encapsulator.inputsOf, List.length_map]
  have vector := inputIsStaticVector_ok numbered
    fun _ _ isArg => argument_static_iff numbered found isArg
  have isGraph : clusterGraph bridge.library manager flib c = .ok m_graph := by
    rw [clusterGraph, atManager]
    dsimp only
    rw [converted]
  refine ⟨c, m_graph, hasCluster, ?_⟩
  rw [construct, hasCluster]
  dsimp only
  rw [isGraph]
  dsimp only
  rw [vector, inputs]

theorem reshapeGraph_rewritable : Rewritable reshapeRequest.graph :=
  rewritable_of_rising (by decide) (by decide) (by decide) (by decide)
    (by decide)

theorem reshapeBridge_defined (gdef : GraphDef) (graph : Graph)
    (success : reshapeBridge.library.convertGraphDefToGraph gdef = .ok graph) :
    Converts gdef graph ∧ ArgsDefined gdef graph := by
  refine ⟨reshapeBridge_converts gdef graph success, ?_⟩
  change (if gdef = reshapeDef then _ else _) = _ at success
  split at success
  case isTrue same =>
    obtain rfl := Except.ok.inj success
    subst same
    unfold ArgsDefined
    decide
  case isFalse => simp at success

/-- The shape is the static one of the two inputs. -/
theorem construct_rewritten_reshapeGraph : ∃ after outcome,
    rewrite reshapeBridge reshapeRequest .init = (after, .rewritten outcome) ∧
      ∃ node ∈ outcome.rewritten.graph.op_nodes, node.num_inputs = 2 ∧
        getStaticInputs node = [1] ∧ ∃ m_cluster_id m_graph,
          construct reshapeBridge.library after.manager (fun _ => none) node =
            .constructed m_graph ⟨m_cluster_id, node.name, [false, true],
              node.output_types⟩ := by
  have succeeds : (match rewrite reshapeBridge reshapeRequest .init with
      | (_, .rewritten outcome) =>
          outcome.rewritten.graph.op_nodes.any fun node =>
          node.type_string == "_nGraphEncapsulate" && node.num_inputs == 2 &&
            getStaticInputs node == [1]
      | _ => false) = true := by decide
  split at succeeds
  case h_1 after outcome call =>
    obtain ⟨node, member, holds⟩ := List.any_eq_true.mp succeeds
    obtain ⟨holds, isStatic⟩ := Bool.and_eq_true_iff.mp holds
    obtain ⟨isEncapsulate, inputs⟩ := Bool.and_eq_true_iff.mp holds
    have inputs := eq_of_beq inputs
    have isStatic := eq_of_beq isStatic
    obtain ⟨m_cluster_id, m_graph, _, made⟩ :=
      construct_rewritten reshapeBridge_defined reshapeGraph_rewritable call
        member (eq_of_beq isEncapsulate) (fun _ _ => rfl) fun _ => none
    refine ⟨after, outcome, call, node, member, inputs, isStatic, m_cluster_id,
      m_graph, ?_⟩
    rw [made, inputs, isStatic]
    rfl
  case h_2 => simp at succeeds

end NGraphBridge.NGraphRewritePass
