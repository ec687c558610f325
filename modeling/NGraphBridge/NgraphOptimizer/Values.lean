import NGraphBridge.NGraphRewritePass.Values
import NGraphBridge.NgraphOptimizer.Fetches
import NGraphBridge.NgraphOptimizer.WellFormed

/-!
# The optimizer keeps the fetches

`Optimize` writes out the graph that the rewrite leaves and does not look at the
status. What is fetched from that graph, with its clusters evaluated where they
are stored, is what the graph of the item computes.
-/

namespace NGraphBridge.NgraphOptimizer

open TF MarkForClustering EncapsulateClusters NGraphRewritePass
  NGraphBridge.Digraph

variable {V : Type}

section Existence

variable {graph : Graph}

/-- All inputs have their edges. -/
def Complete (graph : Graph) : Prop :=
  ∀ node ∈ graph.op_nodes, ∀ input < node.num_inputs,
    ∃ src src_output, graph.Feeds src src_output node.id input

/-- The outputs of a node, from those of the nodes that it reads. -/
noncomputable def nodeOutputs (graph : Graph) (interp : Interpretation V)
    (missing : V) (id : Nat)
    (outputs : ∀ src, graph.DataEdge src id → Int → V) : Int → V := by
  classical
  exact interp (graph.node id).name (graph.node id).type_string
    (graph.node id).attrs
    ((List.range (graph.node id).num_inputs).map fun (input : Nat) =>
      if fed : ∃ tensor : Nat × Int, graph.Feeds tensor.1 tensor.2 id input then
        outputs fed.choose.1 ⟨_, _, fed.choose_spec⟩ fed.choose.2
      else missing)

/-- A graph without cycles can be evaluated. -/
theorem evaluates_exists (wf : graph.WF) (acyclic : Acyclic graph.DataEdge)
    (complete : Complete graph) (interp : Interpretation V) (missing : V) :
    ∃ val, graph.Evaluates interp val := by
  have grounded := dataEdge_wellFounded wf acyclic
  let outputs : Nat → Int → V := grounded.fix (nodeOutputs graph interp missing)
  refine ⟨fun tensor => outputs tensor.1 tensor.2, ?_⟩
  intro node member
  have self := wf.node_eq (List.mem_filter.mp member).1
  classical
  refine ⟨(List.range node.num_inputs).map fun (input : Nat) =>
    if fed : ∃ tensor : Nat × Int,
      graph.Feeds tensor.1 tensor.2 node.id input then
      outputs fed.choose.1 fed.choose.2
    else missing, ?_, ?_⟩
  · rw [Graph.Reads, List.forall₂_map_right_iff, List.forall₂_same]
    intro input inside
    obtain ⟨src, slot, feeds⟩ :=
      complete node member input (List.mem_range.mp inside)
    have fed : ∃ tensor : Nat × Int,
        graph.Feeds tensor.1 tensor.2 node.id input :=
      ⟨(src, slot), feeds⟩
    refine ⟨fed.choose, fed.choose_spec, ?_⟩
    rw [dif_pos fed]
  · intro slot
    have unfolded : outputs node.id = nodeOutputs graph interp missing node.id
        fun src _ => outputs src := grounded.fix_eq _ _
    dsimp only
    rw [unfolded, nodeOutputs, self]

theorem reads_any {val other : Nat × Int → V} {id num_inputs : Nat}
    {values : List V} (reads : graph.Reads val id num_inputs values) :
    ∃ otherValues, graph.Reads other id num_inputs otherValues := by
  apply forall₂_of_forall
  intro input inside
  obtain ⟨tensor, feeds, _⟩ := reads.input (List.mem_range.mp inside)
  exact ⟨other tensor, tensor, feeds, rfl⟩

end Existence

section Feeds

/-- Ops of nodes that are fed give the fed values. -/
def feedInterp (interp : Interpretation V) (feed : String → Option (Int → V)) :
    Interpretation V := fun name op attrs values =>
  match feed name with
  | some outputs => outputs
  | none => interp name op attrs values

variable {interp : Interpretation V} {feed : String → Option (Int → V)}
  {graph : Graph} {val : Nat × Int → V}

theorem feedInterp_fed {name op : String} {attrs : AttrMap} {values : List V}
    {outputs : Int → V} (isFed : feed name = some outputs) :
    feedInterp interp feed name op attrs values = outputs := by
  simp only [feedInterp, isFed]

theorem feedInterp_unfed {name op : String} {attrs : AttrMap} {values : List V}
    (unfed : feed name = none) :
    feedInterp interp feed name op attrs values =
      interp name op attrs values := by
  simp only [feedInterp, unfed]

theorem oblivious_feedInterp (oblivious : Oblivious interp) :
    Oblivious (feedInterp interp feed) := by
  intro name op attrs other values slot same
  cases isFed : feed name with
  | some outputs => rw [feedInterp_fed isFed, feedInterp_fed isFed]
  | none =>
      rw [feedInterp_unfed isFed, feedInterp_unfed isFed]
      exact oblivious name op attrs other values slot same

theorem evaluatesFed_of_evaluates
    (evaluates : graph.Evaluates (feedInterp interp feed) val) :
    EvaluatesFed graph interp feed val := by
  intro node member
  obtain ⟨values, reads, computes⟩ := evaluates node member
  cases isFed : feed node.name with
  | some outputs =>
      intro slot
      rw [computes, feedInterp_fed isFed]
  | none =>
      refine ⟨values, reads, fun slot => ?_⟩
      rw [computes, feedInterp_unfed isFed]

/-- An evaluation of a rewritten graph in which the outputs of fed nodes are
given. Feeds do not reach into the clusters. -/
structure EvaluatesBridgedFed (manager : ClusterManager)
    (interp : Interpretation V) (feed : String → Option (Int → V))
    (graph : Graph) (val : Nat × Int → V) : Prop where
  fed : ∀ node ∈ graph.op_nodes, ∀ outputs, feed node.name = some outputs →
    ∀ slot, val (node.id, slot) = outputs slot
  op : ∀ node ∈ graph.op_nodes, feed node.name = none →
    node.type_string ≠ "_nGraphEncapsulate" → graph.Computes interp val node
  cluster : ∀ node ∈ graph.op_nodes, feed node.name = none →
    node.type_string = "_nGraphEncapsulate" →
    ComputesCluster manager interp graph val node

/-- Nodes that are not fed compute the same inside a cluster. -/
theorem gdef_feedInterp {gdef : GraphDef} {args : List V}
    {local_ : String × Int → V}
    (unfed : ∀ node_def ∈ gdef.node, node_def.op ≠ "_Arg" →
      node_def.op ≠ "_Retval" →
      feed node_def.name = none) :
    gdef.Evaluates (feedInterp interp feed) args local_ ↔
    gdef.Evaluates interp args local_ := by
  have same : ∀ node_def ∈ gdef.node, node_def.op ≠ "_Arg" →
      node_def.op ≠ "_Retval" →
      feedInterp interp feed node_def.name = interp node_def.name := by
    intro node_def member notArg notRetval
    funext op attrs values
    exact feedInterp_unfed (unfed node_def member notArg notRetval)
  constructor
  · intro evaluates
    refine ⟨evaluates.arg, fun node_def member notArg notRetval slot => ?_⟩
    rw [evaluates.op node_def member notArg notRetval,
      same node_def member notArg notRetval]
  · intro evaluates
    refine ⟨evaluates.arg, fun node_def member notArg notRetval slot => ?_⟩
    rw [evaluates.op node_def member notArg notRetval,
      same node_def member notArg notRetval]

theorem computesCluster_feedInterp {manager : ClusterManager}
    {names : String → Prop} (copies : CopiesFrom manager graph names)
    (unfed : ∀ name, names name → feed name = none) {node : Node}
    (member : node ∈ graph.op_nodes)
    (isEncapsulate : node.type_string = "_nGraphEncapsulate") :
    ComputesCluster manager (feedInterp interp feed) graph val node ↔
      ComputesCluster manager interp graph val node := by
  constructor
  · rintro ⟨idx, gdef, args, local_, hasCluster, stored, reads,
      evaluates, returns⟩
    have inside := fun node_def inDef notArg notRetval => unfed _
      (copies node member isEncapsulate idx gdef hasCluster stored node_def
        inDef notArg notRetval)
    exact ⟨idx, gdef, args, local_, hasCluster, stored, reads,
      (gdef_feedInterp inside).mp evaluates, returns⟩
  · rintro ⟨idx, gdef, args, local_, hasCluster, stored, reads,
      evaluates, returns⟩
    have inside := fun node_def inDef notArg notRetval => unfed _
      (copies node member isEncapsulate idx gdef hasCluster stored node_def
        inDef notArg notRetval)
    exact ⟨idx, gdef, args, local_, hasCluster, stored, reads,
      (gdef_feedInterp inside).mpr evaluates, returns⟩

/-- When neither a copy in a cluster nor a cluster itself is fed, the feeds can
be made part of the ops. -/
theorem evaluatesBridged_feedInterp {manager : ClusterManager}
    {names : String → Prop} (copies : CopiesFrom manager graph names)
    (unfed : ∀ name, names name → feed name = none)
    (clusters : ∀ node ∈ graph.op_nodes,
      node.type_string = "_nGraphEncapsulate" →
      feed node.name = none)
    (evaluable : ∃ some_,
      EvaluatesBridged manager (feedInterp interp feed) graph some_) :
    EvaluatesBridged manager (feedInterp interp feed) graph val ↔
      EvaluatesBridgedFed manager interp feed graph val := by
  constructor
  · intro evaluates
    constructor
    case fed =>
      intro node member outputs isFed slot
      have notEncapsulate : node.type_string ≠ "_nGraphEncapsulate" := by
        intro isEncapsulate
        simp [clusters node member isEncapsulate] at isFed
      obtain ⟨values, _, computes⟩ := evaluates.op node member notEncapsulate
      rw [computes, feedInterp_fed isFed]
    case op =>
      intro node member notFed notEncapsulate
      obtain ⟨values, reads, computes⟩ :=
        evaluates.op node member notEncapsulate
      refine ⟨values, reads, fun slot => ?_⟩
      rw [computes, feedInterp_unfed notFed]
    case cluster =>
      exact fun node member _ isEncapsulate =>
        (computesCluster_feedInterp copies unfed member isEncapsulate).mp
          (evaluates.cluster node member isEncapsulate)
  · intro evaluates
    obtain ⟨some_, found⟩ := evaluable
    constructor
    case op =>
      intro node member notEncapsulate
      cases isFed : feed node.name with
      | some outputs =>
          obtain ⟨_, reads, _⟩ := found.op node member notEncapsulate
          obtain ⟨values, otherReads⟩ := @reads_any _ _ _ val _ _ _ reads
          refine ⟨values, otherReads, fun slot => ?_⟩
          rw [evaluates.fed node member outputs isFed, feedInterp_fed isFed]
      | none =>
          obtain ⟨values, reads, computes⟩ :=
            evaluates.op node member isFed notEncapsulate
          refine ⟨values, reads, fun slot => ?_⟩
          rw [computes, feedInterp_unfed isFed]
    case cluster =>
      exact fun node member isEncapsulate =>
        (computesCluster_feedInterp copies unfed member isEncapsulate).mpr
          (evaluates.cluster node member (clusters node member isEncapsulate)
            isEncapsulate)

end Feeds

/-- An item whose graph can be rewritten, also after nodes get new names. -/
structure Optimizable (item : GrapplerItem)
    (newName : Nat → String → String) : Prop
    extends PureItem item where
  newNames : NewNames item.graph newName
  legal : ∀ node ∈ item.graph.nodes, LegalName node.name
  newLegal : ∀ counter base, LegalName base →
    LegalName (newName counter (base ++ "_ngraph"))
  generated : ∀ node ∈ item.graph.nodes, ∀ k, node.name ≠ inputName k
  newGenerated : ∀ counter base k, newName counter base ≠ inputName k
  clusterName : ∀ node ∈ item.graph.nodes, ∀ cluster_idx : Int,
    node.name ≠ "ngraph_cluster_" ++ toString cluster_idx
  loopFree : ∀ node ∈ item.graph.nodes, node.isNextIteration = false
  unmarked : ∀ node ∈ item.graph.nodes, nodeIsMarkedForClustering node = false
  unassigned : ∀ node ∈ item.graph.nodes,
    node.attrs.find "_ngraph_cluster" = none

/-- What the nodes keep when the identity nodes are added. -/
structure Ordinary (node : Node) : Prop where
  legal : LegalName node.name
  generated : ∀ k, node.name ≠ inputName k
  loopFree : node.isNextIteration = false
  unmarked : nodeIsMarkedForClustering node = false
  unassigned : node.attrs.find "_ngraph_cluster" = none

section Prepared

variable {item : GrapplerItem} {newName : Nat → String → String}

theorem optimize_wf (optimizable : Optimizable item newName)
    (disabled_ops_set : OrderedSet String) (name_counter : Nat) :
    (optimize newName disabled_ops_set name_counter item).graph.WF ∧
      ∀ node ∈
        (optimize newName disabled_ops_set name_counter item).graph.nodes,
        Ordinary node := by
  apply addIdentityN_wf optimizable.wf optimizable.newNames
  case rename =>
    intro counter node ordinary
    exact ⟨optimizable.newLegal counter node.name ordinary.legal,
      optimizable.newGenerated counter _, ordinary.loopFree, ordinary.unmarked,
      ordinary.unassigned⟩
  case identity =>
    intro id node ordinary
    exact ⟨ordinary.legal, ordinary.generated, rfl, rfl, rfl⟩
  case initial =>
    exact fun node member =>
      ⟨optimizable.legal node member, optimizable.generated node member,
      optimizable.loopFree node member, optimizable.unmarked node member,
      optimizable.unassigned node member⟩

variable {gets : Node → Prop} {copy : Nat → Option Nat} {name : Nat → String}
  {next : Graph}

/-- Nothing reads the identity nodes. -/
theorem acyclic_added (pure_ : PureItem item)
    (added : Added item.graph gets copy name next) :
    Acyclic next.DataEdge := by
  have source : ∀ {u v}, next.DataEdge u v → item.graph.HasNode u := by
    rintro u v ⟨a, b, feeds⟩
    cases (added.feeds u a v b).mp feeds with
    | inl old => exact (feeds_ends pure_.wf old).1.1
    | inr made =>
        obtain ⟨old, oldIn, _, rfl, _⟩ := made
        exact ⟨old, oldIn, rfl⟩
  have old : ∀ {u v}, next.DataEdge u v → item.graph.HasNode v →
      item.graph.DataEdge u v := by
    rintro u v ⟨a, b, feeds⟩ vNode
    cases (added.feeds u a v b).mp feeds with
    | inl old => exact ⟨a, b, old⟩
    | inr made =>
        obtain ⟨other, otherIn, found, _⟩ := made
        exact absurd vNode (added.new other otherIn v found)
  have path : ∀ {u v}, Relation.TransGen next.DataEdge u v →
      item.graph.HasNode v →
      Relation.TransGen item.graph.DataEdge u v := by
    intro u v steps
    induction steps with
    | single step => exact fun vNode => .single (old step vNode)
    | tail _ step ih =>
        exact fun vNode => .tail (ih (source step)) (old step vNode)
  intro vertex cycle
  obtain ⟨_, first, _⟩ := Relation.TransGen.head'_iff.mp cycle
  exact pure_.acyclic vertex (path cycle (source first))

theorem complete_added (pure_ : PureItem item)
    (added : Added item.graph gets copy name next) :
    Complete next := by
  intro node member input inside
  cases (added.nodes node).mp (List.mem_filter.mp member).1 with
  | inl isOld =>
      obtain ⟨old, oldIn, rfl⟩ := isOld
      have oldOp : old ∈ item.graph.op_nodes :=
        List.mem_filter.mpr ⟨oldIn, (List.mem_filter.mp member).2⟩
      obtain ⟨src, slot, feeds⟩ := pure_.complete old oldOp input inside
      exact ⟨src, slot, (added.feeds _ _ _ _).mpr (.inl feeds)⟩
  | inr isCopy =>
      obtain ⟨old, oldIn, id, found, rfl⟩ := isCopy
      exact ⟨old.id, input, (added.feeds _ _ _ _).mpr
        (.inr ⟨old, oldIn, found, rfl, rfl, input, rfl, inside⟩)⟩

theorem optimize_rewritable (optimizable : Optimizable item newName)
    (disabled_ops_set : OrderedSet String) (name_counter : Nat) :
    Rewritable (optimize newName disabled_ops_set name_counter item).graph := by
  obtain ⟨_, ordinary⟩ := optimize_wf optimizable disabled_ops_set name_counter
  obtain ⟨copy, name, added⟩ :=
    optimize_added optimizable.toPureItem optimizable.newNames.fresh
      disabled_ops_set name_counter
  have inNodes :
      ∀ node ∈
        (optimize newName disabled_ops_set name_counter item).graph.op_nodes,
      Ordinary node :=
        fun node member => ordinary node (List.mem_filter.mp member).1
  constructor
  case legal => exact fun node member => (ordinary node member).legal
  case generated => exact fun node member => (inNodes node member).generated
  case acyclic => exact acyclic_added optimizable.toPureItem added
  case loopFree => exact fun node member => (inNodes node member).loopFree
  case marks =>
    intro node member isMarked
    simp [(inNodes node member).unmarked] at isMarked

end Prepared

section Optimize

variable {item : GrapplerItem} {newName : Nat → String → String}

/-- What surrounds a call of `Optimize`. -/
structure Setting where
  bridge : Bridge
  environment : EncapsulateClusters.Environment
  config_map : List (String × String)
  enabled : Bool
  disabled_ops_set : OrderedSet String
  deassign : DeassignClusters.Environment
  name_counter : Nat

/-- The call of `Rewrite`. -/
def rewriteRequest (setting : Setting)
    (optimizable : Optimizable item newName) : Request where
  graph :=
    (optimize newName setting.disabled_ops_set setting.name_counter item).graph
  skip_these_nodes :=
    (optimize newName setting.disabled_ops_set setting.name_counter
        item).skip_these_nodes
  config_map := setting.config_map
  enabled := setting.enabled
  disabled_ops := setting.disabled_ops_set
  deassign := setting.deassign
  wf :=
    (optimize_wf optimizable setting.disabled_ops_set setting.name_counter).1
  unassigned := fun node member =>
    ((optimize_wf optimizable setting.disabled_ops_set setting.name_counter).2
        node member).unassigned

/-- The graph that is written out, whatever the status of `Rewrite`. -/
def optimized (setting : Setting) (optimizable : Optimizable item newName)
    (statics : NGraphRewritePass.Statics) : Graph :=
  graphAfter setting.bridge setting.environment
    (rewriteRequest setting optimizable) statics

variable (setting : Setting) (optimizable : Optimizable item newName)
  (statics : NGraphRewritePass.Statics)

/-- The node that bears the name of a fetch does not go into a cluster. -/
theorem bearer_stays (inv : statics.mark.Inv)
    (supported : Supported setting.disabled_ops_set) {f : String}
    (inFetch : f ∈ item.fetch) {node : Node}
    (member : node ∈ item.graph.op_nodes) (named : node.name = fetchName f) :
    ∃ bearer ∈ (rewriteRequest setting optimizable).graph.op_nodes,
      bearer.name = fetchName f ∧
      (∀ other ∈ (rewriteRequest setting optimizable).graph.nodes,
        other.name = fetchName f → other = bearer) ∧
      ¬ Clusterable setting.bridge (rewriteRequest setting optimizable) statics
        bearer := by
  have pure_ := optimizable.toPureItem
  obtain ⟨copy, name, added⟩ := optimize_added pure_ optimizable.newNames.fresh
    setting.disabled_ops_set setting.name_counter
  obtain ⟨bearer, bearerIn, bearerNamed, unique, notGiven, _⟩ :=
    exists_bearer pure_ added member
  rw [named] at bearerNamed unique
  refine ⟨bearer, bearerIn, bearerNamed, unique, ?_⟩
  have ordinary :=
    (optimize_wf optimizable setting.disabled_ops_set setting.name_counter).2
      bearer (List.mem_filter.mp bearerIn).1
  intro clusterable
  cases clusterable with
  | inl before => simp [ordinary.unmarked] at before
  | inr acceptable =>
      by_cases isDisabled : node.type_string ∈ setting.disabled_ops_set
      · have same := notGiven fun given => given.2.2.1 isDisabled
        exact acceptable.enabled inv supported (same ▸ isDisabled)
      · have inNodes := (List.mem_filter.mp member).1
        have fetched : node.name ∈ fetchNodes item := by
          rw [fetchNodes, OrderedSet.mem_ofList, named]
          exact List.mem_map_of_mem inFetch
        have listed :=
          (mem_nodesToAddIdentityTo pure_.wf inNodes).mpr ⟨fetched, isDisabled⟩
        apply acceptable.name
        rw [bearerNamed, ← named]
        exact OrderedSet.mem_ofList.mpr (List.mem_append_right _ listed)

variable {interp : Interpretation V} {values : String → Int → V}
  {val : Nat × Int → V}

/-- Every fetch can be read off the graph that is written out, and has the value
that it has in the graph of the item, unless it depends on a fed node that was
given an identity node. -/
theorem optimized_values (pureOps : Pure interp) (oblivious : Oblivious interp)
    (inv : statics.mark.Inv) (supported : Supported setting.disabled_ops_set)
    (ran :
      (rewrite setting.bridge (rewriteRequest setting optimizable) statics).2 ≠
        .skipped)
    (unswayed : Unswayed item fun node =>
      node ∈ item.graph.op_nodes ∧
      GivenIdentity item setting.disabled_ops_set node)
    (evaluates : EvaluatesFed item.graph interp (fedWith item values) val) :
    (∃ after, EvaluatesBridgedFed
      (rewrite setting.bridge (rewriteRequest setting optimizable)
        statics).1.manager interp
      (fedWith item values) (optimized setting optimizable statics) after) ∧
    ∀ after, EvaluatesBridgedFed
      (rewrite setting.bridge (rewriteRequest setting optimizable)
        statics).1.manager interp
      (fedWith item values) (optimized setting optimizable statics) after →
      ∀ f ∈ item.fetch, ∀ node ∈ item.graph.op_nodes, node.name = fetchName f →
        (∃ bearer ∈ (optimized setting optimizable statics).op_nodes,
          bearer.name = fetchName f) ∧
        ∀ bearer ∈ (optimized setting optimizable statics).op_nodes,
          bearer.name = fetchName f →
          ∀ k : Nat, k < node.num_outputs →
          after (bearer.id, k) = val (node.id, k) := by
  have pure_ := optimizable.toPureItem
  obtain ⟨wf, ordinary⟩ :=
    optimize_wf optimizable setting.disabled_ops_set setting.name_counter
  obtain ⟨copy, name, added⟩ := optimize_added pure_ optimizable.newNames.fresh
    setting.disabled_ops_set setting.name_counter
  have rewritable :=
    optimize_rewritable optimizable setting.disabled_ops_set
      setting.name_counter
  obtain ⟨nextVal, nextEvaluates⟩ := evaluates_exists wf rewritable.acyclic
    (complete_added pure_ added) (feedInterp interp (fedWith item values))
    (val (0, 0))
  have kept := graphAfter_kept setting.bridge setting.environment
    (rewriteRequest setting optimizable) statics rewritable
    (oblivious_feedInterp oblivious) nextEvaluates ran
  have unprocessed :=
    (unprocessed_of_ran setting.bridge (rewriteRequest setting optimizable)
      statics ran).2
  generalize (rewrite setting.bridge (rewriteRequest setting optimizable)
      statics).1.manager =
    manager at kept ⊢
  -- fed names are skipped, so no copy of such a node is in a cluster
  have unfedCopies :
      ∀ copied, (∃ node ∈ (rewriteRequest setting optimizable).graph.op_nodes,
      Clusterable setting.bridge (rewriteRequest setting optimizable)
        statics node ∧
        node.name = copied) → fedWith item values copied = none := by
    rintro _ ⟨node, member, clusterable, rfl⟩
    rw [fedWith, if_neg]
    intro isFed
    cases clusterable with
    | inl before =>
        simp [(ordinary node (List.mem_filter.mp member).1).unmarked] at before
    | inr acceptable =>
        apply acceptable.name
        apply OrderedSet.mem_ofList.mpr
        simp only [List.mem_append]
        exact .inl (.inl (.inl isFed))
  have unfedClusters :
      ∀ node ∈ (optimized setting optimizable statics).op_nodes,
      node.type_string = "_nGraphEncapsulate" →
      fedWith item values node.name = none := by
    intro node member isEncapsulate
    rw [fedWith, if_neg]
    intro isFed
    cases kept.origin node member with
    | inl old =>
        obtain ⟨before, beforeIn, same⟩ := old
        exact unprocessed before (List.mem_filter.mp beforeIn).1
          (same.type ▸ isEncapsulate)
    | inr new =>
        obtain ⟨_, cluster_idx, called⟩ := new
        obtain ⟨named, namedIn, sameName⟩ := pure_.feed node.name isFed
        exact optimizable.clusterName named (List.mem_filter.mp namedIn).1
          cluster_idx (sameName.trans called)
  have bridged :
      ∀ after, EvaluatesBridged manager
        (feedInterp interp (fedWith item values))
        (optimized setting optimizable statics) after ↔
      EvaluatesBridgedFed manager interp
        (fedWith item values) (optimized setting optimizable statics) after :=
    fun after => evaluatesBridged_feedInterp kept.copies unfedCopies
      unfedClusters kept.evaluable
  constructor
  · obtain ⟨after, solves⟩ := kept.evaluable
    exact ⟨after, (bridged after).mp solves⟩
  · intro after solves f inFetch node member named
    obtain ⟨first, firstIn, firstNamed, unique, notClusterable⟩ :=
      bearer_stays setting optimizable statics inv supported inFetch
        member named
    have stays := kept.stays first firstIn notClusterable
    obtain ⟨other, otherIn, same⟩ := kept.same first firstIn stays
    refine ⟨⟨other, otherIn, same.name.trans firstNamed⟩, ?_⟩
    intro bearer bearerIn bearerNamed k inside
    cases kept.origin bearer bearerIn with
    | inr new =>
        obtain ⟨_, cluster_idx, called⟩ := new
        exact absurd (named.trans (bearerNamed.symm.trans called))
          (optimizable.clusterName node (List.mem_filter.mp member).1
            cluster_idx)
    | inl old =>
        obtain ⟨before, beforeIn, sameBearer⟩ := old
        obtain rfl : before = first :=
          unique before (List.mem_filter.mp beforeIn).1
            (sameBearer.name.symm.trans bearerNamed)
        have rewritten :=
          kept.output after ((bridged after).mpr solves) before firstIn stays k
        rw [sameBearer.id, rewritten]
        exact fetchesKept_of_unswayed pure_ added unswayed V interp pureOps
          values val nextVal
          evaluates (evaluatesFed_of_evaluates nextEvaluates) f inFetch node
          member named before firstIn firstNamed k inside

end Optimize

section Numbered

theorem numberedName_toList (counter : Nat) (base : String) :
    (numberedName counter base).toList =
      base.toList ++ ('/' :: '_' :: Nat.toDigits 10 counter) := by
  rw [numberedName, String.toList_append, String.toList_append, Text.natText,
    List.append_assoc]
  rfl

theorem numberedName_injective {counter other : Nat} {base otherBase : String}
    (same : numberedName counter base = numberedName other otherBase) :
    counter = other := by
  have texts := congrArg (fun name : String => name.toList.reverse) same
  simp only [numberedName_toList, List.reverse_append, List.reverse_cons,
    List.append_assoc, List.singleton_append] at texts
  have plain : ∀ n, ∀ c ∈ (Nat.toDigits 10 n).reverse, ¬ c = '_' := by
    rintro n _ member rfl
    have digit := Nat.isDigit_of_mem_toDigits (b := 10) (by decide) (by decide)
      (List.mem_reverse.mp member)
    exact absurd digit (by decide)
  obtain ⟨digits, _⟩ := Text.split_unique (plain counter) (plain other)
    (Text.delimited_cons rfl) (Text.delimited_cons rfl) texts
  exact Text.toDigits_injective (List.reverse_injective digits)

theorem numberedName_legal (counter : Nat) {base : String}
    (legal : LegalName base) :
    LegalName (numberedName counter (base ++ "_ngraph")) := by
  have chars := numberedName_toList counter (base ++ "_ngraph")
  rw [String.toList_append] at chars
  constructor
  · intro empty
    rw [empty] at chars
    exact absurd chars (by simp)
  · intro c member
    rw [chars] at member
    simp only [List.mem_append, List.mem_cons] at member
    rcases member with (inBase | suffix) | rfl | rfl | digit
    · exact legal.2 c inBase
    · have each : ∀ c ∈ "_ngraph".toList, isNameChar c = true :=
        List.all_eq_true.mp (by decide)
      exact each c suffix
    · decide
    · decide
    · have isDigit := Nat.isDigit_of_mem_toDigits (by decide) (by decide) digit
      simp [isNameChar, Char.isAlphanum, isDigit]

theorem numberedName_ne_inputName (counter : Nat) (base : String) (k : Nat) :
    numberedName counter base ≠ inputName k := by
  intro same
  have slash : '/' ∈ (inputName k).toList := by
    rw [← same, numberedName_toList]
    simp
  rw [inputName, String.toList_append, List.mem_append] at slash
  cases slash with
  | inl literal => exact absurd literal (by decide)
  | inr digit => exact Text.not_mem_natText (by decide) k digit

theorem newNames_numberedName {graph : Graph}
    (plain : ∀ node ∈ graph.nodes, '/' ∉ node.name.toList) :
    NewNames graph numberedName where
  fresh := fresh_numberedName plain
  distinct := fun _ _ _ _ same => numberedName_injective same

end Numbered

def negItem : GrapplerItem where
  graph := {
    nodes := [
      ⟨0, "_SOURCE", "NoOp", [], [], [], "", []⟩,
      ⟨1, "_SINK", "NoOp", [], [], [], "", []⟩,
      ⟨2, "x", "Placeholder", [], [], [.DT_FLOAT], "", []⟩,
      ⟨3, "y", "Neg", [("T", .type .DT_FLOAT)], [.DT_FLOAT], [.DT_FLOAT],
        "", ["x"]⟩]
    edges := [⟨0, 0, -1, 2, -1⟩, ⟨1, 2, 0, 3, 0⟩, ⟨2, 3, -1, 1, -1⟩] }
  ref_output := fun _ _ => false
  feed := ["x"]
  fetch := ["y:0"]
  keep_ops := []
  init_ops := []

theorem negItem_pure : PureItem negItem where
  wf := by constructor <;> decide
  acyclic := by
    apply acyclic_of_rank id
    rintro _ _ ⟨_, _, edge, member, data, rfl, _, rfl, _⟩
    have rising : ∀ edge ∈ negItem.graph.edges, edge.isControlEdge = false →
        edge.src < edge.dst := by decide
    exact rising edge member data
  complete := by
    intro node member input inside
    change node ∈ [_, _] at member
    simp only [List.mem_cons, List.not_mem_nil, or_false] at member
    rcases member with rfl | rfl
    · exact absurd inside (Nat.not_lt_zero input)
    · obtain rfl : input = 0 := Nat.lt_one_iff.mp inside
      exact ⟨2, 0, ⟨1, 2, 0, 3, 0⟩, by decide⟩
  feed := by decide
  fetch := by decide

theorem negItem_optimizable : Optimizable negItem numberedName where
  toPureItem := negItem_pure
  newNames := newNames_numberedName (by decide)
  legal := by decide
  newLegal := fun counter _ legal => numberedName_legal counter legal
  generated := by
    intro node member k same
    have short : ∀ node ∈ negItem.graph.nodes, node.name.length < 13 := by
      decide
    have long : 13 ≤ (inputName k).length := by
      rw [inputName, String.length_append]
      exact Nat.le_add_right 13 _
    have tooShort := short node member
    rw [same] at tooShort
    omega
  newGenerated := numberedName_ne_inputName
  clusterName := by
    intro node member cluster_idx same
    have short : ∀ node ∈ negItem.graph.nodes, node.name.length < 15 := by
      decide
    have long : 15 ≤ ("ngraph_cluster_" ++ toString cluster_idx).length := by
      rw [String.length_append]
      exact Nat.le_add_right 15 _
    have tooShort := short node member
    rw [same] at tooShort
    omega
  loopFree := by decide
  unmarked := by decide
  unassigned := by decide

def negSetting : Setting where
  bridge := cpuBridge
  environment := ⟨false, fun _ => .ok ()⟩
  config_map := []
  enabled := true
  disabled_ops_set := ∅
  deassign := ⟨true, none⟩
  name_counter := 0

/-- `Neg` negates, and `IdentityN` passes on. -/
def passOn : Interpretation Int := fun _ op _ values slot =>
  match op with
  | "IdentityN" => values.getD slot.toNat 0
  | "Neg" => -values.headD 0
  | _ => 0

theorem pure_passOn : Pure passOn where
  nameless := fun _ _ _ _ _ => rfl
  identityN := by
    intro name attrs inputs slot value found
    change inputs.getD (slot : Int).toNat 0 = value
    rw [Int.toNat_natCast, List.getD_eq_getElem?_getD, found, Option.getD_some]

def negatedFive : Nat × Int → Int
  | (2, _) => 5
  | (3, _) => -5
  | _ => 0

theorem negItem_evaluates : EvaluatesFed negItem.graph passOn
    (fedWith negItem fun _ _ => 5) negatedFive := by
  intro node member
  change node ∈ [_, _] at member
  simp only [List.mem_cons, List.not_mem_nil, or_false] at member
  rcases member with rfl | rfl
  · exact fun _ => rfl
  · exact ⟨[5], .cons ⟨(2, 0), ⟨⟨1, 2, 0, 3, 0⟩, by decide⟩, rfl⟩ .nil,
      fun _ => rfl⟩

theorem negItem_unswayed : Unswayed negItem fun node =>
    node ∈ negItem.graph.op_nodes ∧
    GivenIdentity negItem negSetting.disabled_ops_set node := by
  intro f _ node _ _ _ k _ sways
  generalize (node.id, (k : Int)) = tensor at sways
  induction sways with
  | fed member isFed given slot =>
      have only_x : _ = "x" := List.mem_singleton.mp isFed
      have fetched := given.2.1
      rw [only_x] at fetched
      exact absurd fetched (by decide)
  | step _ _ _ _ _ ih => exact ih

/-- The negation is encapsulated, and its value is fetched. -/
theorem optimized_values_negItem :
    isAlreadyProcessed (optimized negSetting negItem_optimizable .init) = true ∧
    ∃ after, EvaluatesBridgedFed
        (rewrite cpuBridge (rewriteRequest negSetting negItem_optimizable)
          .init).1.manager passOn
        (fedWith negItem fun _ _ => 5)
        (optimized negSetting negItem_optimizable .init) after ∧
      ∃ bearer ∈ (optimized negSetting negItem_optimizable .init).op_nodes,
        bearer.name = "y" ∧ after (bearer.id, 0) = -5 := by
  refine ⟨by decide, ?_⟩
  have supported : Supported negSetting.disabled_ops_set := by
    intro op member
    change op ∈ (∅ : OrderedSet String) at member
    simp at member
  obtain ⟨⟨after, solves⟩, fetched⟩ :=
    optimized_values negSetting negItem_optimizable .init
      pure_passOn (fun _ _ _ _ _ _ _ => rfl) Statics.Inv.init supported
      (ran_of_unprocessed cpuBridge
        (rewriteRequest negSetting negItem_optimizable) .init
        (by decide))
      negItem_unswayed negItem_evaluates
  obtain ⟨⟨bearer, bearerIn, named⟩, value⟩ :=
    fetched after solves "y:0" (by decide)
      ⟨3, "y", "Neg", [("T", .type .DT_FLOAT)], [.DT_FLOAT], [.DT_FLOAT], "",
        ["x"]⟩ (by decide) (by decide)
  exact ⟨after, solves, bearer, bearerIn, named,
    value bearer bearerIn named 0 (by decide)⟩

end NGraphBridge.NgraphOptimizer
