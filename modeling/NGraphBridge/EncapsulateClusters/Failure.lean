import NGraphBridge.EncapsulateClusters.Values

/-!
# What a failed encapsulation leaves

The optimizer goes on with the graph when encapsulation fails, so it matters in
which state an error leaves it.  Here the passes say that too.
-/

namespace NGraphBridge.EncapsulateClusters

open TF MarkForClustering AssignClusters

/-- The graph after a call, and what the call returns. -/
structure Left (α : Type) where
  graph : Graph
  status : StatusOr α

/-- The variable `NGRAPH_TF_DUMP_CLUSTERS`, and the check that it turns on. -/
structure Environment where
  ngraph_tf_dump_clusters : Bool
  validateGraphDef : GraphDef → StatusOr Unit

section Passes

variable (library : Library) (enc : Encapsulator) (graph_id : Int)
  (device_config : List (String × String))

/-- Pass 3.  A cluster fails before its node is added. -/
def addEncapsulatesLeaving : List (Int × String) → Rewritten → Left Rewritten
  | [], rewritten => ⟨rewritten.graph, .ok rewritten⟩
  | (cluster_idx, device) :: entries, rewritten =>
      match addEncapsulate library enc graph_id device_config cluster_idx device
        rewritten with
      | .error error => ⟨rewritten.graph, .error error⟩
      | .ok next => addEncapsulatesLeaving entries next

/-- Pass 4.  `UpdateEdge` fails before it removes the old edge. -/
def moveEdgesLeaving (rewritten : Rewritten) : List Edge → Graph → Left Unit
  | [], graph => ⟨graph, .ok ()⟩
  | edge :: edges, graph =>
      match moveEdge enc rewritten edge graph with
      | .error error => ⟨graph, .error error⟩
      | .ok next => moveEdgesLeaving rewritten edges next

def rewritePassLeaving (graph : Graph) : Left Rewritten :=
  match addEncapsulatesLeaving library enc graph_id device_config
    enc.device_name_map ⟨graph, fun _ => none⟩ with
  | ⟨left, .error error⟩ => ⟨left, .error error⟩
  | ⟨_, .ok rewritten⟩ =>
      match moveEdgesLeaving enc rewritten
        (library.orders rewritten.graph).edges rewritten.graph with
      | ⟨left, .error error⟩ => ⟨left, .error error⟩
      | ⟨moved, .ok ()⟩ =>
          let graph := removeNodes moved.op_nodes moved
          ⟨graph, .ok ⟨graph, rewritten.cluster_node_map⟩⟩

/-- Pass 9 for some clusters: validate the graph def, and make sure a graph can
be made from it. -/
def dumpClusters (validateGraphDef : GraphDef → StatusOr Unit) : List Int →
    StatusOr Unit
  | [] => .ok ()
  | cluster_idx :: newly_created_cluster_ids =>
      match enc.manager.getClusterGraph cluster_idx with
      | none => .error (errors.check "GetClusterGraph returned nullptr")
      | some gdef => do
          validateGraphDef gdef
          let _ ← library.convertGraphDefToGraph gdef
          dumpClusters validateGraphDef newly_created_cluster_ids

end Passes

/-- `EncapsulateClusters`. -/
def encapsulateClustersLeaving (environment : Environment) (library : Library)
    (manager : ClusterManager) (graph_id : Int)
    (device_config : List (String × String)) (graph : Graph) : Left Outcome :=
  match analysisPass (library.orders graph) manager with
  | .error error => ⟨graph, .error error⟩
  | .ok enc =>
      match rewritePassLeaving library enc graph_id device_config graph with
      | ⟨left, .error error⟩ => ⟨left, .error error⟩
      | ⟨left, .ok rewritten⟩ =>
          if environment.ngraph_tf_dump_clusters then
            ⟨left, do
              dumpClusters library enc environment.validateGraphDef
                (enc.device_name_map.map Prod.fst)
              return ⟨rewritten, enc⟩⟩
          else ⟨left, .ok ⟨rewritten, enc⟩⟩

section Status

variable {library : Library} {enc : Encapsulator} {graph_id : Int}
  {device_config : List (String × String)}

theorem addEncapsulatesLeaving_status (entries : List (Int × String))
    (rewritten : Rewritten) :
    (addEncapsulatesLeaving library enc graph_id device_config entries
      rewritten).status =
      addEncapsulates library enc graph_id device_config entries rewritten := by
  induction entries generalizing rewritten with
  | nil => rfl
  | cons entry entries ih =>
      rw [addEncapsulatesLeaving, addEncapsulates]
      cases addEncapsulate library enc graph_id device_config entry.1 entry.2
        rewritten with
      | error error => rfl
      | ok next => exact ih next

theorem moveEdgesLeaving_of_ok {rewritten : Rewritten} {edges : List Edge}
    {graph moved : Graph}
    (success : moveEdges enc rewritten edges graph = .ok moved) :
    moveEdgesLeaving enc rewritten edges graph = ⟨moved, .ok ()⟩ := by
  induction edges generalizing graph with
  | nil =>
      obtain rfl := Except.ok.inj success
      rfl
  | cons edge edges ih =>
      obtain ⟨next, atEdge, success⟩ := bind_ok success
      rw [moveEdgesLeaving, atEdge]
      exact ih success

end Status

section Move

variable {graph : Graph} {library : Library} {enc : Encapsulator}
  {graph_id : Int} {device_config : List (String × String)}
  {manager : ClusterManager} {order : graph.Enumeration}
  {outs : Int → List (Nat × Int)} {added : Int → List NodeDef} {keys : List Int}
  {rewritten : Rewritten} {done : List Edge} {current : Graph}

/-- An input that an edge leads to is an input of its node. -/
theorem Placed.dst_input_lt (wf : graph.WF)
    (placed : Placed library enc graph_id device_config graph keys rewritten)
    {edge : Edge} (member : edge ∈ rewritten.graph.edges)
    (data : edge.isControlEdge = false) :
    edge.dst_input < (rewritten.graph.node edge.dst).num_inputs := by
  cases (placed.feeds edge.src edge.src_output edge.dst edge.dst_input).mp
      ⟨edge, member, data, rfl, rfl, rfl, rfl⟩ with
  | inl old =>
      obtain ⟨other, otherIn, otherData, _, _, sameDst, sameInput⟩ := old
      rw [← sameDst, ← sameInput, placed.node_old wf (wf.dst other otherIn)]
      exact (wf.slots other otherIn otherData).2.2
  | inr new =>
      obtain ⟨c, mapped, k, atInput, atK⟩ := new
      obtain ⟨_, node, inNodes, sameId, encapsulate⟩ := placed.placed c _ mapped
      rw [← sameId, Graph.node_of_mem placed.ids inNodes,
        encapsulate.num_inputs, atInput]
      have inside := (List.getElem?_eq_some_iff.mp atK).1
      omega

/-- No edge fails to be moved: its new source has the output, and the edge that
is to be replaced is there. -/
theorem Moved.moveEdge_succeeds (wf : graph.WF)
    (analysed : Analysed order manager outs added enc)
    (placed : Placed library enc graph_id device_config graph keys rewritten)
    (stands : ∀ c, (∃ node ∈ graph.op_nodes, getNodeCluster node = .ok c) →
      c ∈ keys)
    (moved : Moved enc rewritten done current) {edge : Edge}
    (member : edge ∈ rewritten.graph.edges) :
    ∃ next, EncapsulateClusters.moveEdge enc rewritten edge current =
      .ok next := by
  have sameNode : ∀ id, current.node id = rewritten.graph.node id := by
    intro id
    rw [Graph.node, Graph.node, moved.nodes]
  unfold EncapsulateClusters.moveEdge
  dsimp only
  split
  case isTrue => exact ⟨_, rfl⟩
  case isFalse =>
    split
    case isTrue => exact ⟨_, rfl⟩
    case isFalse notControl =>
      have data : edge.isControlEdge = false := by simpa using notControl
      split
      case isTrue => exact ⟨_, rfl⟩
      case isFalse =>
        rw [Graph.node_id]
        cases mapped : enc.output_remap_map (edge.src, edge.src_output) with
        | none => exact ⟨_, rfl⟩
        | some output =>
            obtain ⟨c, k⟩ := output
            have atK := (analysed.outMap _ _ _).mp mapped
            have bound := (List.getElem?_eq_some_iff.mp atK).1
            rw [← analysed.outLength] at bound
            obtain ⟨crossing, crosses, srcClustered, atCluster, _⟩ :=
              analysed.outSource c _ (List.mem_of_getElem? atK)
            have srcOp := (wf.opEnds crossing crosses.member crosses.data).1
            have srcMember : graph.node crossing.src ∈ graph.op_nodes :=
              List.mem_filter.mpr
                ⟨(wf.node_mem (wf.src crossing crosses.member)).1, srcOp⟩
            have inKeys :=
              stands c ⟨_, srcMember,
                atCluster ▸ getNodeCluster_of srcClustered⟩
            obtain ⟨id, atId⟩ :=
              Option.isSome_iff_exists.mp ((placed.mapped c).mpr inKeys)
            obtain ⟨_, node, inNodes, sameId, encapsulate⟩ :=
              placed.placed c id atId
            have outputs :
                (current.node (clusterNode rewritten c)).num_outputs =
                (enc.cluster_output_dt_map c).length := by
              rw [clusterNode, atId, Option.getD_some, sameNode, ← sameId,
                Graph.node_of_mem placed.ids inNodes, encapsulate.num_outputs]
            have inputs := placed.dst_input_lt wf member data
            obtain ⟨found, foundIn, _, _, _, sameDst, sameInput⟩ :=
              (moved.feeds _ _ edge.dst edge.dst_input).mpr
                ⟨edge, member, data, rfl, rfl, rfl⟩
            dsimp only
            unfold Graph.updateEdge
            rw [if_neg (by rw [outputs]; omega),
              if_neg (by rw [sameNode]; omega)]
            cases atFind : current.edges.find? (fun other =>
                other.dst == edge.dst && other.dst_input == edge.dst_input) with
            | some other => exact ⟨_, rfl⟩
            | none =>
                have none_ := List.find?_eq_none.mp atFind found foundIn
                simp [sameDst, sameInput] at none_

theorem Moved.moveEdges_succeeds (wf : graph.WF)
    (analysed : Analysed order manager outs added enc)
    (placed : Placed library enc graph_id device_config graph keys rewritten)
    (stands : ∀ c, (∃ node ∈ graph.op_nodes, getNodeCluster node = .ok c) →
      c ∈ keys)
    (moved : Moved enc rewritten done current) {edges : List Edge}
    (inside : ∀ edge ∈ edges, edge ∈ rewritten.graph.edges) :
    ∃ next, EncapsulateClusters.moveEdges enc rewritten edges current =
      .ok next := by
  induction edges generalizing done current with
  | nil => exact ⟨current, rfl⟩
  | cons edge edges ih =>
      have member := inside edge (by simp)
      obtain ⟨middle, first⟩ :=
        moved.moveEdge_succeeds wf analysed placed stands member
      obtain ⟨next, rest⟩ := ih (moved.moveEdge placed.tidy member first)
        (fun other later => inside other (by simp [later]))
      refine ⟨next, ?_⟩
      rw [EncapsulateClusters.moveEdges, first]
      exact rest

end Move

/-- The graph with new nodes, and edges that lead from its old nodes to the new
ones. -/
structure Sprouted (graph next : Graph) : Prop where
  nodes : ∀ node ∈ graph.nodes, node ∈ next.nodes
  edges : ∀ edge ∈ graph.edges, edge ∈ next.edges
  newNodes : ∀ node ∈ next.nodes, node ∈ graph.nodes ∨ ¬ graph.HasNode node.id
  newEdges : ∀ edge ∈ next.edges, edge ∈ graph.edges ∨
    (graph.HasNode edge.src ∧ ¬ graph.HasNode edge.dst)

theorem Sprouted.refl (graph : Graph) : Sprouted graph graph :=
  ⟨fun _ member => member, fun _ member => member, fun _ member => .inl member,
    fun _ member => .inl member⟩

/-- Nothing of a graph is lost, and what was added leads nowhere. -/
structure Harmless (graph next : Graph) : Prop where
  nodes : ∀ node ∈ graph.nodes, node ∈ next.nodes
  edges : ∀ edge ∈ graph.edges, edge ∈ next.edges
  deadEnds : ∀ node ∈ next.nodes, node ∉ graph.nodes → ∀ edge ∈ next.edges,
    edge.src ≠ node.id

/-- Every evaluation of one graph is one of the other, up to the tensors of
nodes that the first does not have. -/
def SameValues (graph next : Graph) : Prop :=
  ∀ (V : Type) (interp : Interpretation V),
    (∀ val, next.Evaluates interp val → graph.Evaluates interp val) ∧
    ∀ val, graph.Evaluates interp val → ∃ after, next.Evaluates interp after ∧
      ∀ id slot, graph.HasNode id → after (id, slot) = val (id, slot)

section Sprout

variable {graph next : Graph}

theorem Sprouted.harmless (sprouted : Sprouted graph next) (wf : graph.WF) :
    Harmless graph next where
  nodes := sprouted.nodes
  edges := sprouted.edges
  deadEnds := by
    intro node member isNew edge inNext same
    have notOld := (sprouted.newNodes node member).resolve_left isNew
    rw [← same] at notOld
    cases sprouted.newEdges edge inNext with
    | inl old => exact notOld (wf.src edge old)
    | inr new => exact notOld new.1

theorem Sprouted.feeds_old (sprouted : Sprouted graph next) {v : Nat}
    (vNode : graph.HasNode v) (u : Nat) (a b : Int) :
    next.Feeds u a v b ↔ graph.Feeds u a v b := by
  constructor
  · rintro ⟨edge, member, data, atSrc, atOutput, atDst, atInput⟩
    cases sprouted.newEdges edge member with
    | inl old => exact ⟨edge, old, data, atSrc, atOutput, atDst, atInput⟩
    | inr new => exact absurd (atDst ▸ vNode) new.2
  · rintro ⟨edge, member, ends⟩
    exact ⟨edge, sprouted.edges edge member, ends⟩

theorem Sprouted.feeds_src (sprouted : Sprouted graph next) (wf : graph.WF)
    {u v : Nat} {a b : Int} (feeds : next.Feeds u a v b) : graph.HasNode u := by
  obtain ⟨edge, member, _, rfl, _⟩ := feeds
  cases sprouted.newEdges edge member with
  | inl old => exact wf.src edge old
  | inr new => exact new.1

variable {V : Type} {interp : Interpretation V} {val after : Nat × Int → V}

theorem Sprouted.reads_old (sprouted : Sprouted graph next) (wf : graph.WF)
    (agree : ∀ id slot, graph.HasNode id → after (id, slot) = val (id, slot))
    {id : Nat} (idNode : graph.HasNode id) (num_inputs : Nat)
    (values : List V) :
    next.Reads after id num_inputs values ↔
    graph.Reads val id num_inputs values := by
  have same : next.InputValue after id = graph.InputValue val id := by
    ext input value
    apply exists_congr
    intro tensor
    rw [sprouted.feeds_old idNode]
    apply and_congr_right
    rintro ⟨edge, member, _, atSrc, _⟩
    rw [← agree tensor.1 tensor.2 (atSrc ▸ wf.src edge member)]
  rw [Graph.Reads, Graph.Reads, same]

theorem Sprouted.computes_old (sprouted : Sprouted graph next) (wf : graph.WF)
    (agree : ∀ id slot, graph.HasNode id → after (id, slot) = val (id, slot))
    {node : Node} (member : node ∈ graph.nodes) :
    next.Computes interp after node ↔ graph.Computes interp val node := by
  have idNode : graph.HasNode node.id := ⟨node, member, rfl⟩
  apply exists_congr
  intro values
  rw [sprouted.reads_old wf agree idNode]
  apply and_congr_right
  intro _
  apply forall_congr'
  intro slot
  rw [agree node.id slot idNode]

/-- New nodes that only read can be evaluated last. -/
theorem Sprouted.sameValues (sprouted : Sprouted graph next) (wf : graph.WF)
    (ids : (next.nodes.map Node.id).Nodup)
    (fed : ∀ node ∈ next.op_nodes, node ∉ graph.nodes →
      ∀ input < node.num_inputs,
      ∃ tensor : Nat × Int, next.Feeds tensor.1 tensor.2 node.id input) :
    SameValues graph next := by
  intro V interp
  constructor
  · intro val evaluates node member
    obtain ⟨inGraph, isOp⟩ := List.mem_filter.mp member
    exact (sprouted.computes_old wf (fun _ _ _ => rfl) inGraph).mp
      (evaluates node (List.mem_filter.mpr ⟨sprouted.nodes node inGraph, isOp⟩))
  · intro val evaluates
    have each : ∀ node, ∃ values, node ∈ next.op_nodes → node ∉ graph.nodes →
        next.Reads val node.id node.num_inputs values := by
      intro node
      by_cases isNew : node ∈ next.op_nodes ∧ node ∉ graph.nodes
      · have inputs : ∀ input ∈ List.range node.num_inputs,
            ∃ value, next.InputValue val node.id input value := by
          intro input inside
          obtain ⟨tensor, feeds⟩ :=
            fed node isNew.1 isNew.2 input (List.mem_range.mp inside)
          exact ⟨val tensor, tensor, feeds, rfl⟩
        obtain ⟨values, reads⟩ := forall₂_of_forall inputs
        exact ⟨values, fun _ _ => reads⟩
      · exact ⟨[], fun inNext notOld => absurd ⟨inNext, notOld⟩ isNew⟩
    choose values reads using each
    classical
    let after : Nat × Int → V := fun tensor =>
      if graph.HasNode tensor.1 then val tensor
      else
        let node := next.node tensor.1
        interp node.name node.type_string node.attrs (values node) tensor.2
    have agree : ∀ id slot, graph.HasNode id →
        after (id, slot) = val (id, slot) :=
      fun id slot idNode => if_pos idNode
    refine ⟨after, ?_, agree⟩
    intro node member
    obtain ⟨inNext, isOp⟩ := List.mem_filter.mp member
    by_cases old : node ∈ graph.nodes
    · exact (sprouted.computes_old wf agree old).mpr
        (evaluates node (List.mem_filter.mpr ⟨old, isOp⟩))
    · have notOld := (sprouted.newNodes node inNext).resolve_left old
      refine ⟨values node, ?_, ?_⟩
      · apply List.Forall₂.imp _ (reads node member old)
        rintro input value ⟨tensor, feeds, rfl⟩
        exact ⟨tensor, feeds, (agree _ _ (sprouted.feeds_src wf feeds)).symm⟩
      · intro slot
        have here : after (node.id, slot) = interp (next.node node.id).name
            (next.node node.id).type_string (next.node node.id).attrs
            (values (next.node node.id)) slot := if_neg notOld
        rw [here, Graph.node_of_mem ids inNext]

end Sprout

section Place

variable {library : Library} {enc : Encapsulator} {graph_id : Int}
  {device_config : List (String × String)} {graph : Graph}

theorem addInputs_keeps {dst : Nat} {inputs : List (Nat × Int × DataType)}
    {position : Nat} :
    ∀ edge ∈ graph.edges,
      edge ∈ (addInputs dst inputs position graph).edges := by
  induction inputs generalizing position graph with
  | nil => exact fun _ member => member
  | cons input inputs ih =>
      intro edge member
      exact ih edge (List.mem_append_left _ member)

theorem addInputs_new {dst : Nat} {inputs : List (Nat × Int × DataType)}
    {position : Nat} :
    ∀ edge ∈ (addInputs dst inputs position graph).edges,
      edge ∈ graph.edges ∨
      (edge.dst = dst ∧ ∃ input ∈ inputs, edge.src = input.1) := by
  induction inputs generalizing position graph with
  | nil => exact fun _ member => .inl member
  | cons input inputs ih =>
      intro edge member
      cases ih edge member with
      | inr isNew =>
          obtain ⟨atDst, other, inInputs, atSrc⟩ := isNew
          exact .inr ⟨atDst, other, List.mem_cons_of_mem _ inInputs, atSrc⟩
      | inl old =>
          cases List.mem_append.mp old with
          | inl before => exact .inl before
          | inr added =>
              rw [List.mem_singleton.mp added]
              exact .inr ⟨rfl, input, List.mem_cons_self, rfl⟩

/-- A new node reads old nodes. -/
theorem Sprouted.addEncapsulate {rewritten next : Rewritten} {cluster_idx : Int}
    {device : String} (sprouted : Sprouted graph rewritten.graph)
    (inputs : ∀ input ∈ enc.cluster_input_map cluster_idx,
      graph.HasNode input.1)
    (success : addEncapsulate library enc graph_id device_config cluster_idx
      device rewritten =
      .ok next) : Sprouted graph next.graph := by
  obtain ⟨made, _, isId, nextGraph, _⟩ := addEncapsulate_ok success
  have fresh : ¬ graph.HasNode made.id := by
    rintro ⟨node, member, same⟩
    exact fresh_of_nextNodeId isId node (sprouted.nodes node member) same
  rw [nextGraph]
  constructor
  case nodes => exact fun node member =>
    mem_added.mpr (.inl (sprouted.nodes node member))
  case edges => exact fun edge member =>
    addInputs_keeps edge (sprouted.edges edge member)
  case newNodes =>
    intro node member
    cases mem_added.mp member with
    | inl before => exact sprouted.newNodes node before
    | inr added =>
        rw [added]
        exact .inr fresh
  case newEdges =>
    intro edge member
    cases addInputs_new edge member with
    | inl before => exact sprouted.newEdges edge before
    | inr isNew =>
        obtain ⟨atDst, input, inInputs, atSrc⟩ := isNew
        exact .inr ⟨atSrc ▸ inputs input inInputs, atDst ▸ fresh⟩

/-- Pass 3 leaves a graph with new nodes that only read, also when it fails. -/
theorem Placed.addEncapsulatesLeaving {keys : List Int}
    {entries : List (Int × String)} {rewritten : Rewritten}
    (placed : Placed library enc graph_id device_config graph keys rewritten)
    (sprouted : Sprouted graph rewritten.graph)
    (data : ∀ c, ∀ input ∈ enc.cluster_input_map c, input.2.1 ≠ kControlSlot)
    (inputs : ∀ c, ∀ input ∈ enc.cluster_input_map c, graph.HasNode input.1)
    (distinct : (entries.map Prod.fst).Nodup)
    (new : ∀ c ∈ entries.map Prod.fst, c ∉ keys) :
    ∃ all last,
      (EncapsulateClusters.addEncapsulatesLeaving library enc graph_id
        device_config entries rewritten).graph = last.graph ∧
      Placed library enc graph_id device_config graph all last ∧
      Sprouted graph last.graph := by
  induction entries generalizing keys rewritten with
  | nil => exact ⟨keys, rewritten, rfl, placed, sprouted⟩
  | cons entry entries ih =>
      rw [List.map_cons, List.nodup_cons] at distinct
      rw [EncapsulateClusters.addEncapsulatesLeaving]
      cases first : EncapsulateClusters.addEncapsulate library enc graph_id
        device_config entry.1 entry.2 rewritten with
      | error error => exact ⟨keys, rewritten, rfl, placed, sprouted⟩
      | ok next =>
          have step := placed.addEncapsulate data (new entry.1 (by simp)) first
          refine ih step (sprouted.addEncapsulate (inputs entry.1) first)
            distinct.2 ?_
          intro c member
          rw [List.mem_cons, not_or]
          refine ⟨?_, new c (by simp [member])⟩
          rintro rfl
          exact distinct.1 member

theorem Placed.fed {keys : List Int} {rewritten : Rewritten}
    (placed : Placed library enc graph_id device_config graph keys rewritten) :
    ∀ node ∈ rewritten.graph.op_nodes, node ∉ graph.nodes →
      ∀ input < node.num_inputs,
      ∃ tensor : Nat × Int,
        rewritten.graph.Feeds tensor.1 tensor.2 node.id input := by
  intro node member isNew input inside
  obtain ⟨c, mapped, encapsulate⟩ :=
    (placed.new node (List.mem_filter.mp member).1).resolve_left isNew
  rw [encapsulate.num_inputs] at inside
  have atInput := List.getElem?_eq_getElem inside
  refine ⟨(enc.inputsOf c)[input], ?_⟩
  exact (placed.feeds _ _ _ _).mpr (.inr ⟨c, mapped, input, rfl, atInput⟩)

end Place

section Whole

variable {environment : Environment} {library : Library}
  {manager : ClusterManager} {graph_id : Int}
  {device_config : List (String × String)} {graph : Graph}

/-- The rewrite fails without harm, or not at all. -/
theorem rewritePassLeaving_cases {enc : Encapsulator}
    {order : graph.Enumeration} {outs : Int → List (Nat × Int)}
    {added : Int → List NodeDef} (library : Library) (graph_id : Int)
    (device_config : List (String × String)) (wf : graph.WF)
    (analysed : Analysed order manager outs added enc) :
    (∃ left error, rewritePassLeaving library enc graph_id device_config graph =
        ⟨left, .error error⟩ ∧
      rewritePass library enc graph_id device_config graph = .error error ∧
      Harmless graph left ∧ SameValues graph left) ∨
    ∃ result, rewritePassLeaving library enc graph_id device_config graph =
        ⟨result.graph, .ok result⟩ ∧
      rewritePass library enc graph_id device_config graph = .ok result := by
  have inputs : ∀ c, ∀ input ∈ enc.cluster_input_map c,
      graph.HasNode input.1 := by
    intro c input member
    obtain ⟨edge, crosses, _, _, same⟩ :=
      analysed.inSource c (input.1, input.2.1) (List.mem_map_of_mem member)
    rw [(Prod.mk.inj same).1]
    exact wf.src edge crosses.member
  have start : Placed library enc graph_id device_config graph []
      ⟨graph, fun _ => none⟩ :=
    placed_init wf
  have status :=
    @addEncapsulatesLeaving_status library enc graph_id device_config
      enc.device_name_map ⟨graph, fun _ => none⟩
  obtain ⟨_, last, sameGraph, lastPlaced, sprouted⟩ :=
    start.addEncapsulatesLeaving
      (Sprouted.refl graph) analysed.data inputs analysed.devicesNodup (by simp)
  rw [rewritePassLeaving, rewritePass]
  generalize addEncapsulatesLeaving library enc graph_id device_config
      enc.device_name_map ⟨graph, fun _ => none⟩ = leaving at status sameGraph
  obtain ⟨left, leftStatus⟩ := leaving
  dsimp only at status sameGraph
  subst status sameGraph
  cases made : addEncapsulates library enc graph_id device_config
    enc.device_name_map ⟨graph, fun _ => none⟩ with
  | error error =>
      exact .inl ⟨last.graph, error, rfl, rfl, sprouted.harmless wf,
        sprouted.sameValues wf lastPlaced.ids lastPlaced.fed⟩
  | ok rewritten =>
      right
      obtain ⟨keys, members, placed⟩ := start.addEncapsulates analysed.data
        analysed.devicesNodup (by simp) made
      have stands : ∀ c,
          (∃ node ∈ graph.op_nodes, getNodeCluster node = .ok c) →
          c ∈ keys := by
        intro c used
        rw [members, analysed.devices]
        exact .inl used
      have noMoves : Moved enc rewritten [] rewritten.graph :=
        moved_init placed.tidy
      obtain ⟨moved, atMoved⟩ :=
        noMoves.moveEdges_succeeds wf analysed placed stands
          fun edge member => (Graph.Enumeration.mem_edges
            (library.orders rewritten.graph) edge).mp member
      have leaves := moveEdgesLeaving_of_ok atMoved
      refine ⟨⟨removeNodes moved.op_nodes moved, rewritten.cluster_node_map⟩,
        ?_, ?_⟩
      · dsimp only
        rw [leaves]
      · simp only [bind, Except.bind, atMoved]
        rfl

/-- Both passes fail without harm, or the graph is rewritten and only the dump
can fail. -/
theorem encapsulateClustersLeaving_cases (environment : Environment)
    (library : Library) (manager : ClusterManager) (graph_id : Int)
    (device_config : List (String × String)) (wf : graph.WF) :
    (∃ left error,
      encapsulateClustersLeaving environment library manager graph_id
        device_config graph = ⟨left, .error error⟩ ∧
      encapsulateClusters library manager graph_id device_config graph =
        .error error ∧
      Harmless graph left ∧ SameValues graph left) ∨
    ∃ outcome, encapsulateClustersLeaving environment library manager graph_id
      device_config graph = ⟨outcome.rewritten.graph,
        if environment.ngraph_tf_dump_clusters then do
          dumpClusters library outcome.enc environment.validateGraphDef
            (outcome.enc.device_name_map.map Prod.fst)
          return outcome
        else .ok outcome⟩ ∧
      encapsulateClusters library manager graph_id device_config graph =
        .ok outcome := by
  rw [encapsulateClustersLeaving, encapsulateClusters]
  cases analysis : analysisPass (library.orders graph) manager with
  | error error =>
      have untouched := Sprouted.refl graph
      exact .inl ⟨graph, error, rfl, rfl, untouched.harmless wf,
        untouched.sameValues wf wf.ids fun node member notOld =>
          absurd (List.mem_filter.mp member).1 notOld⟩
  | ok enc =>
      obtain ⟨outs, added, analysed⟩ := analysisPass_analysed wf analysis
      cases rewritePassLeaving_cases library graph_id device_config wf analysed
        with
      | inl fails =>
          obtain ⟨left, error, atLeft, atPass, harmless, same⟩ := fails
          refine .inl ⟨left, error, ?_, ?_, harmless, same⟩
          · simp only [atLeft]
          · simp only [bind, Except.bind, atPass]
      | inr passes =>
          obtain ⟨result, atLeft, atPass⟩ := passes
          refine .inr ⟨⟨result, enc⟩, ?_, ?_⟩
          · simp only [atLeft]
            split
            · rfl
            · rfl
          · simp only [bind, Except.bind, atPass]
            rfl

/-- An error of the analysis or of the rewrite leaves the graph with all its
nodes and edges, and what was added leads nowhere. These are all errors unless
clusters are dumped. -/
theorem encapsulateClusters_harmless {left : Graph} {error : Error}
    (wf : graph.WF)
    (failed : encapsulateClustersLeaving environment library manager graph_id
      device_config graph = ⟨left, .error error⟩)
    (inPasses : environment.ngraph_tf_dump_clusters = true →
      ∃ earlier, encapsulateClusters library manager graph_id
        device_config graph =
        .error earlier) :
    Harmless graph left ∧ SameValues graph left := by
  cases encapsulateClustersLeaving_cases environment library manager graph_id
    device_config wf with
  | inl fails =>
      obtain ⟨other, _, atLeft, _, harmless, same⟩ := fails
      rw [atLeft] at failed
      obtain ⟨rfl, _⟩ := Left.mk.inj failed
      exact ⟨harmless, same⟩
  | inr passes =>
      obtain ⟨outcome, atLeft, success⟩ := passes
      cases dumps : environment.ngraph_tf_dump_clusters with
      | true =>
          obtain ⟨earlier, fails⟩ := inPasses dumps
          rw [success] at fails
          simp at fails
      | false =>
          rw [atLeft, dumps] at failed
          simp at failed

end Whole

/-- Two nodes of one cluster on different devices. -/
def splitGraph : Graph where
  nodes := [
    ⟨0, "_SOURCE", "NoOp", [], [], [], "", []⟩,
    ⟨1, "_SINK", "NoOp", [], [], [], "", []⟩,
    ⟨2, "x", "Placeholder", [], [], [.DT_FLOAT], "", []⟩,
    ⟨3, "abs", "Abs", [("T", .type .DT_FLOAT), ("_ngraph_cluster", .i 0)],
      [.DT_FLOAT], [.DT_FLOAT], "/device:CPU:0", ["x"]⟩,
    ⟨4, "neg", "Neg", [("T", .type .DT_FLOAT), ("_ngraph_cluster", .i 0)],
      [.DT_FLOAT], [.DT_FLOAT], "/device:CPU:1", ["abs"]⟩]
  edges :=
    [⟨0, 0, -1, 2, -1⟩, ⟨1, 2, 0, 3, 0⟩, ⟨2, 3, 0, 4, 0⟩, ⟨3, 4, -1, 1, -1⟩]

/-- The attributes of the ops of the examples. -/
def opAttrs (op : String) : List String :=
  if op == "_Arg" || op == "_Retval" then ["T", "index"] else ["T"]

/-- `ValidateGraphDef` asks for the attributes of the op, and lets no others be
but those that start with an underscore. -/
def validateAttrs (gdef : GraphDef) : StatusOr Unit :=
  if gdef.node.all fun node_def =>
      (opAttrs node_def.op).all
        (fun name => (node_def.attr.find name).isSome) &&
        node_def.attr.all fun entry =>
          (opAttrs node_def.op).contains entry.1 || entry.1.toList.head? ==
            some '_' then .ok ()
  else .error (errors.invalidArgument "NodeDef mentions attr not in Op")

def dumping : Environment := ⟨true, validateAttrs⟩

theorem encapsulateClusters_harmless_splitGraph : ∃ left error,
    encapsulateClustersLeaving dumping importLibrary ⟨[.empty]⟩ 0
      [] splitGraph =
        ⟨left, .error error⟩ ∧
      Harmless splitGraph left := by
  have fails : ∃ error,
      encapsulateClusters importLibrary ⟨[.empty]⟩ 0 [] splitGraph =
      .error error := by
    cases result :
      encapsulateClusters importLibrary ⟨[.empty]⟩ 0 [] splitGraph with
    | error error => exact ⟨error, rfl⟩
    | ok outcome =>
        have none_ : (encapsulateClusters importLibrary ⟨[.empty]⟩ 0 []
            splitGraph).toOption.isSome = false := by decide
        simp [result, Except.toOption] at none_
  have wf : splitGraph.WF := by constructor <;> decide
  obtain ⟨earlier, atEarlier⟩ := fails
  cases encapsulateClustersLeaving_cases dumping importLibrary ⟨[.empty]⟩ 0
    [] wf with
  | inr passes =>
      obtain ⟨_, _, success⟩ := passes
      rw [atEarlier] at success
      simp at success
  | inl fails =>
      obtain ⟨left, error, atLeft, _⟩ := fails
      exact ⟨left, error, atLeft,
        (encapsulateClusters_harmless wf atLeft fun _ =>
          ⟨earlier, atEarlier⟩).1⟩

/-- A clustered node with an attribute that its op does not have. -/
def fusedGraph : Graph where
  nodes := [
    ⟨0, "_SOURCE", "NoOp", [], [], [], "", []⟩,
    ⟨1, "_SINK", "NoOp", [], [], [], "", []⟩,
    ⟨2, "x", "Placeholder", [], [], [.DT_FLOAT], "", []⟩,
    ⟨3, "abs", "Abs",
      [("T", .type .DT_FLOAT), ("fused", .b true), ("_ngraph_cluster", .i 0)],
      [.DT_FLOAT], [.DT_FLOAT], "", ["x"]⟩,
    ⟨4, "neg", "Neg", [("T", .type .DT_FLOAT)], [.DT_FLOAT], [.DT_FLOAT],
      "", ["abs"]⟩]
  edges :=
    [⟨0, 0, -1, 2, -1⟩, ⟨1, 2, 0, 3, 0⟩, ⟨2, 3, 0, 4, 0⟩, ⟨3, 4, -1, 1, -1⟩]

/-- A dump that fails comes after the rewrite, so the clustered node is gone. -/
theorem not_harmless_fusedGraph : fusedGraph.WF ∧ ∃ left error,
    encapsulateClustersLeaving dumping importLibrary ⟨[.empty]⟩ 0
      [] fusedGraph =
        ⟨left, .error error⟩ ∧
      ¬ Harmless fusedGraph left := by
  refine ⟨by constructor <;> decide, ?_⟩
  have failed :
      (encapsulateClustersLeaving dumping importLibrary ⟨[.empty]⟩ 0 []
      fusedGraph).status.toOption.isSome = false := by decide
  have gone : (encapsulateClustersLeaving dumping importLibrary ⟨[.empty]⟩ 0 []
      fusedGraph).graph.nodes.all (fun node => node.id != 3) = true := by decide
  cases atLeft :
    encapsulateClustersLeaving dumping importLibrary ⟨[.empty]⟩ 0 []
      fusedGraph with
  | mk left status =>
      rw [atLeft] at failed gone
      cases status with
      | ok outcome => simp [Except.toOption] at failed
      | error error =>
          refine ⟨left, error, rfl, fun harmless => ?_⟩
          have kept := harmless.nodes (fusedGraph.node 3) (by decide)
          have other := List.all_eq_true.mp gone _ kept
          exact absurd other (by decide)

end NGraphBridge.EncapsulateClusters
