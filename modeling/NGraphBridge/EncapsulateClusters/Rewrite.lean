import NGraphBridge.EncapsulateClusters.Analysis

/-!
# What the rewrite leaves

Every cluster has one new node.  A tensor that a cluster computes is read from
the new node, and a cluster's own inputs lead to it in the order of the list.
-/

namespace NGraphBridge.EncapsulateClusters

open TF MarkForClustering AssignClusters

section NewNodes

variable {library : Library} {enc : Encapsulator} {graph_id : Int}
  {device_config : List (String × String)} {graph : Graph}

/-- The node that pass 3 makes for a cluster. -/
def IsEncapsulate (library : Library) (enc : Encapsulator) (graph_id : Int)
    (device_config : List (String × String)) (cluster_idx : Int)
    (node : Node) : Prop :=
  ∃ device gdef encapsulated static_input_indexes,
    enc.manager.getClusterGraph cluster_idx = some gdef ∧
    library.convertGraphDefToGraph gdef = .ok encapsulated ∧
    getGraphStaticInputs (library.orders encapsulated) encapsulated.nodes =
      .ok static_input_indexes ∧
    node = encapsulateNode enc graph_id device_config node.id cluster_idx device
      static_input_indexes

theorem encapsulateNode_unclustered {id : Nat} {cluster_idx : Int}
    {device : String} {static_input_indexes : List Int} :
    isClustered (encapsulateNode enc graph_id device_config id
      cluster_idx device static_input_indexes) = false := by
  -- the device configuration holds texts, so no entry is a cluster id
  have noInt : ∀ (config : List (String × String)) (value : Int),
      (config.map (fun entry => (entry.1, AttrValue.s entry.2))).lookup
        "_ngraph_cluster" ≠
        some (.i value) := by
    intro config value
    induction config with
    | nil => simp
    | cons entry config ih =>
        rw [List.map_cons, List.lookup_cons]
        split
        · simp
        · exact ih
  have found : ∀ value,
      (encapsulateNode enc graph_id device_config id cluster_idx device
      static_input_indexes).attrs.find "_ngraph_cluster" ≠ some (.i value) := by
    intro value
    simpa [encapsulateNode, encapsulateAttrs, AttrMap.find, List.lookup_cons]
      using noInt device_config value
  unfold isClustered getNodeCluster getNodeAttrInt
  split
  case h_1 cluster_idx atIdx =>
    split at atIdx
    case h_1 value isInt => exact absurd isInt (found value)
    case h_2 => simp at atIdx
  case h_2 => rfl

theorem IsEncapsulate.unclustered {cluster_idx : Int} {node : Node}
    (encapsulate :
      IsEncapsulate library enc graph_id device_config cluster_idx node) :
    isClustered node = false := by
  obtain ⟨_, _, _, _, _, _, _, same⟩ := encapsulate
  rw [same]
  exact encapsulateNode_unclustered

theorem IsEncapsulate.cluster {cluster_idx : Int} {node : Node}
    (encapsulate :
      IsEncapsulate library enc graph_id device_config cluster_idx node) :
    getNodeAttrInt node.attrs "ngraph_cluster" = .ok cluster_idx := by
  obtain ⟨_, _, _, _, _, _, _, same⟩ := encapsulate
  rw [same]
  rfl

theorem IsEncapsulate.cluster_eq {nodes : List Node} {left right : Node}
    {c d : Int}
    (isLeft : IsEncapsulate library enc graph_id device_config c left)
    (isRight : IsEncapsulate library enc graph_id device_config d right)
    (ids : (nodes.map Node.id).Nodup) (leftIn : left ∈ nodes)
    (rightIn : right ∈ nodes) (sameId : left.id = right.id) : c = d := by
  have same : left = right := List.inj_on_of_nodup_map ids leftIn rightIn sameId
  have sameCluster := isLeft.cluster
  rw [same, isRight.cluster] at sameCluster
  exact (Except.ok.inj sameCluster).symm

theorem IsEncapsulate.num_inputs {cluster_idx : Int} {node : Node}
    (encapsulate :
      IsEncapsulate library enc graph_id device_config cluster_idx node) :
    node.num_inputs = (enc.inputsOf cluster_idx).length := by
  obtain ⟨_, _, _, _, _, _, _, same⟩ := encapsulate
  rw [same]
  simp [Node.num_inputs, encapsulateNode, Encapsulator.inputsOf]

theorem IsEncapsulate.num_outputs {cluster_idx : Int} {node : Node}
    (encapsulate :
      IsEncapsulate library enc graph_id device_config cluster_idx node) :
    node.num_outputs = (enc.cluster_output_dt_map cluster_idx).length := by
  obtain ⟨_, _, _, _, _, _, _, same⟩ := encapsulate
  rw [same]
  rfl

/-- Pass 3 after some clusters. -/
structure Placed (library : Library) (enc : Encapsulator) (graph_id : Int)
    (device_config : List (String × String)) (graph : Graph) (keys : List Int)
    (rewritten : Rewritten) : Prop where
  ids : (rewritten.graph.nodes.map Node.id).Nodup
  old : ∀ node ∈ graph.nodes, node ∈ rewritten.graph.nodes
  new : ∀ node ∈ rewritten.graph.nodes, node ∈ graph.nodes ∨
    ∃ c, rewritten.cluster_node_map c = some node.id ∧
      IsEncapsulate library enc graph_id device_config c node
  mapped : ∀ c, (rewritten.cluster_node_map c).isSome = true ↔ c ∈ keys
  placed : ∀ c id, rewritten.cluster_node_map c = some id → ¬ graph.HasNode id ∧
    ∃ node ∈ rewritten.graph.nodes, node.id = id ∧
      IsEncapsulate library enc graph_id device_config c node
  tidy : rewritten.graph.Tidy
  ends : ∀ edge ∈ rewritten.graph.edges, rewritten.graph.HasNode edge.dst
  feeds : ∀ u a v b, rewritten.graph.Feeds u a v b ↔ graph.Feeds u a v b ∨
    ∃ c, rewritten.cluster_node_map c = some v ∧
      ∃ k : Nat, b = k ∧ (enc.inputsOf c)[k]? = some (u, a)

theorem placed_init (wf : graph.WF) :
    Placed library enc graph_id device_config graph
      [] ⟨graph, fun _ => none⟩ where
  ids := wf.ids
  old := fun _ member => member
  new := fun _ member => .inl member
  mapped := by simp
  placed := by simp
  tidy := wf.tidy
  ends := wf.dst
  feeds := by simp

theorem addInputs_nodes {dst : Nat} {inputs : List (Nat × Int × DataType)}
    {position : Nat} : (addInputs dst inputs position graph).nodes =
    graph.nodes := by
  induction inputs generalizing position graph with
  | nil => rfl
  | cons input inputs ih => exact ih

theorem addInputs_edges {dst : Nat} {inputs : List (Nat × Int × DataType)}
    {position : Nat} : ∀ edge ∈ (addInputs dst inputs position graph).edges,
      edge ∈ graph.edges ∨ edge.dst = dst := by
  induction inputs generalizing position graph with
  | nil => exact fun _ member => .inl member
  | cons input inputs ih =>
      intro edge member
      cases ih edge member with
      | inr isNew => exact .inr isNew
      | inl old =>
          cases List.mem_append.mp old with
          | inl before => exact .inl before
          | inr added =>
              rw [List.mem_singleton.mp added]
              exact .inr rfl

/-- Input `k` of the list leads to slot `position + k`. -/
theorem feeds_addInputs {dst : Nat} {inputs : List (Nat × Int × DataType)}
    {position : Nat} (data : ∀ input ∈ inputs, input.2.1 ≠ kControlSlot)
    (u : Nat) (a : Int) (v : Nat) (b : Int) :
    (addInputs dst inputs position graph).Feeds u a v b ↔
      graph.Feeds u a v b ∨ (v = dst ∧ ∃ k : Nat, b = (position : Int) + k ∧
        (inputs.map (fun input => (input.1, input.2.1)))[k]? =
          some (u, a)) := by
  induction inputs generalizing position graph with
  | nil => simp [addInputs]
  | cons input inputs ih =>
      have headData := data input (by simp)
      have rest := @ih (graph.addEdge input.1 input.2.1 dst position)
        (position + 1) (fun input member => data input (by simp [member]))
      rw [addInputs, rest, Graph.feeds_addEdge headData]
      constructor
      · intro feeds
        cases feeds with
        | inl early =>
            cases early with
            | inl old => exact .inl old
            | inr new =>
                obtain ⟨rfl, rfl, rfl, rfl⟩ := new
                exact .inr ⟨rfl, 0, by simp, by simp⟩
        | inr late =>
            obtain ⟨rfl, k, rfl, atK⟩ := late
            refine .inr ⟨rfl, k + 1, by omega, by simpa using atK⟩
      · intro feeds
        cases feeds with
        | inl old => exact .inl (.inl old)
        | inr new =>
            obtain ⟨rfl, k, rfl, atK⟩ := new
            cases k with
            | zero =>
                rw [List.map_cons, List.getElem?_cons_zero,
                  Option.some.injEq] at atK
                obtain ⟨rfl, rfl⟩ := Prod.mk.inj atK
                exact .inl (.inr ⟨rfl, rfl, rfl, by simp⟩)
            | succ k =>
                exact .inr ⟨rfl, k, by omega, by simpa using atK⟩

theorem addInputs_tidy {dst : Nat} {inputs : List (Nat × Int × DataType)}
    {position : Nat} (tidy : graph.Tidy)
    (data : ∀ input ∈ inputs, input.2.1 ≠ kControlSlot)
    (free : ∀ u a (b : Int), graph.Feeds u a dst b → b < position) :
    (addInputs dst inputs position graph).Tidy := by
  induction inputs generalizing position graph with
  | nil => exact tidy
  | cons input inputs ih =>
      have headData := data input (by simp)
      have step : (graph.addEdge input.1 input.2.1 dst position).Tidy :=
        tidy.addEdge headData (Int.natCast_nonneg position)
          (fun u a feeds => absurd (free u a position feeds) (by omega))
      apply ih step (fun input member => data input (by simp [member]))
      intro u a b feeds
      cases (Graph.feeds_addEdge headData).mp feeds with
      | inl old =>
          have below := free u a b old
          omega
      | inr new => omega

/-- A cluster gets one new node, which reads the inputs of the cluster. -/
theorem addEncapsulate_ok {rewritten next : Rewritten} {cluster_idx : Int}
    {device : String}
    (success : addEncapsulate library enc graph_id device_config cluster_idx
      device rewritten =
      .ok next) :
    ∃ made, IsEncapsulate library enc graph_id device_config cluster_idx made ∧
      made.id = rewritten.graph.nextNodeId ∧
      next.graph = addInputs made.id (enc.cluster_input_map cluster_idx) 0
        (rewritten.graph.addNode made) ∧
      next.cluster_node_map =
        Function.update rewritten.cluster_node_map cluster_idx
          (some made.id) := by
  unfold addEncapsulate at success
  split at success
  case h_1 => simp at success
  case h_2 gdef stored =>
    obtain ⟨encapsulated, converted, success⟩ := bind_ok success
    obtain ⟨static_input_indexes, static, success⟩ := bind_ok success
    split_ifs at success
    obtain rfl := Except.ok.inj success
    refine ⟨encapsulateNode enc graph_id device_config
      rewritten.graph.nextNodeId cluster_idx
      device static_input_indexes, ?_, rfl, rfl, rfl⟩
    exact ⟨device, gdef, encapsulated, static_input_indexes, stored, converted,
      static, rfl⟩

section Added

variable {keys : List Int} {rewritten : Rewritten} {cluster_idx : Int}
  {made : Node}
  (placed : Placed library enc graph_id device_config graph keys rewritten)
  (isId : made.id = rewritten.graph.nextNodeId)

include isId in
theorem fresh_of_nextNodeId : ∀ node ∈ rewritten.graph.nodes,
    node.id ≠ made.id := by
  intro node member same
  have below := Graph.lt_nextNodeId member
  omega

theorem mem_added {inputs : List (Nat × Int × DataType)} {node : Node} :
    node ∈ (addInputs made.id inputs 0 (rewritten.graph.addNode made)).nodes ↔
      node ∈ rewritten.graph.nodes ∨ node = made := by
  rw [addInputs_nodes, Graph.addNode, List.mem_append, List.mem_singleton]

include placed isId

theorem Placed.noEdge (u : Nat) (a b : Int) :
    ¬ rewritten.graph.Feeds u a made.id b := by
  intro feeds
  obtain ⟨edge, member, _, _, _, atDst, _⟩ := feeds
  obtain ⟨node, inNodes, same⟩ := placed.ends edge member
  exact fresh_of_nextNodeId isId node inNodes (same.trans atDst)

theorem Placed.addedIds {inputs : List (Nat × Int × DataType)} :
    ((addInputs made.id inputs 0 (rewritten.graph.addNode made)).nodes.map
      Node.id).Nodup := by
  rw [addInputs_nodes, Graph.addNode, List.map_append, List.nodup_append]
  refine ⟨placed.ids, by simp, ?_⟩
  intro left leftIn right rightIn
  obtain ⟨node, inNodes, rfl⟩ := List.mem_map.mp leftIn
  obtain rfl : right = made.id := by simpa using rightIn
  exact fresh_of_nextNodeId isId node inNodes

omit isId in
/-- The new node reads what the cluster reads, the other nodes what they did. -/
theorem Placed.addedFeeds
    (data : ∀ c, ∀ input ∈ enc.cluster_input_map c, input.2.1 ≠ kControlSlot)
    (new : cluster_idx ∉ keys) (u : Nat) (a : Int) (v : Nat) (b : Int) :
    (addInputs made.id (enc.cluster_input_map cluster_idx) 0
        (rewritten.graph.addNode made)).Feeds u a v b ↔ graph.Feeds u a v b ∨
      ∃ c, Function.update rewritten.cluster_node_map cluster_idx
        (some made.id) c = some v ∧
        ∃ k : Nat, b = k ∧ (enc.inputsOf c)[k]? = some (u, a) := by
  rw [@feeds_addInputs (rewritten.graph.addNode made) made.id
    (enc.cluster_input_map cluster_idx) 0 (data cluster_idx),
    Graph.feeds_addNode, placed.feeds, or_assoc]
  apply or_congr_right
  constructor
  · intro either
    cases either with
    | inl old =>
        obtain ⟨c, mapped, rest⟩ := old
        have other : c ≠ cluster_idx := by
          rintro rfl
          exact new ((placed.mapped c).mp (by simp [mapped]))
        exact ⟨c, by rw [Function.update_of_ne other, mapped], rest⟩
    | inr isNew =>
        obtain ⟨rfl, k, position, atK⟩ := isNew
        exact ⟨cluster_idx, by simp, k, by simpa using position, atK⟩
  · rintro ⟨c, mapped, k, position, atK⟩
    by_cases same : c = cluster_idx
    · subst same
      rw [Function.update_self, Option.some.injEq] at mapped
      exact .inr ⟨mapped.symm, k, by simpa using position, atK⟩
    · rw [Function.update_of_ne same] at mapped
      exact .inl ⟨c, mapped, k, position, atK⟩

end Added

theorem Placed.addEncapsulate {keys : List Int} {rewritten next : Rewritten}
    {cluster_idx : Int} {device : String}
    (placed : Placed library enc graph_id device_config graph keys rewritten)
    (data : ∀ c, ∀ input ∈ enc.cluster_input_map c, input.2.1 ≠ kControlSlot)
    (new : cluster_idx ∉ keys)
    (success : addEncapsulate library enc graph_id device_config cluster_idx
      device rewritten =
      .ok next) :
    Placed library enc graph_id device_config graph (cluster_idx :: keys)
      next := by
  obtain ⟨made, isMade, isId, nextGraph, nextMap⟩ := addEncapsulate_ok success
  constructor
  case ids => exact nextGraph ▸ placed.addedIds isId
  case old =>
    intro node member
    rw [nextGraph]
    exact mem_added.mpr (.inl (placed.old node member))
  case new =>
    intro node member
    rw [nextGraph] at member
    rw [nextMap]
    cases mem_added.mp member with
    | inl before =>
        cases placed.new node before with
        | inl old => exact .inl old
        | inr isNew =>
            obtain ⟨c, mapped, encapsulate⟩ := isNew
            have other : c ≠ cluster_idx := by
              rintro rfl
              exact new ((placed.mapped c).mp (by simp [mapped]))
            exact .inr ⟨c, by rw [Function.update_of_ne other, mapped],
              encapsulate⟩
    | inr same =>
        subst same
        exact .inr ⟨cluster_idx, by simp, isMade⟩
  case mapped =>
    intro c
    rw [nextMap]
    by_cases same : c = cluster_idx
    · simp [same]
    · simp [placed.mapped, same]
  case placed =>
    intro c at_ mapped
    rw [nextMap] at mapped
    rw [nextGraph]
    by_cases same : c = cluster_idx
    · subst same
      rw [Function.update_self, Option.some.injEq] at mapped
      subst mapped
      refine ⟨?_, made, mem_added.mpr (.inr rfl), rfl, isMade⟩
      intro hasNode
      obtain ⟨node, inNodes, sameId⟩ := hasNode
      exact fresh_of_nextNodeId isId node (placed.old node inNodes) sameId
    · rw [Function.update_of_ne same] at mapped
      obtain ⟨notOld, node, inNodes, rest⟩ := placed.placed c at_ mapped
      exact ⟨notOld, node, mem_added.mpr (.inl inNodes), rest⟩
  case tidy =>
    rw [nextGraph]
    exact @addInputs_tidy (rewritten.graph.addNode made) made.id
      (enc.cluster_input_map cluster_idx) 0
      (placed.tidy.subset fun _ member => member)
      (data cluster_idx)
      (fun u a b old => absurd old (placed.noEdge isId u a b))
  case ends =>
    intro edge member
    rw [nextGraph] at member ⊢
    cases addInputs_edges edge member with
    | inl old =>
        obtain ⟨node, inNodes, sameId⟩ := placed.ends edge old
        exact ⟨node, mem_added.mpr (.inl inNodes), sameId⟩
    | inr isNew => exact ⟨made, mem_added.mpr (.inr rfl), isNew.symm⟩
  case feeds =>
    rw [nextGraph, nextMap]
    exact placed.addedFeeds data new

theorem Placed.addEncapsulates {keys : List Int} {entries : List (Int × String)}
    {rewritten next : Rewritten}
    (placed : Placed library enc graph_id device_config graph keys rewritten)
    (data : ∀ c, ∀ input ∈ enc.cluster_input_map c, input.2.1 ≠ kControlSlot)
    (distinct : (entries.map Prod.fst).Nodup)
    (new : ∀ c ∈ entries.map Prod.fst, c ∉ keys)
    (success : addEncapsulates library enc graph_id device_config entries
      rewritten =
      .ok next) :
    ∃ all, (∀ c, c ∈ all ↔ c ∈ entries.map Prod.fst ∨ c ∈ keys) ∧
      Placed library enc graph_id device_config graph all next := by
  induction entries generalizing keys rewritten with
  | nil =>
      obtain rfl := Except.ok.inj success
      exact ⟨keys, by simp, placed⟩
  | cons entry entries ih =>
      obtain ⟨middle, first, success⟩ := bind_ok success
      rw [List.map_cons, List.nodup_cons] at distinct
      have step := placed.addEncapsulate data (new entry.1 (by simp)) first
      have later : ∀ c ∈ entries.map Prod.fst, c ∉ entry.1 :: keys := by
        intro c member
        rw [List.mem_cons, not_or]
        refine ⟨?_, new c (by simp [member])⟩
        rintro rfl
        exact distinct.1 member
      obtain ⟨all, members, result⟩ := ih step distinct.2 later success
      refine ⟨all, fun c => ?_, result⟩
      rw [members, List.map_cons, List.mem_cons, List.mem_cons,
        or_left_comm, or_assoc]

end NewNodes

section MovedEdges

variable {enc : Encapsulator} {rewritten : Rewritten} {graph next : Graph}
  {done edges : List Edge}

/-- Where a tensor is read in the rewritten graph. -/
def movedTensor (enc : Encapsulator) (rewritten : Rewritten)
    (tensor : Nat × Int) : Nat × Int :=
  match enc.output_remap_map tensor with
  | none => tensor
  | some (cluster_idx, cluster_output) =>
      (clusterNode rewritten cluster_idx, cluster_output)

/-- The edges that pass 4 does not touch. -/
def Stays (rewritten : Rewritten) (edge : Edge) : Prop :=
  clusterIdx (rewritten.graph.node edge.src) =
    clusterIdx (rewritten.graph.node edge.dst) ∨
    isClustered (rewritten.graph.node edge.dst) = true

instance (rewritten : Rewritten) (edge : Edge) :
    Decidable (Stays rewritten edge) :=
  inferInstanceAs (Decidable (_ ∨ _))

/-- The tensor that a data edge carries after pass 4 has come past `done`. -/
def carried (enc : Encapsulator) (rewritten : Rewritten) (done : List Edge)
    (edge : Edge) : Nat × Int :=
  if edge ∈ done ∧ ¬ Stays rewritten edge then
    movedTensor enc rewritten (edge.src, edge.src_output)
  else (edge.src, edge.src_output)

/-- Pass 4 after some edges. -/
structure Moved (enc : Encapsulator) (rewritten : Rewritten) (done : List Edge)
    (graph : Graph) : Prop where
  nodes : graph.nodes = rewritten.graph.nodes
  tidy : graph.Tidy
  feeds : ∀ u a v b, graph.Feeds u a v b ↔ ∃ edge ∈ rewritten.graph.edges,
    edge.isControlEdge = false ∧ edge.dst = v ∧ edge.dst_input = b ∧
    carried enc rewritten done edge = (u, a)

theorem moved_init (tidy : rewritten.graph.Tidy) :
    Moved enc rewritten [] rewritten.graph where
  nodes := rfl
  tidy := tidy
  feeds := by
    intro u a v b
    constructor
    · rintro ⟨edge, member, data, rfl, rfl, rfl, rfl⟩
      exact ⟨edge, member, data, rfl, rfl, by simp [carried]⟩
    · rintro ⟨edge, member, data, rfl, rfl, atEdge⟩
      simp only [carried, List.not_mem_nil, false_and, if_false,
        Prod.mk.injEq] at atEdge
      exact ⟨edge, member, data, atEdge.1, atEdge.2, rfl, rfl⟩

theorem carried_cons_of_ne {edge other : Edge} (different : other ≠ edge) :
    carried enc rewritten (edge :: done) other =
      carried enc rewritten done other := by
  have members : other ∈ edge :: done ↔ other ∈ done := by simp [different]
  exact if_congr (and_congr_left' members) rfl rfl

/-- An edge that carries what it carried before may be passed. -/
theorem Moved.skip {edge : Edge} (moved : Moved enc rewritten done graph)
    (nodes : next.nodes = graph.nodes) (tidy : next.Tidy)
    (feeds : ∀ u a v b, next.Feeds u a v b ↔ graph.Feeds u a v b)
    (same : edge.isControlEdge = false →
      carried enc rewritten (edge :: done) edge =
        carried enc rewritten done edge) :
    Moved enc rewritten (edge :: done) next where
  nodes := nodes.trans moved.nodes
  tidy := tidy
  feeds := by
    intro u a v b
    rw [feeds, moved.feeds]
    apply exists_congr
    intro other
    apply and_congr_right
    intro _
    apply and_congr_right
    intro data
    by_cases isEdge : other = edge
    · subst isEdge
      rw [same data]
    · rw [carried_cons_of_ne isEdge]

theorem moveControlEdge_keeps {edge : Edge} {src dst : Node} (tidy : graph.Tidy)
    (control : edge.isControlEdge = true) :
    (moveControlEdge rewritten src dst edge graph).nodes = graph.nodes ∧
      (moveControlEdge rewritten src dst edge graph).Tidy ∧
      ∀ u a v b, (moveControlEdge rewritten src dst edge graph).Feeds u a v b ↔
        graph.Feeds u a v b := by
  have replaced : ∀ new_src new_dst,
      ((graph.removeEdge edge).addControlEdge new_src new_dst).nodes =
        graph.nodes ∧
        ((graph.removeEdge edge).addControlEdge new_src new_dst).Tidy ∧
        ∀ u a v b,
        ((graph.removeEdge edge).addControlEdge new_src new_dst).Feeds u a v b ↔
          graph.Feeds u a v b := by
    intro new_src new_dst
    refine ⟨?_, tidy.removeEdge.addControlEdge, fun u a v b => ?_⟩
    · unfold Graph.addControlEdge
      split
      · rfl
      · rfl
    · rw [Graph.feeds_addControlEdge, Graph.feeds_removeEdge control]
  unfold moveControlEdge
  split_ifs
  · exact replaced _ _
  · exact replaced _ _
  · exact replaced _ _
  · exact ⟨rfl, tidy, fun _ _ _ _ => Iff.rfl⟩

theorem Moved.moveEdge {edge : Edge} (moved : Moved enc rewritten done graph)
    (start : rewritten.graph.Tidy) (member : edge ∈ rewritten.graph.edges)
    (success : moveEdge enc rewritten edge graph = .ok next) :
    Moved enc rewritten (edge :: done) next := by
  unfold EncapsulateClusters.moveEdge at success
  dsimp only at success
  rw [Graph.node_id] at success
  have stays : Stays rewritten edge →
      carried enc rewritten (edge :: done) edge =
        carried enc rewritten done edge := by
    intro isStill
    simp [carried, isStill]
  split at success
  case isTrue together =>
    obtain rfl := Except.ok.inj success
    exact moved.skip rfl moved.tidy (fun _ _ _ _ => Iff.rfl)
      (fun _ => stays (.inl (by simpa using together)))
  case isFalse apart =>
    split at success
    case isTrue control =>
      obtain rfl := Except.ok.inj success
      obtain ⟨nodes, tidy, feeds⟩ := moveControlEdge_keeps moved.tidy control
      refine moved.skip nodes tidy feeds ?_
      intro data
      rw [control] at data
      exact absurd data (by simp)
    case isFalse notControl =>
      have data : edge.isControlEdge = false := by simpa using notControl
      split at success
      case isTrue clustered =>
        obtain rfl := Except.ok.inj success
        exact moved.skip rfl moved.tidy (fun _ _ _ _ => Iff.rfl)
          (fun _ => stays (.inr clustered))
      case isFalse unclustered =>
        have moves : ¬ Stays rewritten edge := by
          intro isStill
          cases isStill with
          | inl together => exact apart (by simpa using together)
          | inr clustered => exact unclustered clustered
        have carriedNow : carried enc rewritten (edge :: done) edge =
            movedTensor enc rewritten (edge.src, edge.src_output) := by
          simp [carried, moves]
        cases remapped : enc.output_remap_map (edge.src, edge.src_output) with
        | none =>
            rw [remapped] at success
            obtain rfl := Except.ok.inj success
            refine moved.skip rfl moved.tidy (fun _ _ _ _ => Iff.rfl)
              (fun _ => ?_)
            rw [carriedNow]
            simp [carried, movedTensor, remapped]
        | some output =>
            rw [remapped] at success
            obtain ⟨nodes, tidy, feeds⟩ := Graph.updateEdge_ok moved.tidy
              (by simp [kControlSlot]) (start.slot edge member data) success
            refine ⟨nodes.trans moved.nodes, tidy, fun u a v b => ?_⟩
            rw [feeds, moved.feeds]
            constructor
            · intro either
              cases either with
              | inl old =>
                  obtain ⟨⟨other, otherIn, otherData, rfl, rfl, atOther⟩,
                    notHere⟩ := old
                  refine ⟨other, otherIn, otherData, rfl, rfl, ?_⟩
                  rw [carried_cons_of_ne, atOther]
                  rintro rfl
                  exact notHere ⟨rfl, rfl⟩
              | inr new =>
                  obtain ⟨rfl, rfl, rfl, rfl⟩ := new
                  refine ⟨edge, member, data, rfl, rfl, ?_⟩
                  rw [carriedNow]
                  simp [movedTensor, remapped]
            · rintro ⟨other, otherIn, otherData, rfl, rfl, atOther⟩
              by_cases same : other = edge
              · subst same
                rw [carriedNow] at atOther
                simp only [movedTensor, remapped, Prod.mk.injEq] at atOther
                exact .inr ⟨atOther.1.symm, atOther.2.symm, rfl, rfl⟩
              · refine .inl ⟨⟨other, otherIn, otherData, rfl, rfl, ?_⟩, ?_⟩
                · rw [← atOther, carried_cons_of_ne same]
                · rintro ⟨sameDst, sameInput⟩
                  exact same (start.single other otherIn edge member otherData
                      data sameDst sameInput)

theorem Moved.moveEdges (moved : Moved enc rewritten done graph)
    (start : rewritten.graph.Tidy)
    (inside : ∀ edge ∈ edges, edge ∈ rewritten.graph.edges)
    (success : moveEdges enc rewritten edges graph = .ok next) :
    ∃ all, (∀ edge ∈ edges, edge ∈ all) ∧ (∀ edge ∈ done, edge ∈ all) ∧
      Moved enc rewritten all next := by
  induction edges generalizing done graph with
  | nil =>
      obtain rfl := Except.ok.inj success
      exact ⟨done, by simp, fun _ member => member, moved⟩
  | cons edge edges ih =>
      obtain ⟨middle, first, success⟩ := bind_ok success
      obtain ⟨all, covers, old, result⟩ :=
        ih (moved.moveEdge start (inside edge (by simp)) first)
          (fun other later => inside other (by simp [later])) success
      refine ⟨all, ?_, fun other member => old other (by simp [member]), result⟩
      intro other inList
      cases List.mem_cons.mp inList with
      | inl same => exact old other (by simp [same])
      | inr later => exact covers other later

end MovedEdges

section RemovedNodes

variable {graph : Graph} {nodes : List Node}

theorem removeNodes_nodes {node : Node} :
    node ∈ (removeNodes nodes graph).nodes ↔
    node ∈ graph.nodes ∧ ∀ removed ∈ nodes, isClustered removed = true →
    node.id ≠ removed.id := by
  induction nodes generalizing graph with
  | nil => simp [removeNodes]
  | cons head nodes ih =>
      unfold removeNodes
      split
      case isTrue clustered =>
        rw [ih]
        simp [Graph.removeNode, clustered, and_assoc]
      case isFalse unclustered =>
        rw [ih]
        simp [unclustered]

theorem removeNodes_sublist :
    (removeNodes nodes graph).nodes.Sublist graph.nodes := by
  induction nodes generalizing graph with
  | nil => exact .refl _
  | cons head nodes ih =>
      unfold removeNodes
      split
      · exact ih.trans List.filter_sublist
      · exact ih

theorem removeNodes_feeds {u v : Nat} {a b : Int} :
    (removeNodes nodes graph).Feeds u a v b ↔ graph.Feeds u a v b ∧
      ∀ removed ∈ nodes, isClustered removed = true → u ≠ removed.id ∧
      v ≠ removed.id := by
  induction nodes generalizing graph with
  | nil => simp [removeNodes]
  | cons head nodes ih =>
      unfold removeNodes
      split
      case isTrue clustered =>
        rw [ih, Graph.feeds_removeNode]
        simp [clustered, and_assoc]
      case isFalse unclustered =>
        rw [ih]
        simp [unclustered]

end RemovedNodes

section Inputs

variable {library : Library} {enc : Encapsulator} {graph_id : Int}
  {device_config : List (String × String)} {graph : Graph} {keys : List Int}
  {rewritten : Rewritten} {u : Nat} {a b : Int}
  (placed : Placed library enc graph_id device_config graph keys rewritten)

include placed

theorem Placed.feeds_old {v : Nat} (vNode : graph.HasNode v) :
    rewritten.graph.Feeds u a v b ↔ graph.Feeds u a v b := by
  have notNew : ∀ c, rewritten.cluster_node_map c ≠ some v :=
    fun c mapped => (placed.placed c v mapped).1 vNode
  rw [placed.feeds]
  simp [notNew]

/-- A new node has the inputs of its own cluster. -/
theorem Placed.feeds_new (wf : graph.WF) {c : Int} {id : Nat}
    (mapped : rewritten.cluster_node_map c = some id) :
    rewritten.graph.Feeds u a id b ↔ ∃ k : Nat, b = k ∧
    (enc.inputsOf c)[k]? = some (u, a) := by
  rw [placed.feeds]
  constructor
  · intro either
    cases either with
    | inl old =>
        obtain ⟨edge, member, _, _, _, rfl, _⟩ := old
        exact absurd (wf.dst edge member) (placed.placed c _ mapped).1
    | inr new =>
        obtain ⟨d, atD, inputs⟩ := new
        obtain ⟨_, left, leftIn, leftId, isLeft⟩ := placed.placed c id mapped
        obtain ⟨_, right, rightIn, rightId, isRight⟩ := placed.placed d id atD
        obtain rfl := isLeft.cluster_eq isRight placed.ids leftIn rightIn
          (leftId.trans rightId.symm)
        exact inputs
  · exact fun inputs => .inr ⟨c, mapped, inputs⟩

end Inputs

section Whole

variable {library : Library} {enc : Encapsulator} {graph_id : Int}
  {device_config : List (String × String)} {graph : Graph}
  {manager : ClusterManager} {order : graph.Enumeration}
  {outs : Int → List (Nat × Int)} {added : Int → List NodeDef}

theorem Analysed.data (analysed : Analysed order manager outs added enc)
    (c : Int) :
    ∀ input ∈ enc.cluster_input_map c, input.2.1 ≠ kControlSlot := by
  intro input member
  obtain ⟨edge, crosses, _, _, same⟩ := analysed.inSource c (input.1, input.2.1)
    (List.mem_map_of_mem member)
  rw [(Prod.mk.inj same).2]
  simpa [Edge.isControlEdge] using crosses.data

theorem Analysed.clusterIdx_nonneg
    (analysed : Analysed order manager outs added enc) {node : Node}
    (member : node ∈ graph.op_nodes) (clustered : isClustered node = true) :
    0 ≤ clusterIdx node := by
  obtain ⟨gdef, found⟩ :=
    analysed.inManager node member _ (getNodeCluster_of clustered)
  by_contra negative
  rw [ClusterManager.getClusterGraph, if_pos (by omega)] at found
  exact absurd found (by simp)

theorem clusterIdx_unclustered {node : Node}
    (unclustered : isClustered node = false) :
    clusterIdx node = -1 := by
  unfold isClustered at unclustered
  unfold clusterIdx
  split at unclustered
  case h_1 => simp at unclustered
  case h_2 => rfl

theorem Analysed.outMap_unclustered
    (analysed : Analysed order manager outs added enc) {src : Nat} {slot : Int}
    (unclustered : isClustered (graph.node src) = false) :
    enc.output_remap_map (src, slot) = none := by
  by_contra mapped
  obtain ⟨⟨c, k⟩, found⟩ := Option.ne_none_iff_exists'.mp mapped
  have atK := (analysed.outMap _ _ _).mp found
  obtain ⟨edge, _, clustered, _, same⟩ :=
    analysed.outSource c _ (List.mem_of_getElem? atK)
  rw [← (Prod.mk.inj same).1, unclustered] at clustered
  exact absurd clustered (by simp)

theorem Analysed.outMap_crossing
    (analysed : Analysed order manager outs added enc) {edge : Edge}
    (crosses : Crosses graph edge)
    (clustered : isClustered (graph.node edge.src) = true) :
    ∃ k, enc.output_remap_map (edge.src, edge.src_output) =
      some (clusterIdx (graph.node edge.src), k) := by
  obtain ⟨k, atK⟩ :=
    List.getElem?_of_mem ((analysed.covered edge crosses).2 clustered)
  exact ⟨k, (analysed.outMap _ _ _).mpr atK⟩

/-- The nodes and data edges of the rewritten graph. -/
structure Rewired (library : Library) (enc : Encapsulator) (graph_id : Int)
    (device_config : List (String × String)) (graph : Graph)
    (result : Rewritten) : Prop where
  ids : (result.graph.nodes.map Node.id).Nodup
  nodes : ∀ node ∈ result.graph.nodes,
    (node ∈ graph.nodes ∧ (node.isOp = true → isClustered node = false)) ∨
      ∃ c, result.cluster_node_map c = some node.id ∧
        IsEncapsulate library enc graph_id device_config c node
  kept : ∀ node ∈ graph.nodes, (node.isOp = true → isClustered node = false) →
    node ∈ result.graph.nodes
  placed : ∀ c id, result.cluster_node_map c = some id → ¬ graph.HasNode id ∧
    ∃ node ∈ result.graph.nodes, node.id = id ∧
      IsEncapsulate library enc graph_id device_config c node
  mapped : ∀ c, (result.cluster_node_map c).isSome = true ↔
    ∃ node ∈ graph.op_nodes, getNodeCluster node = .ok c
  feedsOld : ∀ v, graph.HasNode v → ∀ u a b, result.graph.Feeds u a v b ↔
    isClustered (graph.node v) = false ∧ ∃ src slot, graph.Feeds src slot v b ∧
      movedTensor enc result (src, slot) = (u, a)
  feedsNew : ∀ c id, result.cluster_node_map c = some id → ∀ u a b,
    result.graph.Feeds u a id b ↔ ∃ (k : Nat) (src : Nat) (slot : Int), b = k ∧
      (enc.inputsOf c)[k]? = some (src, slot) ∧
      movedTensor enc result (src, slot) = (u, a)

/-- The tensors read by unclustered nodes after pass 3. -/
theorem Placed.reads {keys : List Int} {rewritten : Rewritten} (wf : graph.WF)
    (analysed : Analysed order manager outs added enc)
    (placed : Placed library enc graph_id device_config graph keys rewritten)
    {src v : Nat} {slot b : Int} (feeds : rewritten.graph.Feeds src slot v b)
    (unclustered : isClustered (rewritten.graph.node v) = false) :
    graph.HasNode src ∧ (graph.node src).isOp = true ∧
      (isClustered (graph.node src) = true → ∃ edge, Crosses graph edge ∧
        edge.src = src ∧ edge.src_output = slot) := by
  cases (placed.feeds src slot v b).mp feeds with
  | inl old =>
      obtain ⟨edge, member, data, rfl, rfl, rfl, rfl⟩ := old
      obtain ⟨srcOp, dstOp⟩ := wf.opEnds edge member data
      refine ⟨wf.src edge member, srcOp, fun clustered => ?_⟩
      have dstIn := wf.node_mem (wf.dst edge member)
      have same := Graph.node_of_mem placed.ids (placed.old _ dstIn.1)
      rw [dstIn.2] at same
      rw [same] at unclustered
      have srcMember : graph.node edge.src ∈ graph.op_nodes :=
        List.mem_filter.mpr ⟨(wf.node_mem (wf.src edge member)).1, srcOp⟩
      have nonneg := analysed.clusterIdx_nonneg srcMember clustered
      have alone := clusterIdx_unclustered unclustered
      exact ⟨edge, ⟨member, data, by omega⟩, rfl, rfl⟩
  | inr new =>
      obtain ⟨c, _, k, _, atK⟩ := new
      obtain ⟨edge, crosses, _, _, same⟩ :=
        analysed.inSource c _ (List.mem_of_getElem? atK)
      obtain ⟨rfl, rfl⟩ := Prod.mk.inj same
      exact ⟨wf.src edge crosses.member,
        (wf.opEnds edge crosses.member crosses.data).1,
        fun _ => ⟨edge, crosses, rfl, rfl⟩⟩

section Passes

variable {keys : List Int} {rewritten : Rewritten} {last : Graph}
  {all : List Edge}

theorem Placed.node_old (wf : graph.WF)
    (placed : Placed library enc graph_id device_config graph keys rewritten)
    {id : Nat} (idNode : graph.HasNode id) :
    rewritten.graph.node id = graph.node id := by
  obtain ⟨member, sameId⟩ := wf.node_mem idNode
  have found := Graph.node_of_mem placed.ids (placed.old _ member)
  rwa [sameId] at found

theorem Placed.node_new
    (placed : Placed library enc graph_id device_config graph keys rewritten)
    {c : Int} {id : Nat} (mapped : rewritten.cluster_node_map c = some id) :
    isClustered (rewritten.graph.node id) = false := by
  obtain ⟨_, node, member, rfl, encapsulate⟩ := placed.placed c id mapped
  rw [Graph.node_of_mem placed.ids member]
  exact encapsulate.unclustered

theorem Placed.removed
    (placed : Placed library enc graph_id device_config graph keys rewritten)
    (moved : Moved enc rewritten all last) {node : Node}
    (clustered : isClustered node = true) :
    node ∈ last.op_nodes ↔ node ∈ graph.op_nodes := by
  rw [Graph.op_nodes, Graph.op_nodes, List.mem_filter, List.mem_filter,
    moved.nodes]
  apply and_congr_left
  intro _
  constructor
  · intro member
    cases placed.new node member with
    | inl old => exact old
    | inr new =>
        obtain ⟨c, _, encapsulate⟩ := new
        rw [encapsulate.unclustered] at clustered
        exact absurd clustered (by simp)
  · exact placed.old node

/-- A data edge into a node that stays carries the moved tensor in the end, and
that comes from a node that stays. -/
theorem Placed.carried (wf : graph.WF)
    (analysed : Analysed order manager outs added enc)
    (placed : Placed library enc graph_id device_config graph keys rewritten)
    (moved : Moved enc rewritten all last)
    (stands : ∀ c, (∃ node ∈ graph.op_nodes, getNodeCluster node = .ok c) →
      c ∈ keys)
    {edge : Edge} (member : edge ∈ rewritten.graph.edges) (passed : edge ∈ all)
    (data : edge.isControlEdge = false)
    (unclustered : isClustered (rewritten.graph.node edge.dst) = false) :
    carried enc rewritten all edge = movedTensor enc rewritten
      (edge.src, edge.src_output) ∧
      ∀ node ∈ last.op_nodes, isClustered node = true →
        (movedTensor enc rewritten (edge.src, edge.src_output)).1 ≠
          node.id := by
  obtain ⟨srcNode, srcOp, crossing⟩ :=
    placed.reads wf analysed ⟨edge, member, data, rfl, rfl, rfl, rfl⟩
      unclustered
  have srcMember : graph.node edge.src ∈ graph.op_nodes :=
    List.mem_filter.mpr ⟨(wf.node_mem srcNode).1, srcOp⟩
  cases srcClustered : isClustered (graph.node edge.src) with
  | false =>
      have stays : movedTensor enc rewritten (edge.src, edge.src_output) =
          (edge.src, edge.src_output) := by
        rw [movedTensor, analysed.outMap_unclustered srcClustered]
      rw [stays]
      constructor
      · unfold EncapsulateClusters.carried
        split
        · exact stays
        · rfl
      · intro node inLast clustered same
        have inOld :=
          (List.mem_filter.mp ((placed.removed moved clustered).mp inLast)).1
        rw [show edge.src = node.id from same, wf.node_eq inOld,
          clustered] at srcClustered
        exact absurd srcClustered (by simp)
  | true =>
      obtain ⟨other, crosses, sameSrc, sameSlot⟩ := crossing srcClustered
      obtain ⟨k, mapped⟩ :=
        analysed.outMap_crossing crosses (by rw [sameSrc, srcClustered])
      rw [sameSrc, sameSlot] at mapped
      have nonneg := analysed.clusterIdx_nonneg srcMember srcClustered
      have alone := clusterIdx_unclustered unclustered
      have moves : ¬ Stays rewritten edge := by
        intro stays
        cases stays with
        | inl together =>
            rw [placed.node_old wf srcNode] at together
            omega
        | inr dstClustered =>
            rw [unclustered] at dstClustered
            exact absurd dstClustered (by simp)
      refine ⟨if_pos ⟨passed, moves⟩, ?_⟩
      intro node inLast clustered same
      have inKeys := stands _ ⟨_, srcMember, getNodeCluster_of srcClustered⟩
      obtain ⟨id, atCluster⟩ :=
        Option.isSome_iff_exists.mp ((placed.mapped _).mpr inKeys)
      have inOld :=
        (List.mem_filter.mp ((placed.removed moved clustered).mp inLast)).1
      simp only [movedTensor, mapped, clusterNode, atCluster,
        Option.getD_some] at same
      exact (placed.placed _ _ atCluster).1 ⟨node, inOld, same.symm⟩

/-- The data edges into a node that stays. -/
theorem Placed.feeds_last (wf : graph.WF)
    (analysed : Analysed order manager outs added enc)
    (placed : Placed library enc graph_id device_config graph keys rewritten)
    (moved : Moved enc rewritten all last)
    (stands : ∀ c, (∃ node ∈ graph.op_nodes, getNodeCluster node = .ok c) →
      c ∈ keys)
    (covers : ∀ edge ∈ rewritten.graph.edges, edge ∈ all) {v : Nat}
    (unclustered : isClustered (rewritten.graph.node v) = false) (u : Nat)
    (a b : Int) :
    (removeNodes last.op_nodes last).Feeds u a v b ↔ ∃ src slot,
      rewritten.graph.Feeds src slot v b ∧
      movedTensor enc rewritten (src, slot) = (u, a) := by
  rw [removeNodes_feeds, moved.feeds]
  constructor
  · rintro ⟨⟨edge, member, data, rfl, rfl, atEdge⟩, _⟩
    obtain ⟨carries, _⟩ := placed.carried wf analysed moved stands member
      (covers edge member) data unclustered
    rw [carries] at atEdge
    exact ⟨edge.src, edge.src_output, ⟨edge, member, data, rfl, rfl, rfl, rfl⟩,
      atEdge⟩
  · rintro ⟨src, slot, ⟨edge, member, data, rfl, rfl, rfl, rfl⟩, atEdge⟩
    obtain ⟨carries, uStays⟩ := placed.carried wf analysed moved stands member
      (covers edge member) data unclustered
    refine ⟨⟨edge, member, data, rfl, rfl, by rw [carries, atEdge]⟩, ?_⟩
    intro node inLast clustered
    rw [atEdge] at uStays
    refine ⟨uStays node inLast clustered, ?_⟩
    intro same
    have inOld :=
      (List.mem_filter.mp ((placed.removed moved clustered).mp inLast)).1
    rw [same, Graph.node_of_mem placed.ids (placed.old node inOld),
      clustered] at unclustered
    exact absurd unclustered (by simp)

end Passes

theorem rewritePass_rewired {result : Rewritten} (wf : graph.WF)
    (analysed : Analysed order manager outs added enc)
    (success : rewritePass library enc graph_id device_config graph =
      .ok result) :
    Rewired library enc graph_id device_config graph result := by
  obtain ⟨rewritten, made, success⟩ := bind_ok success
  obtain ⟨last, edgesMoved, success⟩ := bind_ok success
  obtain rfl := Except.ok.inj success
  obtain ⟨keys, members, placed⟩ :=
    (placed_init wf).addEncapsulates analysed.data
      analysed.devicesNodup (by simp) made
  obtain ⟨all, covers, _, moved⟩ :=
    (moved_init placed.tidy).moveEdges placed.tidy
      (fun edge member => (Graph.Enumeration.mem_edges _ edge).mp member)
      edgesMoved
  have used : ∀ c, c ∈ keys ↔ ∃ node ∈ graph.op_nodes,
      getNodeCluster node = .ok c := by
    intro c
    rw [members, analysed.devices]
    simp
  have feeds : ∀ {v}, isClustered (rewritten.graph.node v) = false → ∀ u a b,
      (removeNodes last.op_nodes last).Feeds u a v b ↔ ∃ src slot,
        rewritten.graph.Feeds src slot v b ∧
        movedTensor enc rewritten (src, slot) = (u, a) :=
    placed.feeds_last wf analysed moved (fun c => (used c).mpr)
      (fun edge member =>
        covers edge ((Graph.Enumeration.mem_edges _ edge).mpr member))
  constructor
  case ids =>
    exact (placed.ids.sublist
        (removeNodes_sublist.map _ |>.trans (by rw [moved.nodes])))
  case nodes =>
    intro node member
    obtain ⟨inLast, notRemoved⟩ := removeNodes_nodes.mp member
    rw [moved.nodes] at inLast
    cases placed.new node inLast with
    | inr new => exact .inr new
    | inl old =>
        refine .inl ⟨old, fun isOp => ?_⟩
        by_contra clustered
        have clustered : isClustered node = true := by simpa using clustered
        exact notRemoved node ((placed.removed moved clustered).mpr
          (List.mem_filter.mpr ⟨old, isOp⟩)) clustered rfl
  case kept =>
    intro node member unclustered
    refine removeNodes_nodes.mpr ⟨moved.nodes ▸ placed.old node member, ?_⟩
    intro removed inLast clustered same
    obtain ⟨inOld, isOp⟩ :=
      List.mem_filter.mp ((placed.removed moved clustered).mp inLast)
    rw [← wf.id_injective member inOld same] at isOp clustered
    rw [unclustered isOp] at clustered
    exact absurd clustered (by simp)
  case placed =>
    intro c id mapped
    obtain ⟨notOld, node, member, sameId, encapsulate⟩ :=
      placed.placed c id mapped
    refine ⟨notOld, node, removeNodes_nodes.mpr ⟨moved.nodes ▸ member, ?_⟩,
      sameId, encapsulate⟩
    intro removed inLast clustered same
    have inOld :=
      (List.mem_filter.mp ((placed.removed moved clustered).mp inLast)).1
    exact notOld ⟨removed, inOld, same.symm.trans sameId⟩
  case mapped =>
    intro c
    exact (placed.mapped c).trans (used c)
  case feedsOld =>
    intro v vNode u a b
    constructor
    · intro inResult
      have stays : isClustered (rewritten.graph.node v) = false := by
        by_contra clustered
        have clustered : isClustered (graph.node v) = true := by
          simpa [placed.node_old wf vNode] using clustered
        obtain ⟨inLast, notRemoved⟩ := removeNodes_feeds.mp inResult
        obtain ⟨edge, member, data, rfl, rfl, _⟩ :=
          (moved.feeds u a v b).mp inLast
        obtain ⟨old, oldIn, oldData, _, _, sameDst, _⟩ :=
          (placed.feeds_old vNode).mp ⟨edge, member, data, rfl, rfl, rfl, rfl⟩
        have dstOp := (wf.opEnds old oldIn oldData).2
        rw [sameDst] at dstOp
        have inOps : graph.node edge.dst ∈ graph.op_nodes :=
          List.mem_filter.mpr ⟨(wf.node_mem vNode).1, dstOp⟩
        exact (notRemoved _ ((placed.removed moved clustered).mpr inOps)
            clustered).2 (Graph.node_id _).symm
      obtain ⟨src, slot, feedsSrc, atMoved⟩ := (feeds stays u a b).mp inResult
      rw [placed.node_old wf vNode] at stays
      exact ⟨stays, src, slot, (placed.feeds_old vNode).mp feedsSrc, atMoved⟩
    · rintro ⟨unclustered, src, slot, old, atMoved⟩
      rw [← placed.node_old wf vNode] at unclustered
      exact (feeds unclustered u a b).mpr
        ⟨src, slot, (placed.feeds_old vNode).mpr old, atMoved⟩
  case feedsNew =>
    intro c id mapped u a b
    refine (feeds (placed.node_new mapped) u a b).trans ?_
    constructor
    · rintro ⟨src, slot, feedsSrc, atMoved⟩
      obtain ⟨k, position, atK⟩ := (placed.feeds_new wf mapped).mp feedsSrc
      exact ⟨k, src, slot, position, atK, atMoved⟩
    · rintro ⟨k, src, slot, position, atK, atMoved⟩
      exact ⟨src, slot, (placed.feeds_new wf mapped).mpr ⟨k, position, atK⟩,
        atMoved⟩

end Whole

end NGraphBridge.EncapsulateClusters
