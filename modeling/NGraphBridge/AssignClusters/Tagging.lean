import NGraphBridge.AssignClusters.Phases

/-!
# Tagging the clusters

Tagging goes through the nodes and gives an id to each cluster of marked nodes
when it meets the cluster for the first time.
-/

namespace NGraphBridge.AssignClusters

open TF Deadness MarkForClustering Relation NGraphBridge.Digraph

def tagNode (tag : Nat → Option Nat) (node : Node) : Node :=
  match tag node.id with
  | none => node
  | some cluster_idx => node.addAttr "_ngraph_cluster" (.i cluster_idx)

def tagGraph (tag : Nat → Option Nat) (graph : Graph) : Graph :=
  { graph with nodes := graph.nodes.map (tagNode tag) }

section TagNode

variable (tag : Nat → Option Nat) (node : Node)

@[simp] theorem tagNode_id : (tagNode tag node).id = node.id := by
  unfold tagNode
  split <;> rfl

@[simp] theorem tagNode_name : (tagNode tag node).name = node.name := by
  unfold tagNode
  split <;> rfl

@[simp] theorem tagNode_type :
    (tagNode tag node).type_string = node.type_string := by
  unfold tagNode
  split <;> rfl

theorem tagNode_find {name : String} (different : name ≠ "_ngraph_cluster") :
    (tagNode tag node).attrs.find name = node.attrs.find name := by
  unfold tagNode
  split
  · rfl
  · exact AttrMap.find_set_of_ne _ _ different

@[simp] theorem tagNode_marked :
    nodeIsMarkedForClustering (tagNode tag node) =
      nodeIsMarkedForClustering node := by
  rw [nodeIsMarkedForClustering, nodeIsMarkedForClustering, getNodeAttrBool,
    getNodeAttrBool, tagNode_find _ _ (by decide)]

end TagNode

theorem relabels_tagNode (tag : Nat → Option Nat) :
    Graph.Relabels (tagNode tag) := by
  refine ⟨tagNode_id tag, tagNode_name tag, tagNode_type tag, ?_, ?_⟩ <;>
    intro node
  all_goals
    unfold tagNode
    split <;> rfl

theorem updateNode_tagGraph (tag : Nat → Option Nat) (graph : Graph)
    (id cluster_idx : Nat) :
    (tagGraph tag graph).updateNode id
      (·.addAttr "_ngraph_cluster" (.i cluster_idx)) =
      tagGraph (Function.update tag id (some cluster_idx)) graph := by
  simp only [Graph.updateNode, tagGraph, List.map_map,
    TF.Graph.mk.injEq, and_true]
  apply List.map_congr_left
  intro node _
  simp only [Function.comp_apply, tagNode_id, beq_iff_eq]
  by_cases same : node.id = id
  · rw [if_pos same, tagNode, tagNode, same, Function.update_self]
    cases tag id with
    | none => rfl
    | some other =>
        simp [Node.addAttr, AttrMap.set, AttrMap.clear]
  · rw [if_neg same, tagNode, tagNode, Function.update_of_ne same]

theorem tagNodes_tagGraph (cluster_idx : Nat) (ids : List Nat)
    (tag : Nat → Option Nat) (graph : Graph) :
    tagNodes cluster_idx ids (tagGraph tag graph) =
      tagGraph (fun id => if id ∈ ids then some cluster_idx else tag id)
        graph := by
  induction ids generalizing tag with
  | nil => simp [tagNodes]
  | cons id ids ih =>
      have step : tagNodes cluster_idx (id :: ids) (tagGraph tag graph) =
          tagNodes cluster_idx ids ((tagGraph tag graph).updateNode id
            (·.addAttr "_ngraph_cluster" (.i cluster_idx))) := rfl
      rw [step, updateNode_tagGraph, ih]
      congr 1
      funext other
      by_cases same : other = id
      · simp [same]
      · simp [same]

section Scan

variable {graph : Graph} {order : graph.Enumeration} {state : State}

/-- What a scan without an error has found. -/
structure Scanned (order : graph.Enumeration) (state : State) (ids : List Nat)
    (found : Bool × Bool) : Prop where
  marked : found.1 = true ↔
    ∃ id ∈ ids, nodeIsMarkedForClustering (graph.node id) = true
  unmarked : found.2 = true ↔
    ∃ id ∈ ids, nodeIsMarkedForClustering (graph.node id) = false
  passed : ∀ id ∈ ids, nodeIsMarkedForClustering (graph.node id) = true →
    checkNodeClusterAssignmentWRTDeadness order state (graph.node id) = .ok ()

theorem scanCluster_ok {ids : List Nat} {found : Bool × Bool}
    (success : scanCluster order state ids = .ok found) :
    Scanned order state ids found := by
  induction ids generalizing found with
  | nil =>
      obtain rfl := Except.ok.inj success
      exact ⟨by simp, by simp, by simp⟩
  | cons id ids ih =>
      unfold scanCluster at success
      dsimp only at success
      split at success
      case isTrue marked =>
        obtain ⟨_, checked, success⟩ := bind_ok success
        obtain ⟨rest, atRest, success⟩ := bind_ok success
        obtain rfl := Except.ok.inj success
        have scanned := ih atRest
        refine ⟨by simp [marked], by simp [marked, scanned.unmarked], ?_⟩
        intro other member isMarked
        cases List.mem_cons.mp member with
        | inl same => exact same ▸ checked
        | inr later => exact scanned.passed other later isMarked
      case isFalse unmarked =>
        obtain ⟨rest, atRest, success⟩ := bind_ok success
        obtain rfl := Except.ok.inj success
        have scanned := ih atRest
        refine ⟨by simp [unmarked, scanned.marked], by simp [unmarked], ?_⟩
        intro other member isMarked
        cases List.mem_cons.mp member with
        | inl same => exact absurd (same ▸ isMarked) unmarked
        | inr later => exact scanned.passed other later isMarked

end Scan

section Clusters

variable {graph : Graph} {order : graph.Enumeration} {state : State}
  {manager : ClusterManager} {tag : Nat → Option Nat} {tags : Tags}

/-- `tag` is what the nodes of the clusters seen so far were tagged with. -/
structure Tagged (order : graph.Enumeration) (state : State)
    (manager : ClusterManager) (tag : Nat → Option Nat) (tags : Tags) :
    Prop where
  output : tags.graph = tagGraph tag graph
  appended : ∃ count, tags.manager.s_cluster_graphs =
    manager.s_cluster_graphs ++ List.replicate count .empty
  range : ∀ {a c}, tag a = some c → manager.s_cluster_graphs.length ≤ c ∧
    c < tags.manager.s_cluster_graphs.length
  together : ∀ {a b c}, graph.HasNode a → graph.HasNode b → tag a = some c →
    (tag b = some c ↔ state.cluster_map a = state.cluster_map b)
  marked : ∀ {a}, graph.HasNode a → state.cluster_map a ∈ tags.seen →
    ((tag a).isSome = true ↔ nodeIsMarkedForClustering (graph.node a) = true)
  passed : ∀ {a}, graph.HasNode a → state.cluster_map a ∈ tags.seen →
    nodeIsMarkedForClustering (graph.node a) = true →
    checkNodeClusterAssignmentWRTDeadness order state (graph.node a) = .ok ()
  unseen : ∀ {a}, graph.HasNode a → state.cluster_map a ∉ tags.seen →
    tag a = none

theorem tagged_init (order : graph.Enumeration) (state : State)
    (manager : ClusterManager) :
    Tagged order state manager (fun _ => none) ⟨[], manager, graph⟩ where
  output := by
    have identity : tagNode (fun _ => none) = id := rfl
    simp [tagGraph, identity]
  appended := ⟨0, by simp⟩
  range := by simp
  together := by simp
  marked := by simp
  passed := by simp
  unseen := by simp

section Step

variable {linked : Nat → Nat → Prop} {shadowed : Edge → Prop} {ids : List Nat}
  {cluster : Nat} {found : Bool × Bool}

/-- A new cluster without a marked node is left alone. -/
theorem Tagged.skip (tagged : Tagged order state manager tag tags)
    (members : ∀ a, a ∈ ids ↔ graph.HasNode a ∧ state.cluster_map a = cluster)
    (new : cluster ∉ tags.seen) (scanned : Scanned order state ids found)
    (noneMarked : found.1 = false) :
    Tagged order state manager tag
      { tags with seen := cluster :: tags.seen } := by
  have unmarked : ∀ {a}, graph.HasNode a → state.cluster_map a = cluster →
      nodeIsMarkedForClustering (graph.node a) ≠ true := by
    intro a aNode inCluster isMarked
    have some_ := scanned.marked.mpr
      ⟨a, (members a).mpr ⟨aNode, inCluster⟩, isMarked⟩
    rw [noneMarked] at some_
    exact absurd some_ (by simp)
  refine ⟨tagged.output, tagged.appended, tagged.range, tagged.together,
    ?_, ?_, ?_⟩
  · intro a aNode isSeen
    cases List.mem_cons.mp isSeen with
    | inl inCluster =>
        rw [tagged.unseen aNode (inCluster ▸ new)]
        exact ⟨fun some_ => absurd some_ (by simp),
          fun isMarked => absurd isMarked (unmarked aNode inCluster)⟩
    | inr old => exact tagged.marked aNode old
  · intro a aNode isSeen isMarked
    cases List.mem_cons.mp isSeen with
    | inl inCluster => exact absurd isMarked (unmarked aNode inCluster)
    | inr old => exact tagged.passed aNode old isMarked
  · intro a aNode notSeen
    exact tagged.unseen aNode (fun old => notSeen (List.mem_cons_of_mem _ old))

/-- A new cluster of marked nodes gets the next id. -/
theorem Tagged.give (tagged : Tagged order state manager tag tags)
    (members : ∀ a, a ∈ ids ↔ graph.HasNode a ∧ state.cluster_map a = cluster)
    (scanned : Scanned order state ids found)
    (allMarked : found.2 = false) :
    Tagged order state manager
      (fun id => if id ∈ ids then some tags.manager.s_cluster_graphs.length
        else tag id)
      { seen := cluster :: tags.seen
        manager := tags.manager.newCluster.1
        graph := tagNodes tags.manager.newCluster.2 ids tags.graph } := by
  have marked : ∀ {a}, a ∈ ids →
      nodeIsMarkedForClustering (graph.node a) = true := by
    intro a member
    by_contra notMarked
    have some_ := scanned.unmarked.mpr ⟨a, member, by simpa using notMarked⟩
    rw [allMarked] at some_
    exact absurd some_ (by simp)
  obtain ⟨count, appended⟩ := tagged.appended
  constructor
  case output =>
    rw [tagged.output]
    exact tagNodes_tagGraph _ _ _ _
  case appended =>
    refine ⟨count + 1, ?_⟩
    simp only [ClusterManager.newCluster, appended]
    rw [List.replicate_succ', List.append_assoc]
  case range =>
    intro a c tagA
    have length : tags.manager.newCluster.1.s_cluster_graphs.length =
        tags.manager.s_cluster_graphs.length + 1 := by
      simp [ClusterManager.newCluster]
    split at tagA
    · obtain rfl := Option.some.inj tagA
      rw [length, appended, List.length_append]
      omega
    · obtain ⟨low, high⟩ := tagged.range tagA
      exact ⟨low, by rw [length]; omega⟩
  case together =>
    intro a b c aNode bNode tagA
    by_cases aNew : a ∈ ids
    · rw [if_pos aNew] at tagA
      obtain rfl := Option.some.inj tagA
      rw [((members a).mp aNew).2]
      by_cases bNew : b ∈ ids
      · simp [bNew, ((members b).mp bNew).2]
      · rw [if_neg bNew]
        constructor
        · intro tagB
          exact absurd (tagged.range tagB).2 (lt_irrefl _)
        · intro together
          exact absurd ((members b).mpr ⟨bNode, together.symm⟩) bNew
    · rw [if_neg aNew] at tagA
      by_cases bNew : b ∈ ids
      · rw [if_pos bNew]
        constructor
        · intro tagB
          obtain rfl := Option.some.inj tagB
          exact absurd (tagged.range tagA).2 (lt_irrefl _)
        · intro together
          rw [((members b).mp bNew).2] at together
          exact absurd ((members a).mpr ⟨aNode, together⟩) aNew
      · rw [if_neg bNew]
        exact tagged.together aNode bNode tagA
  case marked =>
    intro a aNode isSeen
    by_cases aNew : a ∈ ids
    · simp [aNew, marked aNew]
    · rw [if_neg aNew]
      cases List.mem_cons.mp isSeen with
      | inl inCluster => exact absurd ((members a).mpr ⟨aNode, inCluster⟩) aNew
      | inr old => exact tagged.marked aNode old
  case passed =>
    intro a aNode isSeen isMarked
    cases List.mem_cons.mp isSeen with
    | inl inCluster =>
        exact scanned.passed a ((members a).mpr ⟨aNode, inCluster⟩) isMarked
    | inr old => exact tagged.passed aNode old isMarked
  case unseen =>
    intro a aNode notSeen
    have other : a ∉ ids := by
      intro member
      exact notSeen (by simp [((members a).mp member).2])
    rw [if_neg other]
    exact tagged.unseen aNode (fun old => notSeen (List.mem_cons_of_mem _ old))

theorem tagCluster_tagged {id : Nat} {next : Tags}
    (inv : Inv graph linked shadowed state) (idNode : graph.HasNode id)
    (tagged : Tagged order state manager tag tags)
    (success : tagCluster order state id tags = (next, .ok ())) :
    (∃ more, Tagged order state manager more next) ∧
      state.cluster_map id ∈ next.seen ∧
      ∀ cluster ∈ tags.seen, cluster ∈ next.seen := by
  have members : ∀ a, a ∈ order.pointers.filter
      (· ∈ (state.heap (state.cluster_map id)).nodes) ↔
        graph.HasNode a ∧ state.cluster_map a = state.cluster_map id := by
    intro a
    rw [List.mem_filter, order.pointersPerm.mem_iff, decide_eq_true_iff]
    have inCluster := inv.members idNode a
    rw [State.cluster] at inCluster
    rw [inCluster, List.mem_map]
    exact ⟨fun both => both.2, fun both => ⟨both.1, both⟩⟩
  unfold tagCluster at success
  dsimp only at success
  split at success
  case isTrue seen =>
    cases success
    exact ⟨⟨tag, tagged⟩, by simpa using seen, fun _ old => old⟩
  case isFalse new =>
    have new : state.cluster_map id ∉ tags.seen := by simpa using new
    split at success
    case h_1 => simp at success
    case h_2 => simp at success
    case h_3 _ found =>
      cases success
      exact ⟨⟨tag, tagged.skip members new (scanCluster_ok found) rfl⟩, by simp,
        fun _ old => List.mem_cons_of_mem _ old⟩
    case h_4 found =>
      cases success
      exact ⟨⟨_, tagged.give members (scanCluster_ok found) rfl⟩, by simp,
        fun _ old => List.mem_cons_of_mem _ old⟩

theorem tagClusters_tagged {next : Tags} (inv : Inv graph linked shadowed state)
    (inside : ∀ id ∈ ids, graph.HasNode id)
    (tagged : Tagged order state manager tag tags)
    (success : tagClusters order state ids tags = (next, .ok ())) :
    (∃ more, Tagged order state manager more next) ∧
      (∀ id ∈ ids, state.cluster_map id ∈ next.seen) ∧
      ∀ cluster ∈ tags.seen, cluster ∈ next.seen := by
  induction ids generalizing tag tags with
  | nil =>
      cases success
      exact ⟨⟨tag, tagged⟩, by simp, fun _ old => old⟩
  | cons id ids ih =>
      unfold tagClusters at success
      split at success
      case h_2 => simp at success
      case h_1 middle atId =>
        obtain ⟨⟨more, middleTagged⟩, seen, grown⟩ :=
          tagCluster_tagged inv (inside id (by simp)) tagged atId
        obtain ⟨result, rest, last⟩ :=
          ih (fun id member => inside id (by simp [member]))
            middleTagged success
        refine ⟨result, ?_, fun cluster old => last cluster (grown cluster old)⟩
        intro other member
        cases List.mem_cons.mp member with
        | inl same => exact same ▸ last _ seen
        | inr later => exact rest other later

end Step

end Clusters

/-- What a run of the pass without an error has done. -/
structure Assigned {graph : Graph} (hasher : Hasher) (order : graph.Enumeration)
    (manager : ClusterManager) (predicate_map : PredicateMap) (state : State)
    (tag : Nat → Option Nat) (outcome : Outcome) : Prop
    extends Found hasher order predicate_map state where
  output : outcome.graph = tagGraph tag graph
  appended : ∃ count, outcome.manager.s_cluster_graphs =
    manager.s_cluster_graphs ++ List.replicate count .empty
  range : ∀ {a c}, tag a = some c → manager.s_cluster_graphs.length ≤ c ∧
    c < outcome.manager.s_cluster_graphs.length
  together : ∀ {a b c}, graph.HasNode a → graph.HasNode b → tag a = some c →
    (tag b = some c ↔ state.cluster_map a = state.cluster_map b)
  marked : ∀ {a}, graph.HasNode a →
    ((tag a).isSome = true ↔ nodeIsMarkedForClustering (graph.node a) = true)
  passed : ∀ {a}, graph.HasNode a →
    nodeIsMarkedForClustering (graph.node a) = true →
    checkNodeClusterAssignmentWRTDeadness order state (graph.node a) = .ok ()

theorem assignClusters_state {graph : Graph} {hasher : Hasher}
    {order : graph.Enumeration} {manager : ClusterManager} (wf : graph.WF)
    (success : (assignClusters hasher order manager).status = .ok ()) :
    ∃ predicate_map state tag, clusters hasher order = .ok state ∧
      Assigned hasher order manager predicate_map state tag
        (assignClusters hasher order manager) := by
  unfold assignClusters at success ⊢
  split at success
  case h_1 => simp at success
  case h_2 state foundState =>
    obtain ⟨predicate_map, found⟩ := clusters_found wf foundState
    cases atTags :
      tagClusters order state order.pointers ⟨[], manager, graph⟩ with
    | mk tags status =>
        rw [atTags] at success
        obtain rfl := success
        have pointers : ∀ id, id ∈ order.pointers ↔ graph.HasNode id := by
          intro id
          rw [order.pointersPerm.mem_iff, List.mem_map]
          rfl
        obtain ⟨⟨tag, tagged⟩, seen, _⟩ := tagClusters_tagged found.inv
          (fun id => (pointers id).mp) (tagged_init order state manager) atTags
        have seen : ∀ {a}, graph.HasNode a → state.cluster_map a ∈ tags.seen :=
          fun aNode => seen _ ((pointers _).mpr aNode)
        exact ⟨predicate_map, state, tag, foundState, found, tagged.output,
          tagged.appended, tagged.range, tagged.together,
          fun aNode => tagged.marked aNode (seen aNode),
          fun aNode => tagged.passed aNode (seen aNode)⟩

theorem assignClusters_assigned {graph : Graph} {hasher : Hasher}
    {order : graph.Enumeration} {manager : ClusterManager} (wf : graph.WF)
    (success : (assignClusters hasher order manager).status = .ok ()) :
    ∃ predicate_map state tag,
      Assigned hasher order manager predicate_map state tag
      (assignClusters hasher order manager) := by
  obtain ⟨predicate_map, state, tag, _, assigned⟩ :=
    assignClusters_state wf success
  exact ⟨predicate_map, state, tag, assigned⟩

section Manager

variable {graph : Graph} {order : graph.Enumeration} {state : State}

/-- Tagging only adds graphs to the manager, also when it fails. -/
theorem tagCluster_manager (id : Nat) (tags : Tags) : ∃ more,
    (tagCluster order state id tags).1.manager.s_cluster_graphs =
      tags.manager.s_cluster_graphs ++ more := by
  unfold tagCluster
  dsimp only
  split
  · exact ⟨[], by simp⟩
  · split
    · exact ⟨[], by simp⟩
    · exact ⟨[], by simp⟩
    · exact ⟨[], by simp⟩
    · exact ⟨[.empty], rfl⟩

theorem tagClusters_manager (ids : List Nat) (tags : Tags) : ∃ more,
    (tagClusters order state ids tags).1.manager.s_cluster_graphs =
      tags.manager.s_cluster_graphs ++ more := by
  induction ids generalizing tags with
  | nil => exact ⟨[], by simp [tagClusters]⟩
  | cons id ids ih =>
      obtain ⟨first, atFirst⟩ := @tagCluster_manager graph order state id tags
      unfold tagClusters
      split
      case h_1 middle stepped =>
        rw [stepped] at atFirst
        obtain ⟨rest, atRest⟩ := ih middle
        exact ⟨first ++ rest, by rw [atRest, atFirst, List.append_assoc]⟩
      case h_2 middle error stepped =>
        rw [stepped] at atFirst
        exact ⟨first, atFirst⟩

theorem assignClusters_manager {hasher : Hasher}
    (manager : ClusterManager) : ∃ more,
    (assignClusters hasher order manager).manager.s_cluster_graphs =
      manager.s_cluster_graphs ++ more := by
  unfold assignClusters
  split
  · exact ⟨[], by simp⟩
  · exact tagClusters_manager _ _

end Manager

end NGraphBridge.AssignClusters
