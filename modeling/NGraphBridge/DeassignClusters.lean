import NGraphBridge.AssignClusters.Pass

/-!
# The deassignment pass

Clusters with too few operations of their own are given up: their nodes lose
the cluster id and the mark.
-/

namespace NGraphBridge.DeassignClusters

open TF MarkForClustering AssignClusters

/-- The environment variables `NGRAPH_TF_DISABLE_DEASSIGN_CLUSTERS` and
`NGRAPH_TF_MIN_NONTRIVIAL_NODES`. -/
structure Environment where
  disable_deassign_clusters : Bool
  min_nontrivial_nodes : Option Int

/-- `cluster_map[cluster_idx].insert(node)`; the entries are ordered by key. -/
def insertNode (cluster_idx : Int) (id : Nat) :
    List (Int × List Nat) → List (Int × List Nat)
  | [] => [(cluster_idx, [id])]
  | (key, ids) :: entries =>
      if cluster_idx < key then (cluster_idx, [id]) :: (key, ids) :: entries
      else if cluster_idx = key then (key, id :: ids) :: entries
      else (key, ids) :: insertNode cluster_idx id entries

def clusterMap : List Node → List (Int × List Nat) → List (Int × List Nat)
  | [], cluster_map => cluster_map
  | node :: nodes, cluster_map =>
      match getNodeCluster node with
      | .error _ => clusterMap nodes cluster_map
      | .ok cluster_idx =>
          clusterMap nodes (insertNode cluster_idx node.id cluster_map)

/-- The second name is spelt so in the source. -/
def trivial_ops : List String := ["Const", "Identitiy"]

def nonTrivialCount (graph : Graph) (ids : List Nat) : Nat :=
  (ids.filter (fun id =>
        !trivial_ops.contains (graph.node id).type_string)).length

def bustNode (node : Node) : Node :=
  (node.clearAttr "_ngraph_cluster").clearAttr "_ngraph_marked_for_clustering"

def bustNodes (ids : List Nat) (graph : Graph) : Graph :=
  ids.foldl (fun graph id => graph.updateNode id bustNode) graph

def deassignCluster (env : Environment) (graph : Graph)
    (entry : Int × List Nat) : Graph :=
  if (nonTrivialCount graph entry.2 : Int) <
    env.min_nontrivial_nodes.getD 6 then
    bustNodes entry.2 graph
  else graph

def deassignClusters (env : Environment) (graph : Graph) : Graph :=
  if env.disable_deassign_clusters then graph
  else (clusterMap graph.nodes []).foldl (deassignCluster env) graph

/-- A node after the clusters in `busted` were given up. -/
def keepOrBust (busted : Int → Bool) (node : Node) : Node :=
  match getNodeCluster node with
  | .ok cluster_idx => if busted cluster_idx then bustNode node else node
  | .error _ => node

/-- A graph after the clusters in `busted` were given up. -/
def deassigned (busted : Int → Bool) (graph : Graph) : Graph :=
  { graph with nodes := graph.nodes.map (keepOrBust busted) }

theorem bustNode_bustNode (node : Node) :
    bustNode (bustNode node) = bustNode node := by
  simp only [bustNode, Node.clearAttr, AttrMap.clear, List.filter_filter]
  congr 1
  apply List.filter_congr
  intro entry _
  cases entry.1 != "_ngraph_cluster" with
  | true => simp
  | false => simp

theorem getNodeCluster_bustNode (node : Node) :
    ∃ error, getNodeCluster (bustNode node) = .error error := by
  have cleared : (bustNode node).attrs.find "_ngraph_cluster" = none := by
    rw [bustNode, Node.clearAttr, AttrMap.find_clear_of_ne _ (by decide),
      Node.clearAttr, AttrMap.find_clear_self]
  unfold getNodeCluster getNodeAttrInt
  rw [cleared]
  exact ⟨_, rfl⟩

theorem bustNodes_eq (ids : List Nat) (graph : Graph) :
    bustNodes ids graph = { graph with
      nodes := graph.nodes.map fun node => if node.id ∈ ids then bustNode node
        else node } := by
  induction ids generalizing graph with
  | nil => simp [bustNodes]
  | cons id ids ih =>
      have step : bustNodes (id :: ids) graph =
          bustNodes ids (graph.updateNode id bustNode) :=
        rfl
      rw [step, ih, Graph.updateNode]
      congr 1
      rw [List.map_map]
      apply List.map_congr_left
      intro node _
      by_cases same : node.id = id
      · have keepsId : (bustNode node).id = id := same
        simp only [Function.comp_apply, same, beq_self_eq_true,
          if_true, keepsId, List.mem_cons, true_or]
        split
        · exact bustNode_bustNode node
        · rfl
      · simp [same]

theorem insertNode_keys {cluster_idx key : Int} {id : Nat}
    {entries : List (Int × List Nat)} :
    key ∈ (insertNode cluster_idx id entries).map Prod.fst ↔
      key = cluster_idx ∨ key ∈ entries.map Prod.fst := by
  induction entries with
  | nil => simp [insertNode]
  | cons entry entries ih =>
      unfold insertNode
      split
      · simp
      · split
        case isTrue same => simp [same]
        case isFalse =>
          rw [List.map_cons, List.mem_cons, ih, List.map_cons, List.mem_cons]
          exact or_left_comm

theorem insertNode_sorted {cluster_idx : Int} {id : Nat}
    {entries : List (Int × List Nat)}
    (sorted : (entries.map Prod.fst).Pairwise (· < ·)) :
    ((insertNode cluster_idx id entries).map Prod.fst).Pairwise (· < ·) := by
  induction entries with
  | nil => simp [insertNode]
  | cons entry entries ih =>
      rw [List.map_cons, List.pairwise_cons] at sorted
      unfold insertNode
      split
      case isTrue below =>
        rw [List.map_cons, List.map_cons, List.pairwise_cons,
          List.pairwise_cons]
        refine ⟨?_, sorted⟩
        intro key member
        cases List.mem_cons.mp member with
        | inl same => exact same ▸ below
        | inr later => exact below.trans (sorted.1 key later)
      case isFalse notBelow =>
        split
        · exact List.pairwise_cons.mpr sorted
        case isFalse different =>
          rw [List.map_cons, List.pairwise_cons]
          refine ⟨?_, ih sorted.2⟩
          intro key member
          cases insertNode_keys.mp member with
          | inl same =>
              rw [same]
              dsimp only
              omega
          | inr later => exact sorted.1 key later

/-- The ids under a key. -/
def idsOf (entries : List (Int × List Nat)) (key : Int) : List Nat :=
  entries.flatMap fun entry => if entry.1 = key then entry.2 else []

theorem idsOf_cons (entry : Int × List Nat) (entries : List (Int × List Nat))
    (key : Int) :
    idsOf (entry :: entries) key = (if entry.1 = key then entry.2 else []) ++
      idsOf entries key :=
  rfl

theorem idsOf_insertNode {cluster_idx key : Int} {id : Nat}
    {entries : List (Int × List Nat)} :
    idsOf (insertNode cluster_idx id entries) key =
      if cluster_idx = key then id :: idsOf entries key
        else idsOf entries key := by
  induction entries with
  | nil =>
      rw [insertNode, idsOf_cons]
      split <;> rfl
  | cons entry entries ih =>
      unfold insertNode
      split
      case isTrue =>
        rw [idsOf_cons]
        split <;> rfl
      case isFalse =>
        split
        case isTrue same =>
          rw [idsOf_cons, idsOf_cons, same]
          split <;> rfl
        case isFalse different =>
          rw [idsOf_cons, ih, idsOf_cons]
          by_cases here : cluster_idx = key
          · have other : entry.1 ≠ key :=
              fun same => different (here.trans same.symm)
            rw [if_pos here, if_pos here, if_neg other]
            rfl
          · rw [if_neg here, if_neg here]

/-- A node of a cluster. -/
def inCluster (cluster_idx : Int) (node : Node) : Bool :=
  decide (getNodeCluster node = .ok cluster_idx)

theorem idsOf_clusterMap {nodes : List Node} {entries : List (Int × List Nat)}
    {key : Int} :
    idsOf (clusterMap nodes entries) key =
      ((nodes.filter (inCluster key)).map Node.id).reverse ++
        idsOf entries key := by
  induction nodes generalizing entries with
  | nil => rfl
  | cons node nodes ih =>
      unfold clusterMap
      cases found : getNodeCluster node with
      | error error =>
          have outside : inCluster key node = false := by
            simp [inCluster, found]
          dsimp only
          rw [ih, List.filter_cons_of_neg (by simp [outside])]
      | ok cluster_idx =>
          dsimp only
          rw [ih, idsOf_insertNode]
          by_cases here : cluster_idx = key
          · have inside : inCluster key node = true := by
              simp [inCluster, found, here]
            rw [if_pos here, List.filter_cons_of_pos inside, List.map_cons,
              List.reverse_cons, List.append_assoc]
            rfl
          · have outside : inCluster key node = false := by
              simp [inCluster, found, here]
            rw [if_neg here, List.filter_cons_of_neg (by simp [outside])]

theorem clusterMap_sorted {nodes : List Node} {entries : List (Int × List Nat)}
    (sorted : (entries.map Prod.fst).Pairwise (· < ·)) :
    ((clusterMap nodes entries).map Prod.fst).Pairwise (· < ·) := by
  induction nodes generalizing entries with
  | nil => exact sorted
  | cons node nodes ih =>
      unfold clusterMap
      cases getNodeCluster node with
      | error error => exact ih sorted
      | ok cluster_idx => exact ih (insertNode_sorted sorted)

/-- An entry holds what is under its key. -/
theorem idsOf_entry {entries : List (Int × List Nat)} {entry : Int × List Nat}
    (sorted : (entries.map Prod.fst).Pairwise (· < ·))
    (member : entry ∈ entries) :
    idsOf entries entry.1 = entry.2 := by
  induction entries with
  | nil => exact absurd member (by simp)
  | cons first entries ih =>
      rw [List.map_cons, List.pairwise_cons] at sorted
      rw [idsOf_cons]
      cases List.mem_cons.mp member with
      | inl same =>
          subst same
          have rest : idsOf entries entry.1 = [] := by
            rw [idsOf, List.flatMap_eq_nil_iff]
            intro later laterIn
            have below := sorted.1 later.1 (List.mem_map_of_mem laterIn)
            rw [if_neg (by omega)]
          rw [if_pos rfl, rest, List.append_nil]
      | inr later =>
          have below := sorted.1 entry.1 (List.mem_map_of_mem later)
          rw [if_neg (by omega), ih sorted.2 later, List.nil_append]

section KeepOrBust

variable (busted : Int → Bool) (node : Node)

@[simp] theorem keepOrBust_id : (keepOrBust busted node).id = node.id := by
  unfold keepOrBust
  split
  · split <;> rfl
  · rfl

@[simp] theorem keepOrBust_name :
    (keepOrBust busted node).name = node.name := by
  unfold keepOrBust
  split
  · split <;> rfl
  · rfl

@[simp] theorem keepOrBust_type :
    (keepOrBust busted node).type_string = node.type_string := by
  unfold keepOrBust
  split
  · split <;> rfl
  · rfl

/-- A node keeps its cluster id unless its cluster is given up. -/
theorem getNodeCluster_keepOrBust {c : Int} :
    getNodeCluster (keepOrBust busted node) = .ok c ↔
      getNodeCluster node = .ok c ∧ busted c = false := by
  unfold keepOrBust
  cases found : getNodeCluster node with
  | error error => simp [found]
  | ok cluster_idx =>
      dsimp only
      cases gone : busted cluster_idx with
      | true =>
          obtain ⟨error, cleared⟩ := getNodeCluster_bustNode node
          rw [if_pos rfl, cleared]
          simp only [reduceCtorEq, Except.ok.injEq, false_iff, not_and,
            Bool.not_eq_false]
          rintro rfl
          exact gone
      | false =>
          rw [if_neg (by simp), found, Except.ok.injEq]
          constructor
          · rintro rfl
            exact ⟨rfl, gone⟩
          · exact And.left

end KeepOrBust

theorem relabels_keepOrBust (busted : Int → Bool) :
    Graph.Relabels (keepOrBust busted) := by
  refine ⟨keepOrBust_id busted, keepOrBust_name busted,
    keepOrBust_type busted, ?_, ?_⟩ <;> intro node
  all_goals
    unfold keepOrBust
    split
    · split <;> rfl
    · rfl

/-- The nodes of a cluster whose ops are not among given ones. -/
def clusterCount (ops : List String) (graph : Graph)
    (cluster_idx : Int) : Nat :=
  (graph.nodes.filter fun node =>
    inCluster cluster_idx node && !ops.contains node.type_string).length

/-- The count of an entry is the count of its cluster, also after others were
given up. -/
theorem nonTrivialCount_deassigned {graph : Graph} (wf : graph.WF)
    (busted : Int → Bool) (cluster_idx : Int) :
    nonTrivialCount (deassigned busted graph)
      ((graph.nodes.filter (inCluster cluster_idx)).map Node.id).reverse =
        clusterCount trivial_ops graph cluster_idx := by
  have types : ∀ node ∈ graph.nodes,
      ((deassigned busted graph).node node.id).type_string =
        node.type_string := by
    intro node member
    have here := (relabels_keepOrBust busted).node ⟨node, member, rfl⟩
    have here : (deassigned busted graph).node node.id =
        keepOrBust busted (graph.node node.id) :=
      here
    rw [here, Graph.node_of_mem wf.ids member, keepOrBust_type]
  rw [nonTrivialCount, clusterCount, List.filter_reverse, List.length_reverse,
    List.filter_map, List.length_map, List.filter_filter]
  congr 1
  apply List.filter_congr
  intro node member
  rw [Function.comp_apply, types node member, Bool.and_comm]

theorem deassign_entries {env : Environment} {graph : Graph} (wf : graph.WF)
    {entries : List (Int × List Nat)} {busted : Int → Bool}
    (notYet : ∀ entry ∈ entries, busted entry.1 = false)
    (sorted : (entries.map Prod.fst).Pairwise (· < ·))
    (members : ∀ entry ∈ entries,
      entry.2 =
        ((graph.nodes.filter (inCluster entry.1)).map Node.id).reverse) :
    entries.foldl (deassignCluster env) (deassigned busted graph) =
      deassigned (fun c => busted c || entries.any fun entry => entry.1 == c &&
        decide ((clusterCount trivial_ops graph c : Int) <
          env.min_nontrivial_nodes.getD 6))
        graph := by
  induction entries generalizing busted with
  | nil =>
      simp only [List.any_nil, Bool.or_false]
      rfl
  | cons entry entries ih =>
      rw [List.map_cons, List.pairwise_cons] at sorted
      have apart : ∀ later ∈ entries, later.1 ≠ entry.1 := by
        intro later member same
        have below := sorted.1 later.1 (List.mem_map_of_mem member)
        omega
      have rest : ∀ later ∈ entries,
          later.2 =
            ((graph.nodes.filter (inCluster later.1)).map Node.id).reverse :=
        fun later member => members later (by simp [member])
      have count := nonTrivialCount_deassigned wf busted entry.1
      rw [← members entry (by simp)] at count
      rw [List.foldl_cons, deassignCluster, count]
      by_cases few : (clusterCount trivial_ops graph entry.1 : Int) <
          env.min_nontrivial_nodes.getD 6
      · rw [if_pos few]
        have step : bustNodes entry.2 (deassigned busted graph) =
            deassigned (Function.update busted entry.1 true) graph := by
          rw [bustNodes_eq, deassigned, deassigned]
          congr 1
          rw [List.map_map]
          apply List.map_congr_left
          intro node inGraph
          have inEntry : node.id ∈ entry.2 ↔
              getNodeCluster node = .ok entry.1 := by
            rw [members entry (by simp), List.mem_reverse, List.mem_map]
            constructor
            · rintro ⟨other, otherIn, sameId⟩
              obtain ⟨otherIn, inside⟩ := List.mem_filter.mp otherIn
              rw [← wf.id_injective otherIn inGraph sameId]
              exact of_decide_eq_true inside
            · exact fun inside =>
                ⟨node, List.mem_filter.mpr ⟨inGraph, decide_eq_true inside⟩,
                  rfl⟩
          simp only [Function.comp_apply, keepOrBust_id, inEntry]
          cases found : getNodeCluster node with
          | error error => simp [keepOrBust, found]
          | ok cluster_idx =>
              by_cases same : cluster_idx = entry.1
              · simp [keepOrBust, found, same, notYet entry (by simp)]
              · simp [keepOrBust, found, same]
        rw [step, ih _ sorted.2 rest]
        · congr 1
          funext c
          rw [List.any_cons]
          by_cases here : c = entry.1
          · subst here
            simp [few]
          · rw [Function.update_of_ne here]
            have other : (entry.1 == c) = false := by simpa using Ne.symm here
            rw [other, Bool.false_and, Bool.false_or]
        · intro later member
          rw [Function.update_of_ne (apart later member)]
          exact notYet later (by simp [member])
      · rw [if_neg few,
          ih (fun later member => notYet later (by simp [member]))
            sorted.2 rest]
        congr 1
        funext c
        rw [List.any_cons]
        by_cases here : entry.1 = c
        · subst here
          simp [few]
        · have other : (entry.1 == c) = false := by simpa using here
          rw [other, Bool.false_and, Bool.false_or]

/-- The clusters that are given up. -/
def isBusted (env : Environment) (graph : Graph) (cluster_idx : Int) : Bool :=
  decide ((clusterCount trivial_ops graph cluster_idx : Int) <
      env.min_nontrivial_nodes.getD 6)

theorem deassigned_congr {graph : Graph} {busted other : Int → Bool}
    (same : ∀ node ∈ graph.nodes, ∀ c, getNodeCluster node = .ok c →
      busted c = other c) :
    deassigned busted graph = deassigned other graph := by
  rw [deassigned, deassigned]
  congr 1
  apply List.map_congr_left
  intro node member
  unfold keepOrBust
  cases found : getNodeCluster node with
  | error error => rfl
  | ok c =>
      dsimp only
      rw [same node member c found]

theorem deassigned_none (graph : Graph) :
    deassigned (fun _ => false) graph = graph := by
  have same : keepOrBust (fun _ => false) = id := by
    funext node
    unfold keepOrBust
    split <;> simp
  rw [deassigned, same, List.map_id]

/-- The pass gives up the clusters with too few other ops. -/
theorem deassignClusters_busted {env : Environment} {graph : Graph}
    (wf : graph.WF) (enabled : env.disable_deassign_clusters = false) :
    deassignClusters env graph = deassigned (isBusted env graph) graph := by
  have sorted := @clusterMap_sorted graph.nodes [] (by simp)
  have members : ∀ entry ∈ clusterMap graph.nodes [],
      entry.2 =
        ((graph.nodes.filter (inCluster entry.1)).map Node.id).reverse := by
    intro entry member
    rw [← idsOf_entry sorted member, idsOf_clusterMap]
    exact List.append_nil _
  have whole := @deassign_entries env graph wf _ (fun _ => false)
    (fun _ _ => rfl) sorted members
  rw [deassigned_none] at whole
  unfold deassignClusters
  rw [if_neg (by simp [enabled]), whole]
  apply deassigned_congr
  intro node member c inside
  have hasEntry : ∃ entry ∈ clusterMap graph.nodes [], entry.1 = c := by
    have isMember : node.id ∈ idsOf (clusterMap graph.nodes []) c := by
      rw [idsOf_clusterMap, List.mem_append, List.mem_reverse]
      exact .inl
        (List.mem_map_of_mem
          (List.mem_filter.mpr ⟨member, decide_eq_true inside⟩))
    obtain ⟨entry, entryIn, isMember⟩ := List.mem_flatMap.mp isMember
    split at isMember
    · next same => exact ⟨entry, entryIn, same⟩
    · exact absurd isMember (by simp)
  obtain ⟨entry, entryIn, rfl⟩ := hasEntry
  rw [Bool.false_or, isBusted]
  cases few : decide ((clusterCount trivial_ops graph entry.1 : Int) <
      env.min_nontrivial_nodes.getD 6) with
  | true =>
      rw [List.any_eq_true]
      exact ⟨entry, entryIn, by simp⟩
  | false => simp

theorem deassignClusters_eq (env : Environment) {graph : Graph}
    (wf : graph.WF) :
    ∃ busted, deassignClusters env graph = deassigned busted graph := by
  cases disabled : env.disable_deassign_clusters with
  | false => exact ⟨_, deassignClusters_busted wf disabled⟩
  | true =>
      refine ⟨fun _ => false, ?_⟩
      rw [deassignClusters, if_pos disabled, deassigned_none]

/-- The trivial ops by the comment of the pass. -/
def documentedTrivialOps : List String := ["Const", "Identity"]

/-- The clusters with fewer than `m` ops that are not trivial are given up, the
others are kept as they are, and nothing else is changed. -/
structure Deassigns (m : Int) (before after : Graph) : Prop where
  enough : ∀ c, (∃ node ∈ after.nodes, getNodeCluster node = .ok c) →
    m ≤ clusterCount documentedTrivialOps before c
  members : ∀ c, (∃ node ∈ after.nodes, getNodeCluster node = .ok c) → ∀ node,
    getNodeCluster node = .ok c → (node ∈ after.nodes ↔ node ∈ before.nodes)
  lost : ∀ c, (clusterCount documentedTrivialOps before c : Int) < m →
    ∀ node ∈ before.nodes, getNodeCluster node = .ok c → ∃ left ∈ after.nodes,
    left.id = node.id ∧
      left.attrs.find "_ngraph_cluster" = none ∧
      left.attrs.find "_ngraph_marked_for_clustering" = none
  edges : after.edges = before.edges
  nodes : List.Forall₂
    (fun node left => { left with attrs := node.attrs } = node ∧
    (∀ key, key ≠ "_ngraph_cluster" → key ≠ "_ngraph_marked_for_clustering" →
      left.attrs.find key = node.attrs.find key) ∧
    ((∀ c, getNodeCluster node = .ok c →
      m ≤ clusterCount documentedTrivialOps before c) → left = node))
      before.nodes after.nodes

theorem bustNode_cluster (node : Node) :
    (bustNode node).attrs.find "_ngraph_cluster" = none := by
  rw [bustNode, Node.clearAttr, AttrMap.find_clear_of_ne _ (by decide),
    Node.clearAttr, AttrMap.find_clear_self]

theorem bustNode_mark (node : Node) :
    (bustNode node).attrs.find "_ngraph_marked_for_clustering" = none := by
  rw [bustNode, Node.clearAttr, AttrMap.find_clear_self]

theorem bustNode_other (node : Node) {key : String}
    (notCluster : key ≠ "_ngraph_cluster")
    (notMark : key ≠ "_ngraph_marked_for_clustering") :
    (bustNode node).attrs.find key = node.attrs.find key := by
  rw [bustNode, Node.clearAttr, AttrMap.find_clear_of_ne _ notMark,
    Node.clearAttr, AttrMap.find_clear_of_ne _ notCluster]

theorem keepOrBust_of_mem {busted : Int → Bool} {node : Node} {c : Int}
    (inside : getNodeCluster node = .ok c) :
    keepOrBust busted node = if busted c then bustNode node else node := by
  rw [keepOrBust, inside]

theorem bustNode_ne {node : Node} {c : Int}
    (inside : getNodeCluster node = .ok c) :
    bustNode node ≠ node := by
  intro same
  obtain ⟨error, cleared⟩ := getNodeCluster_bustNode node
  rw [same, inside] at cleared
  exact absurd cleared (by simp)

section Agree

variable {graph : Graph} {busted : Int → Bool} {m : Int}

theorem mem_deassigned {left : Node} : left ∈ (deassigned busted graph).nodes ↔
    ∃ node ∈ graph.nodes, keepOrBust busted node = left := List.mem_map

theorem deassigned_stays {left : Node} {c : Int}
    (member : left ∈ (deassigned busted graph).nodes)
    (inside : getNodeCluster left = .ok c) :
    left ∈ graph.nodes ∧ busted c = false := by
  obtain ⟨node, nodeIn, rfl⟩ := mem_deassigned.mp member
  obtain ⟨before, kept⟩ := (getNodeCluster_keepOrBust _ node).mp inside
  rw [keepOrBust_of_mem before, if_neg (by simp [kept])]
  exact ⟨nodeIn, kept⟩

/-- Who gives up the right clusters judges every cluster right. -/
theorem Deassigns.agrees (correct : Deassigns m graph (deassigned busted graph))
    {node : Node} {c : Int} (member : node ∈ graph.nodes)
    (inside : getNodeCluster node = .ok c) :
    busted c = true ↔
    (clusterCount documentedTrivialOps graph c : Int) < m := by
  have image := @keepOrBust_of_mem busted _ _ inside
  cases gone : busted c with
  | true =>
      refine iff_of_true rfl ?_
      by_contra notFew
      have nodes := correct.nodes
      rw [deassigned, List.forall₂_map_right_iff, List.forall₂_same] at nodes
      obtain ⟨_, _, stays⟩ := nodes node member
      have same := stays fun c' inside' => by
        obtain rfl := Except.ok.inj (inside.symm.trans inside')
        exact Int.not_lt.mp notFew
      rw [image, if_pos gone] at same
      exact bustNode_ne inside same
  | false =>
      refine iff_of_false Bool.false_ne_true ?_
      rw [if_neg (by simp [gone])] at image
      exact Int.not_lt.mpr
        (correct.enough c
          ⟨node, mem_deassigned.mpr ⟨node, member, image⟩, inside⟩)

/-- Who judges every cluster right gives up the right ones. -/
theorem deassigns_of_agree
    (agree : ∀ c, (∃ node ∈ graph.nodes, getNodeCluster node = .ok c) →
    (busted c = true ↔ (clusterCount documentedTrivialOps graph c : Int) < m)) :
    Deassigns m graph (deassigned busted graph) := by
  refine ⟨?enough, ?members, ?lost, rfl, ?nodes⟩
  case enough =>
    intro c present
    obtain ⟨left, member, inside⟩ := present
    obtain ⟨before, kept⟩ := deassigned_stays member inside
    rw [← Int.not_lt, ← agree c ⟨left, before, inside⟩]
    simp [kept]
  case members =>
    intro c present node inside
    obtain ⟨left, member, leftInside⟩ := present
    obtain ⟨_, kept⟩ := deassigned_stays member leftInside
    constructor
    · exact fun isAfter => (deassigned_stays isAfter inside).1
    · intro isBefore
      refine mem_deassigned.mpr ⟨node, isBefore, ?_⟩
      rw [keepOrBust_of_mem inside, if_neg (by simp [kept])]
  case lost =>
    intro c isFew node member inside
    have gone := (agree c ⟨node, member, inside⟩).mpr isFew
    have image := @keepOrBust_of_mem busted _ _ inside
    rw [if_pos gone] at image
    exact ⟨bustNode node, mem_deassigned.mpr ⟨node, member, image⟩, rfl,
      bustNode_cluster node, bustNode_mark node⟩
  case nodes =>
    rw [deassigned, List.forall₂_map_right_iff, List.forall₂_same]
    intro node member
    cases found : getNodeCluster node with
    | error error =>
        have same : keepOrBust busted node = node := by rw [keepOrBust, found]
        rw [same]
        exact ⟨rfl, fun _ _ _ => rfl, fun _ => rfl⟩
    | ok c =>
        rw [keepOrBust_of_mem found]
        cases gone : busted c with
        | false => exact ⟨rfl, fun _ _ _ => rfl, fun _ => rfl⟩
        | true =>
            refine ⟨rfl, fun key notCluster notMark =>
              bustNode_other node notCluster notMark,
              fun enough => ?_⟩
            have isFew := (agree c ⟨node, member, found⟩).mp gone
            exact absurd isFew (Int.not_lt.mpr (enough c rfl))

end Agree

/-- The pass does so if no cluster is judged differently for an op that is taken
for trivial by one of the two lists only. -/
theorem deassignClusters_iff {env : Environment} {graph : Graph} (wf : graph.WF)
    (enabled : env.disable_deassign_clusters = false) :
    Deassigns (env.min_nontrivial_nodes.getD 6) graph
      (deassignClusters env graph) ↔
      ∀ c, (∃ node ∈ graph.nodes, getNodeCluster node = .ok c) →
        ((clusterCount trivial_ops graph c : Int) <
          env.min_nontrivial_nodes.getD 6 ↔
          (clusterCount documentedTrivialOps graph c : Int) <
            env.min_nontrivial_nodes.getD 6) := by
  rw [deassignClusters_busted wf enabled]
  have few : ∀ c, isBusted env graph c = true ↔
      (clusterCount trivial_ops graph c : Int) <
        env.min_nontrivial_nodes.getD 6 := by
    intro c
    rw [isBusted, decide_eq_true_iff]
  constructor
  · intro correct c present
    obtain ⟨node, member, inside⟩ := present
    exact (few c).symm.trans (correct.agrees member inside)
  · intro agree
    apply deassigns_of_agree
    intro c present
    exact (few c).trans (agree c present)

/-- An op of one input and one output, alone in cluster 0. -/
def loneNode (type_string : String) : Node :=
  ⟨3, "y", type_string,
    [("_ngraph_cluster", .i 0), ("_ngraph_marked_for_clustering", .b true)],
    [.DT_FLOAT], [.DT_FLOAT], "", []⟩

def loneGraph (type_string : String) : Graph where
  nodes :=
    [⟨0, "_SOURCE", "NoOp", [], [], [], "", []⟩,
      ⟨1, "_SINK", "NoOp", [], [], [], "", []⟩,
      ⟨2, "x", "Placeholder", [], [], [.DT_FLOAT], "", []⟩,
      loneNode type_string]
  edges := [⟨0, 2, 0, 3, 0⟩]

/-- One op that is not trivial is asked for. -/
def oneNode : Environment := ⟨false, some 1⟩

theorem loneGraph_identity_wf : (loneGraph "Identity").WF := by
  constructor <;> decide

/-- The cluster is kept for its identity. -/
theorem deassignClusters_identity : (loneGraph "Identity").WF ∧
    ¬ Deassigns 1 (loneGraph "Identity")
      (deassignClusters oneNode (loneGraph "Identity")) := by
  refine ⟨loneGraph_identity_wf, fun correct => ?_⟩
  have present :
      ∃ node ∈ (deassignClusters oneNode (loneGraph "Identity")).nodes,
      getNodeCluster node = .ok 0 :=
    ⟨loneNode "Identity", by decide, by decide⟩
  exact absurd (correct.enough 0 present) (by decide)

/-- A node in a cluster. -/
def clusteredNode (id : Nat) (name type_string : String) (c : Int)
    (input_types : List DataType) : Node :=
  ⟨id, name, type_string, [("_ngraph_cluster", .i c),
    ("_ngraph_marked_for_clustering", .b true)], input_types, [.DT_FLOAT], "",
    []⟩

/-- A constant and two ops in one cluster, and a constant in another. -/
def twoClusters : Graph where
  nodes := [⟨0, "_SOURCE", "NoOp", [], [], [], "", []⟩,
    ⟨1, "_SINK", "NoOp", [], [], [], "", []⟩,
    clusteredNode 2 "c" "Const" 0 [], clusteredNode 3 "a" "Abs" 0 [.DT_FLOAT],
    clusteredNode 4 "n" "Neg" 0 [.DT_FLOAT], clusteredNode 5 "d" "Const" 1 []]
  edges := [⟨0, 2, 0, 3, 0⟩, ⟨1, 3, 0, 4, 0⟩]

theorem twoClusters_wf : twoClusters.WF := by
  constructor <;> decide

theorem twoClusters_cluster {node : Node} {c : Int}
    (member : node ∈ twoClusters.nodes) (inside : getNodeCluster node = .ok c) :
    c = 0 ∨ c = 1 := by
  have either : ∀ node ∈ twoClusters.nodes,
      (getNodeCluster node).toOption = none ∨
        (getNodeCluster node).toOption = some 0 ∨
        (getNodeCluster node).toOption = some 1 := by decide
  have here := either node member
  rw [inside] at here
  simpa [Except.toOption] using here

/-- Of two clusters the one is kept and the other is given up. -/
theorem deassignClusters_iff_twoClusters :
    Deassigns 2 twoClusters (deassignClusters ⟨false, some 2⟩ twoClusters) ∧
      (deassignClusters ⟨false, some 2⟩ twoClusters).nodes ≠
        twoClusters.nodes := by
  refine ⟨(@deassignClusters_iff ⟨false, some 2⟩ _ twoClusters_wf rfl).mpr ?_,
    by decide⟩
  intro c present
  obtain ⟨node, member, inside⟩ := present
  cases twoClusters_cluster member inside with
  | inl first =>
      subst first
      decide
  | inr second =>
      subst second
      decide

end NGraphBridge.DeassignClusters
