import NGraphBridge.AssignClusters.Fixpoint
import NGraphBridge.AssignClusters.Liveness
import NGraphBridge.Lib.Text

/-!
# Placement logging

With logging on, one more round over the edges collects a reason for every edge
that was not contracted, and three checks look at what was collected.  The
clusters are the ones that the pass finds without logging.
-/

namespace NGraphBridge.AssignClusters

open TF Deadness GraphCycles MarkForClustering Relation NGraphBridge.Digraph

/-- Why an edge was not contracted, in the order of priority. -/
inductive EdgeNonContractionReasons where
  | NOTANOP | UNSUPPORTED | DEADNESS | SAMECLUSTER | STATICINPUT | PATHEXISTS
  deriving DecidableEq, Repr

/-- A cluster pair is a text, because a pair has no hash. The entries come in
the order in which they were added. -/
abbrev ClusterPairToReason := List (String × List EdgeNonContractionReasons)

/-- An order in which a hash map lists its entries. -/
structure HashOrder where
  entries : ClusterPairToReason → ClusterPairToReason
  perm : ∀ map, (entries map).Perm map

def getStringKey (x y : Nat) : String := toString x ++ "," ++ toString y

/-- `cluster_separation_reason[key].push_back(reason)`. -/
def pushReason (key : String) (reason : EdgeNonContractionReasons) :
    ClusterPairToReason → ClusterPairToReason
  | [] => [(key, [reason])]
  | entry :: entries =>
      if entry.1 = key then (entry.1, entry.2 ++ [reason]) :: entries
      else entry :: pushReason key reason entries

/-- What the contraction loop works on when it may collect reasons. -/
structure Logged where
  state : State
  cluster_separation_reason : ClusterPairToReason

section Logging

variable (hasher : Hasher) {graph : Graph} (order : graph.Enumeration)

/-- Keep a reason for an edge, if reasons are being collected. -/
def Logged.collect (collect_non_contracting_edge_info : Bool) (edge : Edge)
    (reason : EdgeNonContractionReasons) (logged : Logged) : Logged :=
  if collect_non_contracting_edge_info then
    { logged with
      cluster_separation_reason :=
        pushReason (getStringKey (logged.state.index edge.src)
            (logged.state.index edge.dst))
          reason logged.cluster_separation_reason }
  else logged

/-- The reason for an edge whose contraction would make a cycle. -/
def cycleReason (graph : Graph) (edge : Edge) (src_index dst_index : Nat) :
    EdgeNonContractionReasons :=
  let static_inputs := getStaticInputs (graph.node edge.dst)
  let is_static := static_inputs.contains edge.dst_input
  let is_not_const := (graph.node edge.src).type_string != "Const"
  if src_index = dst_index then .SAMECLUSTER
  else if is_not_const && is_static then .STATICINPUT
  else .PATHEXISTS

/-- The body of the contraction loop, and whether it contracted the edge. -/
def tryContractLogging (graph : Graph)
    (collect_non_contracting_edge_info : Bool) (edge : Edge) (logged : Logged) :
    StatusOr (Logged × Bool) :=
  let log_reason := fun reason =>
    logged.collect collect_non_contracting_edge_info edge reason
  let src := graph.node edge.src
  let dst := graph.node edge.dst
  let src_index := logged.state.index edge.src
  let dst_index := logged.state.index edge.dst
  if !src.isOp || !dst.isOp then .ok (log_reason .NOTANOP, false)
  else if !nodeIsMarkedForClustering src || !nodeIsMarkedForClustering dst then
    .ok (log_reason .UNSUPPORTED, false)
  else do
    let is_deadness_ok ← canContractEdgeDeadnessCheck graph logged.state edge
    if !is_deadness_ok then return (log_reason .DEADNESS, false)
    else if (contractEdge edge logged.state).2 then
      return ({ logged with state := (contractEdge edge logged.state).1 }, true)
    else
      return ({ log_reason (cycleReason graph edge src_index dst_index) with
        state := (contractEdge edge logged.state).1 }, false)

def contractRoundLogging (graph : Graph)
    (collect_non_contracting_edge_info : Bool) :
    List Edge → Logged → StatusOr (Logged × Bool)
  | [], logged => .ok (logged, false)
  | edge :: edges, logged => do
      let tried ← tryContractLogging graph collect_non_contracting_edge_info
          edge logged
      let rest ← contractRoundLogging graph collect_non_contracting_edge_info
          edges tried.1
      return (rest.1, tried.2 || rest.2)

/-- With logging, a round that changes nothing forces one more round, which
collects reasons. -/
def contractLogging (isLoggingPlacement : Bool) : Nat → Bool → Logged →
    StatusOr Logged
  | 0, _, _ => .error (errors.check "contraction does not end")
  | fuel + 1, collect_non_contracting_edge_info, logged => do
      let round ← contractRoundLogging graph collect_non_contracting_edge_info
          order.edges logged
      if round.2 then
        contractLogging isLoggingPlacement fuel
          collect_non_contracting_edge_info round.1
      else if isLoggingPlacement && !collect_non_contracting_edge_info then
        contractLogging isLoggingPlacement fuel true round.1
      else return round.1

/-- Clustering without tagging; the round that collects reasons needs fuel
too. -/
def clustersLogging (isLoggingPlacement : Bool) : StatusOr Logged := do
  let state ← prepared order hasher
  contractLogging order isLoggingPlacement (graph.nodes.length + 2) false
    ⟨state, []⟩

/-- `cluster_to_encapsulate` gives the cluster id of the index of a cluster. -/
structure LoggedTags where
  tags : Tags
  cluster_to_encapsulate : Nat → Option Nat

def tagClusterLogging (isLoggingPlacement : Bool) (state : State) (id : Nat)
    (logged : LoggedTags) : LoggedTags × StatusOr Unit :=
  let tags := logged.tags
  let cluster := state.cluster_map id
  if tags.seen.contains cluster then (logged, .ok ())
  else
    let ids := order.pointers.filter (· ∈ (state.heap cluster).nodes)
    let seen := { tags with seen := cluster :: tags.seen }
    match scanCluster order state ids with
    | .error error => (logged, .error error)
    | .ok (true, true) =>
        (logged, .error (errors.internal
          ("Cluster " ++ toString (state.heap cluster).index ++
            " has both nGraph and non-nGraph nodes")))
    | .ok (false, _) => ({ logged with tags := seen }, .ok ())
    | .ok (true, false) =>
        let (manager, cluster_idx) := tags.manager.newCluster
        ({ tags := { seen with
             manager := manager
             graph := tagNodes cluster_idx ids tags.graph }
           cluster_to_encapsulate :=
             if isLoggingPlacement then
               Function.update logged.cluster_to_encapsulate
                 (state.heap cluster).index (some cluster_idx)
             else logged.cluster_to_encapsulate }, .ok ())

def tagClustersLogging (isLoggingPlacement : Bool) (state : State) :
    List Nat → LoggedTags → LoggedTags × StatusOr Unit
  | [], logged => (logged, .ok ())
  | id :: ids, logged =>
      match tagClusterLogging order isLoggingPlacement state id logged with
      | (logged, .ok ()) =>
          tagClustersLogging isLoggingPlacement state ids logged
      | (logged, .error error) => (logged, .error error)

def isForbiddenReason : EdgeNonContractionReasons → Bool
  | .NOTANOP | .UNSUPPORTED | .SAMECLUSTER => true
  | .DEADNESS | .STATICINPUT | .PATHEXISTS => false

/-- The number of a reason, which is how an error prints it. -/
def reasonId : EdgeNonContractionReasons → Nat
  | .NOTANOP => 0
  | .UNSUPPORTED => 1
  | .DEADNESS => 2
  | .SAMECLUSTER => 3
  | .STATICINPUT => 4
  | .PATHEXISTS => 5

/-- The cluster id that one of the two clusters of a pair became, or -1. -/
def findInMap (cluster_to_encapsulate : Nat → Option Nat)
    (cluster_id_vector : List String) (x : Nat) : StatusOr Int :=
  match cluster_id_vector[x]?.bind Text.stoi with
  | none => .error (errors.check "stoi")
  | some cluster_id =>
      match cluster_to_encapsulate cluster_id with
      | none => .ok (-1)
      | some encapsulate => .ok encapsulate

def checkReasons (distinct_encapsulates : Bool) :
    List EdgeNonContractionReasons → StatusOr Unit
  | [] => .ok ()
  | reason :: reasons =>
      if distinct_encapsulates && isForbiddenReason reason then
        .error (errors.internal
          (toString (reasonId reason) ++
            " should not be a reason why 2 encapsulates did not merge, because " ++
            "unsupported ops would not end up in encapsulates"))
      else checkReasons distinct_encapsulates reasons

def checkPair (cluster_to_encapsulate : Nat → Option Nat)
    (entry : String × List EdgeNonContractionReasons) : StatusOr Unit := do
  let cluster_id_vector := Text.strSplit ',' entry.1
  let src_encapsulate ← findInMap cluster_to_encapsulate cluster_id_vector 0
  let dst_encapsulate ← findInMap cluster_to_encapsulate cluster_id_vector 1
  let both_src_dst_are_encapsulates :=
    0 ≤ src_encapsulate && 0 ≤ dst_encapsulate
  let src_dst_are_distinct := src_encapsulate != dst_encapsulate
  checkReasons (both_src_dst_are_encapsulates && src_dst_are_distinct) entry.2

/-- Check all pairs; the result is `num_non_contracted`. -/
def checkPairs (cluster_to_encapsulate : Nat → Option Nat) :
    ClusterPairToReason → StatusOr Nat
  | [] => .ok 0
  | entry :: entries => do
      checkPair cluster_to_encapsulate entry
      let rest ← checkPairs cluster_to_encapsulate entries
      return entry.2.length + rest

def checkPlacement (hash : HashOrder) (graph : Graph)
    (cluster_to_encapsulate : Nat → Option Nat)
    (cluster_separation_reason : ClusterPairToReason) : StatusOr Unit := do
  let num_non_contracted ← checkPairs cluster_to_encapsulate
    (hash.entries cluster_separation_reason)
  if num_non_contracted != graph.edges.length then
    .error (errors.internal
      ("Number of non contracted edges " ++ toString num_non_contracted ++
        " should match number of edges " ++ toString graph.edges.length))
  else return ()

def assignClustersLogging (hash : HashOrder) (isLoggingPlacement : Bool)
    (manager : ClusterManager) : Outcome :=
  match clustersLogging hasher order isLoggingPlacement with
  | .error error => ⟨graph, manager, .error error⟩
  | .ok logged =>
      match tagClustersLogging order isLoggingPlacement logged.state
        order.pointers ⟨⟨[], manager, graph⟩, fun _ => none⟩ with
      | (last, .error error) =>
          ⟨last.tags.graph, last.tags.manager, .error error⟩
      | (last, .ok ()) =>
          ⟨last.tags.graph, last.tags.manager,
            if isLoggingPlacement then
              checkPlacement hash graph last.cluster_to_encapsulate
                logged.cluster_separation_reason
            else .ok ()⟩

end Logging

/-- The reason that is collected for an edge. -/
def edgeReason (graph : Graph) (state : State) (edge : Edge) :
    EdgeNonContractionReasons :=
  if !(graph.node edge.src).isOp || !(graph.node edge.dst).isOp then .NOTANOP
  else if !nodeIsMarkedForClustering (graph.node edge.src) ||
      !nodeIsMarkedForClustering (graph.node edge.dst) then .UNSUPPORTED
  else
    match canContractEdgeDeadnessCheck graph state edge with
    | .ok true => cycleReason graph edge (state.index edge.src)
      (state.index edge.dst)
    | _ => .DEADNESS

def edgeKey (state : State) (edge : Edge) : String :=
  getStringKey (state.index edge.src) (state.index edge.dst)

/-- The reasons for some edges, added one after the other. -/
def pushEdges (graph : Graph) (state : State) (edges : List Edge)
    (map : ClusterPairToReason) : ClusterPairToReason :=
  edges.foldl (fun map edge => pushReason (edgeKey state edge)
      (edgeReason graph state edge) map) map

variable {graph : Graph} {linked : Nat → Nat → Prop} {shadowed : Edge → Prop}
  {state : State} {edge : Edge} {edges : List Edge}

/-- Without collecting, a try does what it does without logging. -/
theorem tryContractLogging_quiet (graph : Graph) (edge : Edge)
    (logged : Logged) :
    tryContractLogging graph false edge logged =
      (tryContract graph edge logged.state).map
        fun tried => (⟨tried.1, logged.cluster_separation_reason⟩,
          tried.2) := by
  unfold tryContractLogging tryContract
  dsimp only
  split
  case isTrue => rfl
  case isFalse =>
    split
    case isTrue => rfl
    case isFalse =>
      cases canContractEdgeDeadnessCheck graph logged.state edge with
      | error error => rfl
      | ok is_deadness_ok =>
          cases is_deadness_ok with
          | false => rfl
          | true =>
              cases tried : contractEdge edge logged.state with
              | mk next changed =>
                  cases changed with
                  | false =>
                      simp [bind, Except.bind, pure, Except.pure, Except.map,
                        Logged.collect]
                  | true =>
                      simp [bind, Except.bind, pure, Except.pure, Except.map]

theorem contractRoundLogging_quiet (graph : Graph) (edges : List Edge)
    (logged : Logged) :
    contractRoundLogging graph false edges logged =
      (contractRound graph edges logged.state).map
        fun round => (⟨round.1, logged.cluster_separation_reason⟩,
          round.2) := by
  induction edges generalizing logged with
  | nil => rfl
  | cons edge edges ih =>
      rw [contractRoundLogging, contractRound, tryContractLogging_quiet]
      cases tryContract graph edge logged.state with
      | error error => rfl
      | ok tried =>
          simp only [Except.map, bind, Except.bind]
          rw [ih]
          cases contractRound graph edges tried.1 with
          | error error => rfl
          | ok rest => rfl

/-- An edge that is turned down leaves its reason. -/
theorem tryContractLogging_collect (map : ClusterPairToReason)
    (inv : Inv graph linked shadowed state)
    (refused : Refused graph edge state) :
    ∃ gc, Settled state.gc gc ∧
      tryContractLogging graph true edge ⟨state, map⟩ =
      .ok (⟨{ state with gc := gc },
        pushReason (edgeKey state edge) (edgeReason graph state edge) map⟩,
      false) := by
  obtain ⟨gc, settled, again⟩ := refused.again inv
  unfold tryContract at again
  unfold tryContractLogging edgeReason
  dsimp only at again ⊢
  by_cases ops :
      (!(graph.node edge.src).isOp || !(graph.node edge.dst).isOp) = true
  · rw [if_pos ops, if_pos ops]
    exact ⟨state.gc, Settled.refl inv.gc, rfl⟩
  · rw [if_neg ops] at again
    rw [if_neg ops, if_neg ops]
    by_cases marked : (!nodeIsMarkedForClustering (graph.node edge.src) ||
        !nodeIsMarkedForClustering (graph.node edge.dst)) = true
    · rw [if_pos marked, if_pos marked]
      exact ⟨state.gc, Settled.refl inv.gc, rfl⟩
    · rw [if_neg marked] at again
      rw [if_neg marked, if_neg marked]
      obtain ⟨is_deadness_ok, check, again⟩ := bind_ok again
      rw [check]
      cases is_deadness_ok with
      | false => exact ⟨state.gc, Settled.refl inv.gc, rfl⟩
      | true =>
          have tried : contractEdge edge state =
              ({ state with gc := gc }, false) :=
            Except.ok.inj again
          refine ⟨gc, settled, ?_⟩
          simp [bind, Except.bind, pure, Except.pure, tried,
            Logged.collect, edgeKey]

/-- The collecting round changes no cluster, and leaves one reason for each
edge. -/
theorem contractRoundLogging_collect (map : ClusterPairToReason)
    (inv : Inv graph linked shadowed state)
    (refused : ∀ edge ∈ edges, Refused graph edge state) :
    ∃ gc, Settled state.gc gc ∧
      contractRoundLogging graph true edges ⟨state, map⟩ =
      .ok (⟨{ state with gc := gc }, pushEdges graph state edges map⟩,
        false) := by
  induction edges generalizing map state with
  | nil => exact ⟨state.gc, Settled.refl inv.gc, rfl⟩
  | cons edge edges ih =>
      obtain ⟨middle, settled, atEdge⟩ :=
        tryContractLogging_collect map inv (refused edge (by simp))
      obtain ⟨gc, rest, atRest⟩ := ih
        (pushReason (edgeKey state edge) (edgeReason graph state edge) map)
        (inv.grow settled.grown)
        (fun edge member => (refused edge (by simp [member])).settle settled)
      refine ⟨gc, settled.trans rest, ?_⟩
      rw [contractRoundLogging, atEdge]
      simp only [bind, Except.bind]
      rw [atRest]
      rfl

section Loop

variable {order : graph.Enumeration} {final : State}

/-- With logging the loop ends one round later, with the same clusters. -/
theorem contractLogging_ok {fuel : Nat} (map : ClusterPairToReason)
    (wf : graph.WF) (inv : Inv graph linked shadowed state)
    (success : contract order fuel state = .ok final) :
    ∃ gc, Settled final.gc gc ∧
      contractLogging order true (fuel + 1) false ⟨state, map⟩ =
      .ok ⟨{ final with gc := gc }, pushEdges graph final order.edges map⟩ := by
  induction fuel generalizing state with
  | zero => simp [contract] at success
  | succ fuel ih =>
      have inside : ∀ edge ∈ order.edges, edge ∈ graph.edges :=
        fun edge => (order.mem_edges edge).mp
      have refused := contract_settled wf order inv success
      obtain ⟨⟨middle, changed⟩, atRound, success⟩ := bind_ok success
      have middleInv := (contractRound_inv wf inside inv atRound).1
      have quiet := contractRoundLogging_quiet graph order.edges ⟨state, map⟩
      rw [atRound] at quiet
      cases changed with
      | true =>
          obtain ⟨gc, settled, rest⟩ := ih middleInv success
          refine ⟨gc, settled, ?_⟩
          rw [contractLogging, quiet]
          exact rest
      | false =>
          obtain rfl := Except.ok.inj success
          obtain ⟨gc, settled, collected⟩ :=
            contractRoundLogging_collect map middleInv
              (fun edge member => refused edge (inside edge member))
          refine ⟨gc, settled, ?_⟩
          rw [contractLogging, quiet]
          simp only [Except.map, bind, Except.bind, Bool.false_eq_true,
            if_false, Bool.not_false, Bool.and_self, if_true]
          rw [contractLogging, collected]
          rfl

/-- A check that fails stops the loop with and without logging. -/
theorem contractLogging_error {fuel : Nat} {error : Error}
    (map : ClusterPairToReason) (isInternal : error.code = .internal)
    (failed : contract order fuel state = .error error) :
    contractLogging order true (fuel + 1) false ⟨state, map⟩ =
      .error error := by
  induction fuel generalizing state with
  | zero =>
      cases failed
      exact absurd isInternal (by simp [errors.check])
  | succ fuel ih =>
      have quiet := contractRoundLogging_quiet graph order.edges ⟨state, map⟩
      rw [contract] at failed
      rw [contractLogging, quiet]
      cases atRound : contractRound graph order.edges state with
      | error found =>
          rw [atRound] at failed
          cases failed
          rfl
      | ok round =>
          obtain ⟨middle, changed⟩ := round
          simp only [atRound, bind, Except.bind] at failed
          cases changed with
          | false => simp at failed
          | true => exact ih failed

/-- Without logging the loop is the one of the pass. -/
theorem contractLogging_off (order : graph.Enumeration) (fuel : Nat)
    (logged : Logged) :
    contractLogging order false fuel false logged =
      (contract order fuel logged.state).map
        fun last => ⟨last, logged.cluster_separation_reason⟩ := by
  induction fuel generalizing logged with
  | zero => rfl
  | succ fuel ih =>
      rw [contractLogging, contract, contractRoundLogging_quiet]
      cases contractRound graph order.edges logged.state with
      | error error => rfl
      | ok round =>
          obtain ⟨middle, changed⟩ := round
          cases changed with
          | false => rfl
          | true => exact ih _

variable {hasher : Hasher}

theorem clustersLogging_off (wf : graph.WF) (hasher : Hasher)
    (order : graph.Enumeration) :
    clustersLogging hasher order false = (clusters hasher order).map fun last =>
      ⟨last, []⟩ := by
  rw [clustersLogging, clusters_eq]
  cases atStart : prepared order hasher with
  | error error => rfl
  | ok start =>
      obtain ⟨inv, _⟩ := prepared_inv wf atStart
      have enough := Nat.lt_succ_of_le (indices_card_le graph start)
      simp only [bind, Except.bind]
      rw [contractLogging_off]
      exact congrArg _ (contract_fuel wf order inv enough 1)

/-- With logging the loop finds the same clusters, or fails with the same
error. -/
theorem clustersLogging_on (wf : graph.WF) :
    (∀ error, clusters hasher order = .error error →
      clustersLogging hasher order true = .error error) ∧
    ∀ final, clusters hasher order = .ok final →
      ∃ gc, Settled final.gc gc ∧ clustersLogging hasher order true =
        .ok ⟨{ final with gc := gc },
          pushEdges graph final order.edges []⟩ := by
  rw [clustersLogging, clusters_eq]
  cases atStart : prepared order hasher with
  | error error =>
      refine ⟨?_, fun _ success => by simp [bind, Except.bind] at success⟩
      intro found failed
      cases failed
      rfl
  | ok start =>
      obtain ⟨inv, _⟩ := prepared_inv wf atStart
      have enough := Nat.lt_succ_of_le (indices_card_le graph start)
      exact ⟨fun error failed =>
          contractLogging_error []
            (contract_error wf order inv enough failed) failed,
        fun final success => contractLogging_ok [] wf inv success⟩

end Loop

section Tag

variable {order : graph.Enumeration}

theorem scanCluster_gc (order : graph.Enumeration) (state : State) (gc : Rep)
    (ids : List Nat) :
    scanCluster order { state with gc := gc } ids =
      scanCluster order state ids := by
  induction ids with
  | nil => rfl
  | cons id ids ih =>
      rw [scanCluster, scanCluster, ih]
      rfl

/-- Tagging does not look at the graph of indices, and logging does not change
what it tags. -/
theorem tagClusterLogging_tags (order : graph.Enumeration)
    (isLoggingPlacement : Bool) (state : State) (gc : Rep) (id : Nat)
    (logged : LoggedTags) :
    ((tagClusterLogging order isLoggingPlacement { state with gc := gc } id
        logged).1.tags,
      (tagClusterLogging order isLoggingPlacement { state with gc := gc } id
        logged).2) =
        tagCluster order state id logged.tags := by
  unfold tagClusterLogging tagCluster
  dsimp only
  rw [scanCluster_gc]
  split
  case isTrue => rfl
  case isFalse =>
    cases scanCluster order state (order.pointers.filter
        (· ∈ (state.heap (state.cluster_map id)).nodes)) with
    | error error => rfl
    | ok found =>
        obtain ⟨has_ngraph_ops, has_non_ngraph_ops⟩ := found
        cases has_ngraph_ops with
        | false => rfl
        | true =>
            cases has_non_ngraph_ops with
            | false => rfl
            | true => rfl

theorem tagClustersLogging_tags (order : graph.Enumeration)
    (isLoggingPlacement : Bool) (state : State) (gc : Rep) (ids : List Nat)
    (logged : LoggedTags) :
    ((tagClustersLogging order isLoggingPlacement { state with gc := gc } ids
        logged).1.tags,
      (tagClustersLogging order isLoggingPlacement { state with gc := gc } ids
        logged).2) =
        tagClusters order state ids logged.tags := by
  induction ids generalizing logged with
  | nil => rfl
  | cons id ids ih =>
      have first := tagClusterLogging_tags order isLoggingPlacement state
        gc id logged
      rw [tagClustersLogging, tagClusters, ← first]
      cases tagClusterLogging order isLoggingPlacement { state with gc := gc }
        id logged with
      | mk next status =>
          cases status with
          | error error => rfl
          | ok done => exact ih next

/-- A cluster that got an id has marked nodes only, and all of them passed their
checks. -/
def Encapsulated (order : graph.Enumeration) (state : State)
    (cluster_to_encapsulate : Nat → Option Nat) : Prop :=
  ∀ id, graph.HasNode id →
    (cluster_to_encapsulate (state.index id)).isSome = true →
    nodeIsMarkedForClustering (graph.node id) = true ∧
      checkNodeClusterAssignmentWRTDeadness order state (graph.node id) = .ok ()

theorem tagClusterLogging_encapsulated {isLoggingPlacement : Bool} {id : Nat}
    {logged next : LoggedTags} (inv : Inv graph linked shadowed state)
    (idNode : graph.HasNode id)
    (encapsulated : Encapsulated order state logged.cluster_to_encapsulate)
    (success : tagClusterLogging order isLoggingPlacement state id logged =
      (next, .ok ())) :
    Encapsulated order state next.cluster_to_encapsulate := by
  unfold tagClusterLogging at success
  dsimp only at success
  split at success
  case isTrue =>
    cases success
    exact encapsulated
  case isFalse =>
    split at success
    case h_1 => simp at success
    case h_2 => simp at success
    case h_3 =>
      cases success
      exact encapsulated
    case h_4 found =>
      cases success
      have scanned := scanCluster_ok found
      intro other otherNode hasId
      dsimp only at hasId
      by_cases inCluster :
          state.index other = (state.heap (state.cluster_map id)).index
      · have together := inv.same otherNode idNode inCluster
        have member : other ∈ order.pointers.filter
            (· ∈ (state.heap (state.cluster_map id)).nodes) := by
          rw [List.mem_filter, order.pointersPerm.mem_iff, decide_eq_true_iff]
          exact ⟨List.mem_map.mpr otherNode,
            (inv.members idNode other).mpr ⟨otherNode, together⟩⟩
        have marked : nodeIsMarkedForClustering (graph.node other) = true := by
          by_contra notMarked
          exact absurd
            (scanned.unmarked.mpr ⟨other, member, by simpa using notMarked⟩)
            (by simp)
        exact ⟨marked, scanned.passed other member marked⟩
      · apply encapsulated other otherNode
        split at hasId
        case isTrue => rwa [Function.update_of_ne inCluster] at hasId
        case isFalse => exact hasId

theorem tagClustersLogging_encapsulated {isLoggingPlacement : Bool}
    {ids : List Nat} {logged next : LoggedTags}
    (inv : Inv graph linked shadowed state)
    (inside : ∀ id ∈ ids, graph.HasNode id)
    (encapsulated : Encapsulated order state logged.cluster_to_encapsulate)
    (success : tagClustersLogging order isLoggingPlacement state ids logged =
      (next, .ok ())) :
    Encapsulated order state next.cluster_to_encapsulate := by
  induction ids generalizing logged with
  | nil =>
      cases success
      exact encapsulated
  | cons id ids ih =>
      unfold tagClustersLogging at success
      split at success
      case h_2 => simp at success
      case h_1 middle atId =>
        exact ih (fun id member => inside id (by simp [member]))
          (tagClusterLogging_encapsulated inv (inside id (by simp)) encapsulated
            atId) success

end Tag

section Checks

variable {order : graph.Enumeration} {cluster_to_encapsulate : Nat → Option Nat}

theorem getStringKey_split (x y : Nat) :
    Text.strSplit ',' (getStringKey x y) = [toString x, toString y] :=
  Text.strSplit_pair (Text.not_mem_natText (by decide) x)
    (Text.not_mem_natText (by decide) y)

/-- The cluster id of an index, or -1. -/
def encapsulateOf (cluster_to_encapsulate : Nat → Option Nat)
    (index : Nat) : Int :=
  match cluster_to_encapsulate index with
  | none => -1
  | some encapsulate => encapsulate

theorem findInMap_key (x y : Nat) :
    findInMap cluster_to_encapsulate (Text.strSplit ',' (getStringKey x y)) 0 =
        .ok (encapsulateOf cluster_to_encapsulate x) ∧
      findInMap cluster_to_encapsulate
        (Text.strSplit ',' (getStringKey x y)) 1 =
        .ok (encapsulateOf cluster_to_encapsulate y) := by
  rw [getStringKey_split]
  simp only [findInMap, List.getElem?_cons_zero, List.getElem?_cons_succ,
    Option.bind_some, Text.stoi_natText, encapsulateOf]
  constructor
  · cases cluster_to_encapsulate x with
    | none => rfl
    | some encapsulate => rfl
  · cases cluster_to_encapsulate y with
    | none => rfl
    | some encapsulate => rfl

/-- What a map of reasons records, one pair for each reason. -/
def recorded (map : ClusterPairToReason) :
    List (String × EdgeNonContractionReasons) :=
  map.flatMap fun entry => entry.2.map (entry.1, ·)

theorem recorded_pushReason (key : String) (reason : EdgeNonContractionReasons)
    (map : ClusterPairToReason) :
    (recorded (pushReason key reason map)).Perm
      ((key, reason) :: recorded map) := by
  induction map with
  | nil => exact .refl _
  | cons entry entries ih =>
      unfold pushReason
      split
      case isTrue same =>
        simp only [recorded, List.flatMap_cons, List.map_append, List.map_cons,
          List.map_nil, List.append_assoc, List.singleton_append, same]
        exact List.perm_middle
      case isFalse =>
        simp only [recorded, List.flatMap_cons]
        exact (ih.append_left _).trans List.perm_middle

theorem recorded_pushEdges (graph : Graph) (state : State) (edges : List Edge)
    (map : ClusterPairToReason) :
    (recorded (pushEdges graph state edges map)).Perm
      (edges.map (fun edge =>
          (edgeKey state edge, edgeReason graph state edge)) ++
        recorded map) := by
  induction edges generalizing map with
  | nil => exact .refl _
  | cons edge edges ih =>
      refine (ih _).trans ?_
      rw [List.map_cons, List.cons_append]
      exact ((recorded_pushReason _ _ _).append_left _).trans List.perm_middle

theorem key_of_mem_pushReason {key : String}
    {reason : EdgeNonContractionReasons} {map : ClusterPairToReason} :
    ∀ entry ∈ pushReason key reason map, entry.1 = key ∨
    ∃ old ∈ map, old.1 = entry.1 := by
  induction map with
  | nil => simp [pushReason]
  | cons head entries ih =>
      intro entry member
      unfold pushReason at member
      split at member
      case isTrue same =>
        cases List.mem_cons.mp member with
        | inl isHead => exact .inl (by rw [isHead, same])
        | inr later => exact .inr ⟨entry, List.mem_cons_of_mem _ later, rfl⟩
      case isFalse =>
        cases List.mem_cons.mp member with
        | inl isHead => exact .inr ⟨head, List.mem_cons_self, by rw [isHead]⟩
        | inr later =>
            exact (ih entry later).imp_right fun ⟨old, oldIn, same⟩ =>
              ⟨old, List.mem_cons_of_mem _ oldIn, same⟩

theorem key_of_mem_pushEdges {map : ClusterPairToReason} :
    ∀ entry ∈ pushEdges graph state edges map,
      (∃ edge ∈ edges, entry.1 = edgeKey state edge) ∨
      ∃ old ∈ map, old.1 = entry.1 := by
  induction edges generalizing map with
  | nil => exact fun entry member => .inr ⟨entry, member, rfl⟩
  | cons edge edges ih =>
      intro entry member
      cases ih entry member with
      | inl later =>
          obtain ⟨other, inEdges, atOther⟩ := later
          exact .inl ⟨other, List.mem_cons_of_mem _ inEdges, atOther⟩
      | inr pushed =>
          obtain ⟨old, oldIn, same⟩ := pushed
          cases key_of_mem_pushReason old oldIn with
          | inl isNew =>
              exact .inl ⟨edge, List.mem_cons_self, by rw [← same, isNew]⟩
          | inr earlier =>
              obtain ⟨first, firstIn, atFirst⟩ := earlier
              exact .inr ⟨first, firstIn, atFirst.trans same⟩

theorem checkReasons_ok {distinct_encapsulates : Bool}
    {reasons : List EdgeNonContractionReasons}
    (allowed : distinct_encapsulates = true →
      ∀ reason ∈ reasons, isForbiddenReason reason = false) :
    checkReasons distinct_encapsulates reasons = .ok () := by
  induction reasons with
  | nil => rfl
  | cons reason reasons ih =>
      rw [checkReasons, if_neg]
      · exact ih fun distinct other member =>
          allowed distinct other (by simp [member])
      · intro both
        obtain ⟨distinct, forbidden⟩ := Bool.and_eq_true_iff.mp both
        rw [allowed distinct reason (by simp)] at forbidden
        exact absurd forbidden (by simp)

/-- The reasons of a pair of different encapsulates are not forbidden. -/
def Permitted (cluster_to_encapsulate : Nat → Option Nat)
    (entry : String × List EdgeNonContractionReasons) : Prop :=
  ∃ src_encapsulate dst_encapsulate,
    findInMap cluster_to_encapsulate (Text.strSplit ',' entry.1) 0 =
      .ok src_encapsulate ∧
    findInMap cluster_to_encapsulate (Text.strSplit ',' entry.1) 1 =
      .ok dst_encapsulate ∧
    (0 ≤ src_encapsulate → 0 ≤ dst_encapsulate →
      src_encapsulate ≠ dst_encapsulate →
      ∀ reason ∈ entry.2, isForbiddenReason reason = false)

theorem checkPairs_ok {map : ClusterPairToReason}
    (permitted : ∀ entry ∈ map, Permitted cluster_to_encapsulate entry) :
    checkPairs cluster_to_encapsulate map = .ok (recorded map).length := by
  induction map with
  | nil => rfl
  | cons entry entries ih =>
      obtain ⟨src_encapsulate, dst_encapsulate, atSrc, atDst, allowed⟩ :=
        permitted entry (by simp)
      have checked : checkPair cluster_to_encapsulate entry = .ok () := by
        simp only [checkPair, atSrc, atDst, bind, Except.bind]
        apply checkReasons_ok
        intro distinct
        simp only [Bool.and_eq_true, decide_eq_true_eq, bne_iff_ne] at distinct
        exact allowed distinct.1.1 distinct.1.2 distinct.2
      rw [checkPairs, checked, ih fun other member =>
        permitted other (by simp [member])]
      simp [bind, Except.bind, pure, Except.pure, recorded]

/-- A forbidden reason comes from an end that is not marked or no op, or from
inside a cluster. -/
theorem edgeReason_forbidden
    (forbidden : isForbiddenReason (edgeReason graph state edge) = true) :
    ((graph.node edge.src).isOp = false ∨ (graph.node edge.dst).isOp = false) ∨
      (nodeIsMarkedForClustering (graph.node edge.src) = false ∨
        nodeIsMarkedForClustering (graph.node edge.dst) = false) ∨
      state.index edge.src = state.index edge.dst := by
  unfold edgeReason at forbidden
  split at forbidden
  case isTrue ops => exact .inl (by simpa using ops)
  case isFalse =>
    split at forbidden
    case isTrue marked => exact .inr (.inl (by simpa using marked))
    case isFalse =>
      split at forbidden
      case h_2 => simp [isForbiddenReason] at forbidden
      case h_1 =>
        unfold cycleReason at forbidden
        dsimp only at forbidden
        split_ifs at forbidden with same
        · exact .inr (.inr same)
        · simp [isForbiddenReason] at forbidden
        · simp [isForbiddenReason] at forbidden

/-- Different encapsulates are not kept apart by a forbidden reason. -/
theorem Encapsulated.notForbidden {predicate_map : PredicateMap} (wf : graph.WF)
    (recorded : Recorded order predicate_map state.nodes_predicate_map)
    (encapsulated : Encapsulated order state cluster_to_encapsulate)
    (inGraph : edge ∈ graph.edges)
    (srcThere : 0 ≤ encapsulateOf cluster_to_encapsulate (state.index edge.src))
    (dstThere : 0 ≤ encapsulateOf cluster_to_encapsulate (state.index edge.dst))
    (different : encapsulateOf cluster_to_encapsulate (state.index edge.src) ≠
      encapsulateOf cluster_to_encapsulate (state.index edge.dst)) :
    isForbiddenReason (edgeReason graph state edge) = false := by
  have good : ∀ id, graph.HasNode id →
      0 ≤ encapsulateOf cluster_to_encapsulate (state.index id) →
      nodeIsMarkedForClustering (graph.node id) = true ∧
      (graph.node id).isOp = true := by
    intro id idNode there
    have hasId : (cluster_to_encapsulate (state.index id)).isSome = true := by
      cases atIndex : cluster_to_encapsulate (state.index id) with
      | some encapsulate => rfl
      | none =>
          rw [encapsulateOf, atIndex] at there
          exact absurd there (by decide)
    obtain ⟨marked, checked⟩ := encapsulated id idNode hasId
    obtain ⟨pred_string, passed⟩ := check_ok checked
    obtain ⟨member, sameId⟩ := wf.node_mem idNode
    obtain ⟨found_string, success, found⟩ := recorded _ member
    have same := passed.recorded.symm.trans found
    obtain rfl := Option.some.inj same
    exact ⟨marked, (plain_of_getNodePredicate success passed.notControlFlow).1⟩
  obtain ⟨srcMarked, srcOp⟩ := good edge.src (wf.src edge inGraph) srcThere
  obtain ⟨dstMarked, dstOp⟩ := good edge.dst (wf.dst edge inGraph) dstThere
  rw [← Bool.not_eq_true]
  intro forbidden
  cases edgeReason_forbidden forbidden with
  | inl ops => simp [srcOp, dstOp] at ops
  | inr rest =>
      cases rest with
      | inl marked => simp [srcMarked, dstMarked] at marked
      | inr same => exact different (congrArg _ same)

end Checks

section Placement

variable {hasher : Hasher} {order : graph.Enumeration}
  {manager : ClusterManager}

/-- What the checks find in the reasons for the edges, listed in any order. -/
theorem checkPlacement_ok {final : State} {predicate_map : PredicateMap}
    (hash : HashOrder) {cluster_to_encapsulate : Nat → Option Nat}
    (wf : graph.WF)
    (onRecord : Recorded order predicate_map final.nodes_predicate_map)
    (encapsulated : Encapsulated order final cluster_to_encapsulate) :
    (∀ entry ∈ pushEdges graph final order.edges [],
      Permitted cluster_to_encapsulate entry) ∧
    checkPlacement hash graph cluster_to_encapsulate
      (pushEdges graph final order.edges []) =
      .ok () := by
  have listed := recorded_pushEdges graph final order.edges []
  rw [show recorded [] = [] from rfl, List.append_nil] at listed
  have permitted : ∀ entry ∈ pushEdges graph final order.edges [],
      Permitted cluster_to_encapsulate entry := by
    intro entry member
    cases key_of_mem_pushEdges entry member with
    | inr none_ => simp at none_
    | inl ofEdge =>
        obtain ⟨edge, _, atEdge⟩ := ofEdge
        obtain ⟨atSrc, atDst⟩ := @findInMap_key cluster_to_encapsulate
          (final.index edge.src) (final.index edge.dst)
        refine ⟨_, _, by rw [atEdge]; exact atSrc,
          by rw [atEdge]; exact atDst, ?_⟩
        intro srcThere dstThere different reason inEntry
        have pair : (entry.1, reason) ∈
            recorded (pushEdges graph final order.edges []) :=
          List.mem_flatMap.mpr ⟨entry, member, List.mem_map_of_mem inEntry⟩
        obtain ⟨other, inOrder, same⟩ :=
          List.mem_map.mp (listed.mem_iff.mp pair)
        obtain ⟨sameKey, rfl⟩ := Prod.mk.inj same
        -- the two edges have one key, so their clusters have the same ids
        obtain ⟨otherSrc, otherDst⟩ := @findInMap_key cluster_to_encapsulate
          (final.index other.src) (final.index other.dst)
        rw [show getStringKey (final.index other.src) (final.index other.dst) =
          getStringKey (final.index edge.src) (final.index edge.dst) from
            sameKey.trans atEdge] at otherSrc otherDst
        have sameSrc := Except.ok.inj (otherSrc.symm.trans atSrc)
        have sameDst := Except.ok.inj (otherDst.symm.trans atDst)
        rw [← sameSrc] at srcThere different
        rw [← sameDst] at dstThere different
        exact encapsulated.notForbidden wf onRecord
          ((order.mem_edges other).mp inOrder) srcThere dstThere different
  refine ⟨permitted, ?_⟩
  have perm := hash.perm (pushEdges graph final order.edges [])
  have counted :=
    checkPairs_ok fun entry member => permitted entry (perm.mem_iff.mp member)
  have length :
      (recorded (hash.entries (pushEdges graph final order.edges []))).length =
      graph.edges.length := by
    have sameLength :=
      (perm.flatMap_right fun entry => entry.2.map (entry.1, ·)).length_eq
    refine sameLength.trans (listed.length_eq.trans ?_)
    rw [List.length_map, order.edgesPerm.length_eq]
  rw [length] at counted
  simp only [checkPlacement, counted, bind, Except.bind]
  rw [if_neg (by simp)]
  rfl

/-- Without logging the pass is the one that does not know of it. -/
theorem assignClustersLogging_off (wf : graph.WF) (hasher : Hasher)
    (order : graph.Enumeration) (hash : HashOrder) (manager : ClusterManager) :
    assignClustersLogging hasher order hash false manager =
      assignClusters hasher order manager := by
  unfold assignClustersLogging assignClusters
  rw [clustersLogging_off wf]
  cases clusters hasher order with
  | error error => rfl
  | ok final =>
      simp only [Except.map]
      have tags := tagClustersLogging_tags order false final final.gc
        order.pointers ⟨⟨[], manager, graph⟩, fun _ => none⟩
      rw [← tags]
      change _ = Outcome.mk (tagClustersLogging order false final order.pointers
        ⟨⟨[], manager, graph⟩, fun _ => none⟩).1.tags.graph _ _
      cases tagClustersLogging order false final order.pointers
          ⟨⟨[], manager, graph⟩, fun _ => none⟩ with
      | mk last status =>
          cases status with
          | error error => rfl
          | ok done => rfl

/-- What is recorded passes the checks. -/
theorem checkPlacement_passes {hasher : Hasher} {order : graph.Enumeration}
    {hash : HashOrder} {manager : ClusterManager} {final : State} {gc : Rep}
    (wf : graph.WF) (success : clusters hasher order = .ok final)
    (settled : Settled final.gc gc) {last : LoggedTags}
    (tagged : tagClustersLogging order true { final with gc := gc }
      order.pointers ⟨⟨[], manager, graph⟩, fun _ => none⟩ = (last, .ok ())) :
    (∀ entry ∈ pushEdges graph final order.edges [],
        Permitted last.cluster_to_encapsulate entry) ∧
      checkPlacement hash graph last.cluster_to_encapsulate
        (pushEdges graph final order.edges []) = .ok () := by
  obtain ⟨predicate_map, found⟩ := clusters_found wf success
  have encapsulated :=
    tagClustersLogging_encapsulated (found.inv.grow settled.grown)
      (fun id member => List.mem_map.mp (order.pointersPerm.mem_iff.mp member))
      (fun id idNode hasId => absurd hasId (by simp)) tagged
  exact checkPlacement_ok hash wf found.recorded encapsulated

/-- With logging it ends in the same way. -/
theorem assignClustersLogging_on (wf : graph.WF) (hasher : Hasher)
    (order : graph.Enumeration) (hash : HashOrder) (manager : ClusterManager) :
    assignClustersLogging hasher order hash true manager =
      assignClusters hasher order manager := by
  obtain ⟨failing, finding⟩ := @clustersLogging_on graph order hasher wf
  unfold assignClustersLogging assignClusters
  cases success : clusters hasher order with
  | error error => rw [failing error success]
  | ok final =>
      obtain ⟨gc, settled, collected⟩ := finding final success
      rw [collected]
      dsimp only
      have tags := tagClustersLogging_tags order true final gc order.pointers
        ⟨⟨[], manager, graph⟩, fun _ => none⟩
      rw [← tags]
      cases tagged :
        tagClustersLogging order true { final with gc := gc } order.pointers
          ⟨⟨[], manager, graph⟩, fun _ => none⟩ with
      | mk last status =>
          cases status with
          | error error => rfl
          | ok done =>
              obtain ⟨_, checked⟩ :=
                @checkPlacement_passes _ _ _ hash _ _ _ wf success
                  settled _ tagged
              dsimp only
              rw [if_pos rfl, checked]

/-- Logging changes neither the status nor the clusters. The round that collects
reasons contracts nothing and gives every edge one reason, and none of the
reasons is forbidden for two encapsulates. -/
theorem assignClustersLogging_same (wf : graph.WF) (hasher : Hasher)
    (order : graph.Enumeration) (hash : HashOrder) (manager : ClusterManager) :
    assignClustersLogging hasher order hash true manager =
        assignClustersLogging hasher order hash false manager ∧
      assignClustersLogging hasher order hash false manager =
        assignClusters hasher order manager ∧
      ∀ final, clusters hasher order = .ok final →
        ∃ gc reasons, Settled final.gc gc ∧
        clustersLogging hasher order true =
          .ok ⟨{ final with gc := gc }, reasons⟩ ∧
        (recorded reasons).Perm
          (order.edges.map fun edge =>
            (edgeKey final edge, edgeReason graph final edge)) ∧
        ∀ last, tagClustersLogging order true { final with gc := gc }
          order.pointers
            ⟨⟨[], manager, graph⟩, fun _ => none⟩ = (last, .ok ()) →
          (∀ entry ∈ reasons, Permitted last.cluster_to_encapsulate entry) ∧
          checkPlacement hash graph last.cluster_to_encapsulate reasons =
            .ok () := by
  have off := assignClustersLogging_off wf hasher order hash manager
  have on := assignClustersLogging_on wf hasher order hash manager
  refine ⟨on.trans off.symm, off, ?_⟩
  intro final success
  obtain ⟨_, finding⟩ := @clustersLogging_on graph order hasher wf
  obtain ⟨gc, settled, collected⟩ := finding final success
  have listed := recorded_pushEdges graph final order.edges []
  rw [show recorded [] = [] from rfl, List.append_nil] at listed
  refine ⟨gc, _, settled, collected, listed, ?_⟩
  intro last tagged
  exact checkPlacement_passes wf success settled tagged

/-- The order in which the entries were added. -/
def byFirstReason : HashOrder := ⟨id, fun _ => .refl _⟩

theorem assignClustersLogging_same_switchGraph :
    assignClustersLogging constantHasher switchGraph.byInsertion
      byFirstReason true .init =
      assignClustersLogging constantHasher switchGraph.byInsertion
        byFirstReason false .init :=
  (assignClustersLogging_same switchGraph_wf _ _ _ _).1

end Placement

end NGraphBridge.AssignClusters
