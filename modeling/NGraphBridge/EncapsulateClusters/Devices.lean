import NGraphBridge.EncapsulateClusters.Analysis
import NGraphBridge.TF.Errors

/-!
# When the analysis succeeds

Every cluster of a graph has a `GraphDef` to be copied to.  Then the only thing
that the analysis can take offence at is a cluster on several devices.
-/

namespace NGraphBridge.EncapsulateClusters

open TF MarkForClustering AssignClusters

section Devices

/-- Nodes of one cluster are assigned to one device. -/
def SameDevices (nodes : List Node) : Prop :=
  ∀ left ∈ nodes, ∀ right ∈ nodes, ∀ cluster_idx,
    getNodeCluster left = .ok cluster_idx →
    getNodeCluster right = .ok cluster_idx →
    left.assigned_device_name = right.assigned_device_name

/-- Nodes are assigned to the devices on record for their clusters. -/
def OnDevices (entries : List (Int × String)) (nodes : List Node) : Prop :=
  ∀ node ∈ nodes, ∀ cluster_idx device, getNodeCluster node = .ok cluster_idx →
    entries.lookup cluster_idx = some device →
    node.assigned_device_name = device

theorem lookup_of_ne {key other : Int} {device : String}
    (entries : List (Int × String)) (different : other ≠ key) :
    ((key, device) :: entries).lookup other = entries.lookup other := by
  rw [List.lookup_cons, beq_false_of_ne different]

theorem lookup_insertDevice {cluster_idx other : Int} {device : String}
    {entries : List (Int × String)} (new : entries.lookup cluster_idx = none) :
    (insertDevice cluster_idx device entries).lookup other =
      if other = cluster_idx then some device else entries.lookup other := by
  induction entries with
  | nil =>
      by_cases same : other = cluster_idx
      · simp [insertDevice, same]
      · rw [insertDevice, lookup_of_ne _ same, if_neg same]
  | cons entry entries ih =>
      obtain ⟨key, found⟩ := entry
      have different : cluster_idx ≠ key := by
        rintro rfl
        simp at new
      rw [lookup_of_ne _ different] at new
      unfold insertDevice
      split
      · by_cases same : other = cluster_idx
        · simp [same]
        · rw [lookup_of_ne _ same, if_neg same]
      · by_cases atKey : other = key
        · subst atKey
          rw [List.lookup_cons_self, List.lookup_cons_self,
            if_neg (Ne.symm different)]
        · rw [lookup_of_ne _ atKey, lookup_of_ne _ atKey, ih new]

/-- The devices on record stay there, and that of the node joins them. -/
theorem recordDevice_lookup {node : Node} {entries result : List (Int × String)}
    (success : recordDevice node entries = .ok result) :
    (∀ {cluster_idx device}, entries.lookup cluster_idx = some device →
      result.lookup cluster_idx = some device) ∧
    ∀ {cluster_idx}, getNodeCluster node = .ok cluster_idx →
      result.lookup cluster_idx = some node.assigned_device_name := by
  unfold recordDevice at success
  cases found : getNodeCluster node with
  | error error =>
      rw [found] at success
      obtain rfl := Except.ok.inj success
      exact ⟨fun old => old, by simp⟩
  | ok own =>
      rw [found] at success
      dsimp only at success
      cases atOwn : entries.lookup own with
      | none =>
          rw [atOwn] at success
          obtain rfl := Except.ok.inj success
          constructor
          · intro cluster_idx device old
            rw [lookup_insertDevice atOwn]
            split
            case isTrue same => simp [same, atOwn] at old
            case isFalse => exact old
          · intro cluster_idx same
            obtain rfl := Except.ok.inj same
            rw [lookup_insertDevice atOwn, if_pos rfl]
      | some device =>
          rw [atOwn] at success
          dsimp only at success
          split at success
          case isTrue => simp at success
          case isFalse agrees =>
            obtain rfl := Except.ok.inj success
            refine ⟨fun old => old, ?_⟩
            intro cluster_idx same
            obtain rfl := Except.ok.inj same
            rw [atOwn]
            simpa using agrees

theorem recordDevices_lookup {nodes : List Node}
    {entries result : List (Int × String)}
    (success : recordDevices nodes entries = .ok result) :
    (∀ {cluster_idx device}, entries.lookup cluster_idx = some device →
      result.lookup cluster_idx = some device) ∧
    ∀ node ∈ nodes, ∀ {cluster_idx}, getNodeCluster node = .ok cluster_idx →
      result.lookup cluster_idx = some node.assigned_device_name := by
  induction nodes generalizing entries with
  | nil =>
      obtain rfl := Except.ok.inj success
      exact ⟨fun old => old, by simp⟩
  | cons head nodes ih =>
      obtain ⟨middle, first, success⟩ := bind_ok success
      obtain ⟨kept, own⟩ := recordDevice_lookup first
      obtain ⟨later, rest⟩ := ih success
      refine ⟨fun old => later (kept old), ?_⟩
      intro node member cluster_idx found
      cases List.mem_cons.mp member with
      | inl same =>
          subst same
          exact later (own found)
      | inr inRest => exact rest node inRest found

theorem recordDevices_succeeds {nodes : List Node}
    {entries : List (Int × String)} (onDevices : OnDevices entries nodes)
    (same : SameDevices nodes) :
    ∃ result, recordDevices nodes entries = .ok result := by
  induction nodes generalizing entries with
  | nil => exact ⟨entries, rfl⟩
  | cons node nodes ih =>
      have rest : SameDevices nodes := fun left leftIn right rightIn =>
        same left (by simp [leftIn]) right (by simp [rightIn])
      have first : ∃ middle, recordDevice node entries = .ok middle := by
        unfold recordDevice
        split
        case h_1 => exact ⟨_, rfl⟩
        case h_2 own found =>
          split
          case h_1 => exact ⟨_, rfl⟩
          case h_2 device atOwn =>
            rw [if_neg
              (by simp [onDevices node (by simp) own device found atOwn])]
            exact ⟨_, rfl⟩
      obtain ⟨middle, first⟩ := first
      have middleDevices : OnDevices middle nodes := by
        intro other member cluster_idx device found atMiddle
        by_cases known : getNodeCluster node = .ok cluster_idx
        · rw [(recordDevice_lookup first).2 known,
            Option.some.injEq] at atMiddle
          rw [← atMiddle]
          exact same other (by simp [member]) node (by simp) cluster_idx
            found known
        · apply onDevices other (by simp [member]) cluster_idx device found
          unfold recordDevice at first
          split at first
          case h_1 =>
            obtain rfl := Except.ok.inj first
            exact atMiddle
          case h_2 own ownFound =>
            have different : cluster_idx ≠ own := by
              rintro rfl
              exact known ownFound
            split at first
            case h_1 atOwn =>
              obtain rfl := Except.ok.inj first
              rwa [lookup_insertDevice atOwn, if_neg different] at atMiddle
            case h_2 =>
              split at first
              · simp at first
              · obtain rfl := Except.ok.inj first
                exact atMiddle
      obtain ⟨result, success⟩ := ih middleDevices rest
      refine ⟨result, ?_⟩
      rw [recordDevices, first]
      exact success

theorem recordDevices_iff {nodes : List Node} :
    (∃ result, recordDevices nodes [] = .ok result) ↔ SameDevices nodes := by
  constructor
  · rintro ⟨result, success⟩ left leftIn right rightIn cluster_idx leftFound
      rightFound
    have recorded := (recordDevices_lookup success).2
    have both := recorded left leftIn leftFound
    rw [recorded right rightIn rightFound, Option.some.injEq] at both
    exact both.symm
  · intro same
    apply recordDevices_succeeds _ same
    intro node _ cluster_idx device _ atNil
    simp at atNil

end Devices

section Total

variable {graph : Graph}

/-- Every cluster of the graph has a `GraphDef`. -/
def Backed (graph : Graph) (manager : ClusterManager) : Prop :=
  ∀ node ∈ graph.op_nodes, ∀ cluster_idx,
    getNodeCluster node = .ok cluster_idx →
    (manager.getClusterGraph cluster_idx).isSome = true

variable {enc : Encapsulator}

theorem Backed.addNodeDef (backed : Backed graph enc.manager) {node : Node}
    (member : node ∈ graph.op_nodes) {cluster_idx : Int}
    (found : getNodeCluster node = .ok cluster_idx) (node_def : NodeDef) :
    ∃ manager, enc.addNodeDef cluster_idx node_def =
      .ok { enc with manager := manager } ∧
      Backed graph manager := by
  unfold Encapsulator.addNodeDef
  split
  case h_1 missing =>
    have there := backed node member cluster_idx found
    rw [missing] at there
    simp at there
  case h_2 =>
    refine ⟨_, rfl, ?_⟩
    intro other otherIn idx otherFound
    have there := backed other otherIn idx otherFound
    rw [ClusterManager.getClusterGraph_update]
    split
    · rwa [Option.isSome_map]
    · exact there

theorem addRetval_succeeds (backed : Backed graph enc.manager) {src : Node}
    (member : src ∈ graph.op_nodes) (src_output : Int) (dt : DataType) :
    ∃ next, addRetval src src_output dt enc = .ok next ∧
    Backed graph next.manager := by
  unfold addRetval
  split
  case isTrue => exact ⟨enc, rfl, backed⟩
  case isFalse new =>
    simp only [Bool.or_eq_true, Bool.not_eq_true', not_or,
      Bool.not_eq_false] at new
    obtain ⟨manager, success, nextBacked⟩ :=
      backed.addNodeDef member (getNodeCluster_of new.1)
        (retvalDef (enc.cluster_output_dt_map (clusterIdx src)).length
          (enc.retval_index_count (clusterIdx src)) src src_output dt)
    dsimp only
    rw [success]
    exact ⟨_, rfl, nextBacked⟩

theorem addArg_succeeds (backed : Backed graph enc.manager) {dst : Node}
    (member : dst ∈ graph.op_nodes) (src : Node) (src_output : Int)
    (dt : DataType) :
    ∃ next, addArg src src_output dst dt enc = .ok next ∧
    Backed graph next.manager := by
  unfold addArg
  split
  case isTrue => exact ⟨enc, rfl, backed⟩
  case isFalse new =>
    simp only [Bool.or_eq_true, Bool.not_eq_true', not_or,
      Bool.not_eq_false] at new
    obtain ⟨manager, success, nextBacked⟩ :=
      backed.addNodeDef member (getNodeCluster_of new.1)
        (argDef (enc.cluster_input_map (clusterIdx dst)).length
          (enc.arg_index_count (clusterIdx dst)) src dt)
    dsimp only
    rw [success]
    exact ⟨_, rfl, nextBacked⟩

theorem remapEdges_succeeds {edges : List Edge} (wf : graph.WF)
    (inside : ∀ edge ∈ edges, edge ∈ graph.edges)
    (backed : Backed graph enc.manager) :
    ∃ next, remapEdges graph edges enc = .ok next ∧
    Backed graph next.manager := by
  induction edges generalizing enc with
  | nil => exact ⟨enc, rfl, backed⟩
  | cons edge edges ih =>
      have first : ∃ middle, remapEdge graph edge enc = .ok middle ∧
          Backed graph middle.manager := by
        unfold remapEdge
        dsimp only
        split
        case isTrue => exact ⟨enc, rfl, backed⟩
        case isFalse =>
          split
          case isTrue => exact ⟨enc, rfl, backed⟩
          case isFalse ops =>
            split
            case isTrue => exact ⟨enc, rfl, backed⟩
            case isFalse =>
              simp only [Bool.or_eq_true, Bool.not_eq_true', not_or,
                Bool.not_eq_false] at ops
              have inGraph := inside edge (by simp)
              have srcIn : graph.node edge.src ∈ graph.op_nodes :=
                List.mem_filter.mpr
                  ⟨(wf.node_mem (wf.src edge inGraph)).1, ops.1⟩
              have dstIn : graph.node edge.dst ∈ graph.op_nodes :=
                List.mem_filter.mpr
                  ⟨(wf.node_mem (wf.dst edge inGraph)).1, ops.2⟩
              obtain ⟨middle, atRetval, middleBacked⟩ :=
                addRetval_succeeds backed srcIn edge.src_output
                  (inputType (graph.node edge.dst) edge.dst_input)
              rw [atRetval]
              exact addArg_succeeds middleBacked dstIn _ _ _
      obtain ⟨middle, atFirst, middleBacked⟩ := first
      obtain ⟨next, atRest, nextBacked⟩ :=
        ih (fun edge member => inside edge (by simp [member])) middleBacked
      refine ⟨next, ?_, nextBacked⟩
      rw [remapEdges, atFirst]
      exact atRest

theorem collectInputs_succeeds {node : Node} {in_edges : List Edge}
    (cluster_idx : Int) {slots : Nat → Option Edge} {controls : List Edge}
    (slotted : node.Slotted in_edges)
    (free : ∀ edge ∈ in_edges, edge.isControlEdge = false →
      slots edge.dst_input.toNat = none) :
    ∃ inputs, collectInputs graph cluster_idx in_edges slots controls =
      .ok inputs := by
  induction in_edges generalizing slots controls with
  | nil => exact ⟨_, rfl⟩
  | cons head in_edges ih =>
      obtain ⟨apart, distinct⟩ := List.pairwise_cons.mp slotted.distinct
      have rest : node.Slotted in_edges :=
        ⟨fun edge member => slotted.inBounds edge (by simp [member]), distinct⟩
      unfold collectInputs
      split
      case isTrue control =>
        split
        · exact ih rest (fun edge member => free edge (by simp [member]))
        · exact ih rest (fun edge member => free edge (by simp [member]))
      case isFalse data =>
        have data : head.isControlEdge = false := by simpa using data
        have inBounds := slotted.inBounds head (by simp) data
        rw [if_neg (by simp [free head (by simp) data])]
        apply ih rest
        intro edge member edgeData
        have edgeInBounds := rest.inBounds edge member edgeData
        have different := apart edge member data edgeData
        rw [Function.update_of_ne (by omega)]
        exact free edge (by simp [member]) edgeData

theorem copyNodes_succeeds {order : graph.Enumeration} {nodes : List Node}
    (wf : graph.WF) (inside : ∀ node ∈ nodes, node ∈ graph.op_nodes)
    (backed : Backed graph enc.manager) :
    ∃ next, copyNodes order nodes enc = .ok next := by
  induction nodes generalizing enc with
  | nil => exact ⟨enc, rfl⟩
  | cons node nodes ih =>
      have first : ∃ middle, copyNode order node enc = .ok middle ∧
          Backed graph middle.manager := by
        unfold copyNode
        split
        case h_1 => exact ⟨enc, rfl, backed⟩
        case h_2 cluster_idx found =>
          have member := inside node (by simp)
          obtain ⟨inputs, collected⟩ :=
            @collectInputs_succeeds graph node _ cluster_idx (fun _ => none) []
              (wf.slotted order (List.mem_filter.mp member).1)
              (fun _ _ _ => rfl)
          have copied : ∃ node_def,
              copyDef graph (order.in_edges node.id) enc cluster_idx
              node = .ok node_def := by
            rw [copyDef, collected]
            exact ⟨_, rfl⟩
          obtain ⟨node_def, copied⟩ := copied
          obtain ⟨manager, success, nextBacked⟩ :=
            backed.addNodeDef member found node_def
          rw [copied]
          exact ⟨_, success, nextBacked⟩
      obtain ⟨middle, atFirst, middleBacked⟩ := first
      obtain ⟨next, atRest⟩ :=
        ih (fun node member => inside node (by simp [member])) middleBacked
      refine ⟨next, ?_⟩
      rw [copyNodes, atFirst]
      exact atRest

/-- The analysis succeeds when every cluster is on one device. -/
theorem analysisPass_iff {manager : ClusterManager} (wf : graph.WF)
    (order : graph.Enumeration) (backed : Backed graph manager) :
    (∃ enc, analysisPass order manager = .ok enc) ↔
    SameDevices graph.op_nodes := by
  rw [← recordDevices_iff]
  constructor
  · rintro ⟨enc, success⟩
    obtain ⟨devices, recorded, _⟩ := bind_ok success
    exact ⟨devices, recorded⟩
  · rintro ⟨devices, recorded⟩
    obtain ⟨middle, remapped, middleBacked⟩ := @remapEdges_succeeds graph
      (setDevices (.init manager) devices) order.edges wf
      (fun edge => (order.mem_edges edge).mp) backed
    obtain ⟨enc, copied⟩ :=
      @copyNodes_succeeds graph middle order graph.op_nodes wf
        (fun _ member => member) middleBacked
    refine ⟨enc, ?_⟩
    rw [analysisPass, recorded]
    simp only [bind, Except.bind]
    rw [remapped]
    exact copied

end Total

end NGraphBridge.EncapsulateClusters
