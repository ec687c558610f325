import NGraphBridge.EncapsulateClusters.Pass

/-!
# What the analysis finds

The maps of the encapsulator number the same tensors: two lists per cluster,
one of the tensors it reads and one of the tensors it offers.
-/

namespace NGraphBridge.EncapsulateClusters

open TF MarkForClustering AssignClusters

variable {graph : Graph} {manager : ClusterManager} {enc next : Encapsulator}
  {added : Int → List NodeDef} {outs : Int → List (Nat × Int)}

theorem addNodeDef_ok {cluster_idx : Int} {node_def : NodeDef}
    (success : enc.addNodeDef cluster_idx node_def = .ok next)
    (appended : manager.Appended added enc.manager) :
    (∃ after, next = { enc with manager := after }) ∧
      manager.Appended (pushBack added cluster_idx node_def) next.manager := by
  unfold Encapsulator.addNodeDef at success
  split at success
  case h_1 => simp at success
  case h_2 =>
    obtain rfl := Except.ok.inj success
    refine ⟨⟨_, rfl⟩, ?_⟩
    intro idx
    dsimp only
    rw [ClusterManager.getClusterGraph_update, appended idx]
    by_cases same : idx = cluster_idx
    · subst same
      rw [if_pos rfl, Option.map_map]
      congr 1
      funext gdef
      simp [GraphDef.add_node, pushBack]
    · rw [if_neg same]
      congr 1
      funext gdef
      simp [pushBack, same]

theorem clusterIdx_of {node : Node} {cluster_idx : Int}
    (found : getNodeCluster node = .ok cluster_idx) :
    isClustered node = true ∧ clusterIdx node = cluster_idx := by
  simp [isClustered, clusterIdx, found]

theorem getNodeCluster_of {node : Node} (clustered : isClustered node = true) :
    getNodeCluster node = .ok (clusterIdx node) := by
  unfold isClustered at clustered
  unfold clusterIdx
  split at clustered
  case h_1 cluster_idx found => rw [found]
  case h_2 => simp at clustered

/-- The nodes that the analysis adds for the border of a cluster. -/
def IsBorderDef (graph : Graph) (outs : Int → List (Nat × Int))
    (enc : Encapsulator) (cluster_idx : Int) (node_def : NodeDef) : Prop :=
  (∃ (position : Nat) (input : Nat × Int × DataType),
    (enc.cluster_input_map cluster_idx)[position]? = some input ∧
    node_def = argDef position position (graph.node input.1) input.2.2) ∨
  ∃ (position : Nat) (output : Nat × Int) (dt : DataType),
    (outs cluster_idx)[position]? = some output ∧
    (enc.cluster_output_dt_map cluster_idx)[position]? = some dt ∧
    node_def = retvalDef position position (graph.node output.1) output.2 dt

/-- An edge of the graph that crosses the border of a cluster. -/
structure Crosses (graph : Graph) (edge : Edge) : Prop where
  member : edge ∈ graph.edges
  data : edge.isControlEdge = false
  apart : clusterIdx (graph.node edge.dst) ≠ clusterIdx (graph.node edge.src)

/-- `outs` are the tensors that a cluster offers, and the maps number them and
the tensors that it reads. -/
structure Remapped (graph : Graph) (manager : ClusterManager)
    (devices : List (Int × String)) (done : List Edge)
    (outs : Int → List (Nat × Int)) (added : Int → List NodeDef)
    (enc : Encapsulator) : Prop where
  device : enc.device_name_map = devices
  outLength : ∀ c, (enc.cluster_output_dt_map c).length = (outs c).length
  retvalIndex : ∀ c, enc.retval_index_count c = (outs c).length
  argIndex : ∀ c, enc.arg_index_count c = (enc.cluster_input_map c).length
  outMap : ∀ key c k, enc.output_remap_map key = some (c, k) ↔
    (outs c)[k]? = some key
  inMap : ∀ c key, (enc.input_remap_map (c, key)).isSome = true ↔
    key ∈ enc.inputsOf c
  rename : ∀ c name slot new, enc.input_rename_map (c, name, slot) = some new ↔
    ∃ (k : Nat) (src : Nat), (enc.inputsOf c)[k]? = some (src, slot) ∧
      (graph.node src).name = name ∧ new = inputName k
  appended : manager.Appended added enc.manager
  defs : ∀ c node_def, node_def ∈ added c ↔
    IsBorderDef graph outs enc c node_def
  outSource : ∀ c key, key ∈ outs c → ∃ edge, Crosses graph edge ∧
    isClustered (graph.node edge.src) = true ∧
    clusterIdx (graph.node edge.src) = c ∧
    key = (edge.src, edge.src_output)
  inSource : ∀ c key, key ∈ enc.inputsOf c → ∃ edge, Crosses graph edge ∧
    isClustered (graph.node edge.dst) = true ∧
    clusterIdx (graph.node edge.dst) = c ∧
    key = (edge.src, edge.src_output)
  covered : ∀ edge ∈ done, Crosses graph edge →
    (isClustered (graph.node edge.dst) = true →
      (edge.src, edge.src_output) ∈
        enc.inputsOf (clusterIdx (graph.node edge.dst))) ∧
    (isClustered (graph.node edge.src) = true →
      (edge.src, edge.src_output) ∈ outs (clusterIdx (graph.node edge.src)))

theorem remapped_init (graph : Graph) (manager : ClusterManager)
    (devices : List (Int × String)) :
    Remapped graph manager devices [] (fun _ => []) (fun _ => [])
      (setDevices (.init manager) devices) where
  device := rfl
  outLength := fun _ => rfl
  retvalIndex := fun _ => rfl
  argIndex := fun _ => rfl
  outMap := by simp [setDevices, Encapsulator.init]
  inMap := by simp [setDevices, Encapsulator.init, Encapsulator.inputsOf]
  rename := by simp [setDevices, Encapsulator.init, Encapsulator.inputsOf]
  appended := ClusterManager.appended_init manager
  defs := by simp [IsBorderDef, setDevices, Encapsulator.init]
  outSource := by simp
  inSource := by simp [setDevices, Encapsulator.init, Encapsulator.inputsOf]
  covered := by simp

section Step

variable {devices : List (Int × String)} {done : List Edge} {edge : Edge}
  {dt : DataType}

/-- The border of a cluster that offers one more tensor. -/
theorem Remapped.defs_retval
    (remapped : Remapped graph manager devices done outs added enc)
    {cluster_idx : Int} (key : Nat × Int)
    (inputs : next.cluster_input_map = enc.cluster_input_map)
    (dts : next.cluster_output_dt_map =
      pushBack enc.cluster_output_dt_map cluster_idx dt)
    {c : Int} {node_def : NodeDef} :
    node_def ∈ pushBack added cluster_idx (retvalDef (outs cluster_idx).length
        (outs cluster_idx).length (graph.node key.1) key.2 dt) c ↔
      IsBorderDef graph (pushBack outs cluster_idx key) next c node_def := by
  rw [mem_pushBack, remapped.defs, IsBorderDef, IsBorderDef, inputs, dts]
  constructor
  · rintro ((isArg | ⟨k, output, dt', atK, atDt, isRetval⟩) | ⟨rfl, rfl⟩)
    · exact .inl isArg
    · exact .inr ⟨k, output, dt', getElem?_pushBack.mpr (.inl atK),
        getElem?_pushBack.mpr (.inl atDt), isRetval⟩
    · exact .inr ⟨_, key, dt, getElem?_pushBack.mpr (.inr ⟨rfl, rfl, rfl⟩),
        getElem?_pushBack.mpr (.inr ⟨rfl, (remapped.outLength _).symm, rfl⟩),
        rfl⟩
  · rintro (isArg | ⟨k, output, dt', atK, atDt, isRetval⟩)
    · exact .inl (.inl isArg)
    · cases getElem?_pushBack.mp atK with
      | inl old =>
          left
          right
          refine ⟨k, output, dt', old, ?_, isRetval⟩
          cases getElem?_pushBack.mp atDt with
          | inl oldDt => exact oldDt
          | inr new =>
              obtain ⟨rfl, rfl, _⟩ := new
              rw [remapped.outLength] at old
              simp at old
      | inr new =>
          obtain ⟨rfl, rfl, rfl⟩ := new
          right
          refine ⟨rfl, ?_⟩
          cases getElem?_pushBack.mp atDt with
          | inl oldDt =>
              rw [← remapped.outLength] at oldDt
              simp at oldDt
          | inr newDt =>
              rw [isRetval, newDt.2.2]

theorem Remapped.addRetval
    (remapped : Remapped graph manager devices done outs added enc)
    (wf : graph.WF) (crosses : Crosses graph edge)
    (success : addRetval (graph.node edge.src) edge.src_output dt enc =
      .ok next) :
    ∃ outs added, Remapped graph manager devices done outs added next ∧
      next.cluster_input_map = enc.cluster_input_map ∧
      next.input_remap_map = enc.input_remap_map ∧
      (isClustered (graph.node edge.src) = true →
        (edge.src, edge.src_output) ∈
          outs (clusterIdx (graph.node edge.src))) := by
  have srcId := (wf.node_mem (wf.src edge crosses.member)).2
  unfold EncapsulateClusters.addRetval at success
  rw [srcId] at success
  split at success
  case isTrue known =>
    obtain rfl := Except.ok.inj success
    refine ⟨outs, added, remapped, rfl, rfl, ?_⟩
    intro clustered
    simp only [clustered, Bool.not_true, Bool.false_or,
      Option.isSome_iff_exists] at known
    obtain ⟨⟨c, k⟩, found⟩ := known
    have atK := (remapped.outMap _ _ _).mp found
    obtain ⟨other, _, _, sameIdx, sameKey⟩ :=
      remapped.outSource c _ (List.mem_of_getElem? atK)
    obtain ⟨sameSrc, _⟩ := Prod.mk.inj sameKey
    rw [← sameSrc] at sameIdx
    rw [sameIdx]
    exact List.mem_of_getElem? atK
  case isFalse new =>
    simp only [Bool.or_eq_true, Bool.not_eq_true', not_or, Bool.not_eq_false,
      Bool.not_eq_true, Option.isSome_eq_false_iff,
      Option.isNone_iff_eq_none] at new
    obtain ⟨clustered, unmapped⟩ := new
    obtain ⟨middle, defAdded, success⟩ := bind_ok success
    obtain ⟨⟨after, rfl⟩, appended⟩ := addNodeDef_ok defAdded remapped.appended
    obtain rfl := Except.ok.inj success
    rw [remapped.retvalIndex, remapped.outLength] at *
    refine ⟨pushBack outs (clusterIdx (graph.node edge.src))
      (edge.src, edge.src_output),
      pushBack added (clusterIdx (graph.node edge.src))
        (retvalDef (outs (clusterIdx (graph.node edge.src))).length
          (outs (clusterIdx (graph.node edge.src))).length (graph.node edge.src)
          edge.src_output dt), ?_, rfl, rfl,
          fun _ => mem_pushBack.mpr (.inr ⟨rfl, rfl⟩)⟩
    constructor
    case device => exact remapped.device
    case outLength =>
      intro c
      dsimp only
      rw [length_pushBack, length_pushBack, remapped.outLength]
    case retvalIndex =>
      intro c
      dsimp only
      rw [length_pushBack]
      by_cases same : c = clusterIdx (graph.node edge.src)
      · simp [same]
      · simp [same, remapped.retvalIndex]
    case argIndex => exact remapped.argIndex
    case outMap =>
      intro key c k
      dsimp only
      rw [getElem?_pushBack, ← remapped.outMap]
      by_cases same : key = (edge.src, edge.src_output)
      · subst same
        simp only [Function.update_self, unmapped, Option.some.injEq,
          Prod.mk.injEq, reduceCtorEq, false_or, and_true]
        exact ⟨fun both => ⟨both.1.symm, both.2.symm⟩,
          fun both => ⟨both.1.symm, both.2.symm⟩⟩
      · rw [Function.update_of_ne same]
        exact ⟨.inl, fun either =>
          either.elim id (fun new => absurd new.2.2.symm same)⟩
    case inMap => exact remapped.inMap
    case rename => exact remapped.rename
    case appended => exact appended
    case defs =>
      intro c node_def
      apply remapped.defs_retval (edge.src, edge.src_output)
      · rfl
      · rfl
    case outSource =>
      intro c key member
      cases mem_pushBack.mp member with
      | inl old => exact remapped.outSource c key old
      | inr new => exact ⟨edge, crosses, clustered, new.1.symm, new.2⟩
    case inSource => exact remapped.inSource
    case covered =>
      intro other member otherCrosses
      obtain ⟨atDst, atSrc⟩ := remapped.covered other member otherCrosses
      exact ⟨atDst, fun srcClustered =>
        mem_pushBack.mpr (.inl (atSrc srcClustered))⟩

theorem inputsOf_pushBack {enc : Encapsulator}
    {map : Int → List (Nat × Int × DataType)} {cluster_idx : Int}
    {input : Nat × Int × DataType}
    (pushed : next.cluster_input_map = pushBack map cluster_idx input)
    (before : enc.cluster_input_map = map) :
    next.inputsOf = pushBack enc.inputsOf cluster_idx (input.1, input.2.1) := by
  funext c
  rw [Encapsulator.inputsOf, pushed]
  by_cases same : c = cluster_idx
  · subst same
    simp [pushBack, Encapsulator.inputsOf, before]
  · simp [pushBack, same, Encapsulator.inputsOf, before]

/-- The border of a cluster that reads one more tensor. -/
theorem Remapped.defs_arg
    (remapped : Remapped graph manager devices done outs added enc)
    {cluster_idx : Int} (input : Nat × Int × DataType)
    (inputs : next.cluster_input_map =
      pushBack enc.cluster_input_map cluster_idx input)
    (dts : next.cluster_output_dt_map = enc.cluster_output_dt_map)
    {c : Int} {node_def : NodeDef} :
    node_def ∈ pushBack added cluster_idx
      (argDef (enc.cluster_input_map cluster_idx).length
        (enc.cluster_input_map cluster_idx).length (graph.node input.1)
        input.2.2) c ↔
      IsBorderDef graph outs next c node_def := by
  rw [mem_pushBack, remapped.defs, IsBorderDef, IsBorderDef, inputs, dts]
  constructor
  · rintro ((⟨k, input, atK, isArg⟩ | isRetval) | ⟨rfl, rfl⟩)
    · exact .inl ⟨k, input, getElem?_pushBack.mpr (.inl atK), isArg⟩
    · exact .inr isRetval
    · exact .inl ⟨_, input, getElem?_pushBack.mpr (.inr ⟨rfl, rfl, rfl⟩), rfl⟩
  · rintro (⟨k, input, atK, isArg⟩ | isRetval)
    · cases getElem?_pushBack.mp atK with
      | inl old => exact .inl (.inl ⟨k, input, old, isArg⟩)
      | inr isNew =>
          obtain ⟨rfl, rfl, rfl⟩ := isNew
          exact .inr ⟨rfl, isArg⟩
    · exact .inl (.inr isRetval)

/-- A tensor is renamed to the number of the input that it is read as. -/
theorem Remapped.rename_arg
    (remapped : Remapped graph manager devices done outs added enc)
    (wf : graph.WF) {cluster_idx : Int} {src : Nat} {src_output : Int}
    (srcNode : graph.HasNode src)
    (unmapped : (src, src_output) ∉ enc.inputsOf cluster_idx)
    (inputs : next.inputsOf = pushBack enc.inputsOf cluster_idx
      (src, src_output))
    (renamed : next.input_rename_map = Function.update enc.input_rename_map
      (cluster_idx, (graph.node src).name, src_output)
      (some (inputName (enc.inputsOf cluster_idx).length)))
    {c : Int} {name new : String} {slot : Int} :
    next.input_rename_map (c, name, slot) = some new ↔
      ∃ (k : Nat) (src : Nat), (next.inputsOf c)[k]? = some (src, slot) ∧
        (graph.node src).name = name ∧ new = inputName k := by
  obtain ⟨srcIn, srcId⟩ := wf.node_mem srcNode
  rw [inputs, renamed]
  by_cases same :
      (c, name, slot) = (cluster_idx, (graph.node src).name, src_output)
  · obtain ⟨rfl, sameRest⟩ := Prod.mk.inj same
    obtain ⟨rfl, rfl⟩ := Prod.mk.inj sameRest
    rw [Function.update_self, Option.some.injEq]
    constructor
    · rintro rfl
      exact ⟨_, src, getElem?_pushBack.mpr (.inr ⟨rfl, rfl, rfl⟩), rfl, rfl⟩
    · rintro ⟨k, src', atK, sameName, rfl⟩
      cases getElem?_pushBack.mp atK with
      | inl old =>
          -- another tensor of this name would be this tensor
          obtain ⟨other, otherCrosses, _, _, sameKey⟩ :=
            remapped.inSource _ _ (List.mem_of_getElem? old)
          obtain ⟨rfl, _⟩ := Prod.mk.inj sameKey
          obtain ⟨otherIn, otherId⟩ :=
            wf.node_mem (wf.src other otherCrosses.member)
          have sameNode := wf.name_injective otherIn srcIn sameName
          rw [← otherId, sameNode, srcId] at old
          exact absurd (List.mem_of_getElem? old) unmapped
      | inr isNew => rw [isNew.2.1]
  · rw [Function.update_of_ne same, remapped.rename]
    constructor
    · rintro ⟨k, src, atK, rest⟩
      exact ⟨k, src, getElem?_pushBack.mpr (.inl atK), rest⟩
    · rintro ⟨k, src, atK, sameName, isNew⟩
      cases getElem?_pushBack.mp atK with
      | inl old => exact ⟨k, src, old, sameName, isNew⟩
      | inr pushedAt =>
          obtain ⟨rfl, _, sameKey⟩ := pushedAt
          obtain ⟨rfl, rfl⟩ := Prod.mk.inj sameKey
          exact absurd (by rw [sameName]) same

theorem Remapped.addArg
    (remapped : Remapped graph manager devices done outs added enc)
    (wf : graph.WF) (crosses : Crosses graph edge)
    (success : addArg (graph.node edge.src) edge.src_output
      (graph.node edge.dst) dt enc =
      .ok next) :
    ∃ added, Remapped graph manager devices done outs added next ∧
      (isClustered (graph.node edge.dst) = true → (edge.src, edge.src_output) ∈
        next.inputsOf (clusterIdx (graph.node edge.dst))) := by
  obtain ⟨srcIn, srcId⟩ := wf.node_mem (wf.src edge crosses.member)
  unfold EncapsulateClusters.addArg at success
  rw [srcId] at success
  split at success
  case isTrue known =>
    obtain rfl := Except.ok.inj success
    refine ⟨added, remapped, ?_⟩
    intro clustered
    simp only [clustered, Bool.not_true, Bool.false_or] at known
    exact (remapped.inMap _ _).mp known
  case isFalse new =>
    simp only [Bool.or_eq_true, Bool.not_eq_true', not_or,
      Bool.not_eq_false] at new
    obtain ⟨clustered, unmapped⟩ := new
    rw [remapped.inMap] at unmapped
    obtain ⟨middle, defAdded, success⟩ := bind_ok success
    obtain ⟨⟨after, rfl⟩, appended⟩ := addNodeDef_ok defAdded remapped.appended
    have pushed : next.cluster_input_map = pushBack enc.cluster_input_map
        (clusterIdx (graph.node edge.dst)) (edge.src, edge.src_output, dt) := by
      rw [← Except.ok.inj success]
    have inputs := inputsOf_pushBack pushed rfl
    dsimp only at inputs
    have position :
        (enc.cluster_input_map (clusterIdx (graph.node edge.dst))).length =
        (enc.inputsOf (clusterIdx (graph.node edge.dst))).length := by
      simp [Encapsulator.inputsOf]
    obtain rfl := Except.ok.inj success
    rw [remapped.argIndex] at *
    refine ⟨pushBack added (clusterIdx (graph.node edge.dst))
      (argDef (enc.cluster_input_map (clusterIdx (graph.node edge.dst))).length
        (enc.cluster_input_map (clusterIdx (graph.node edge.dst))).length
        (graph.node edge.src) dt), ?_, ?_⟩
    · constructor
      case device => exact remapped.device
      case outLength => exact remapped.outLength
      case retvalIndex => exact remapped.retvalIndex
      case argIndex =>
        intro c
        dsimp only
        rw [length_pushBack]
        by_cases same : c = clusterIdx (graph.node edge.dst)
        · simp [same]
        · simp [same, remapped.argIndex]
      case outMap => exact remapped.outMap
      case inMap =>
        intro c key
        rw [inputs, mem_pushBack, ← remapped.inMap]
        dsimp only
        by_cases same : (c, key) =
            (clusterIdx (graph.node edge.dst), edge.src, edge.src_output)
        · simp [(Prod.mk.inj same).1, (Prod.mk.inj same).2]
        · rw [Function.update_of_ne same]
          exact ⟨.inl, fun either => either.elim id
            (fun isNew => absurd (Prod.ext isNew.1 isNew.2) same)⟩
      case rename =>
        intro c name slot new
        apply remapped.rename_arg wf (wf.src edge crosses.member)
          unmapped inputs
        rw [← position]
      case appended => exact appended
      case defs =>
        intro c node_def
        apply remapped.defs_arg (edge.src, edge.src_output, dt)
        · rfl
        · rfl
      case outSource => exact remapped.outSource
      case inSource =>
        intro c key member
        rw [inputs] at member
        cases mem_pushBack.mp member with
        | inl old => exact remapped.inSource c key old
        | inr isNew => exact ⟨edge, crosses, clustered, isNew.1.symm, isNew.2⟩
      case covered =>
        intro other member otherCrosses
        obtain ⟨atDst, atSrc⟩ := remapped.covered other member otherCrosses
        refine ⟨fun dstClustered => ?_, atSrc⟩
        rw [inputs]
        exact mem_pushBack.mpr (.inl (atDst dstClustered))
    · intro _
      rw [inputs]
      exact mem_pushBack.mpr (.inr ⟨rfl, rfl⟩)

theorem Remapped.remapEdge
    (remapped : Remapped graph manager devices done outs added enc)
    (wf : graph.WF) (member : edge ∈ graph.edges)
    (success : remapEdge graph edge enc = .ok next) :
    ∃ outs added, Remapped graph manager devices (edge :: done) outs added
      next := by
  have skip : ¬ Crosses graph edge →
      Remapped graph manager devices (edge :: done) outs added enc := by
    intro inside
    refine { remapped with covered := ?_ }
    intro other inList crosses
    cases List.mem_cons.mp inList with
    | inl same => exact absurd (same ▸ crosses) inside
    | inr old => exact remapped.covered other old crosses
  unfold EncapsulateClusters.remapEdge at success
  dsimp only at success
  split at success
  case isTrue control =>
    obtain rfl := Except.ok.inj success
    refine ⟨outs, added, skip (fun crosses => ?_)⟩
    have data := crosses.data
    rw [control] at data
    exact absurd data (by simp)
  case isFalse data =>
    have data : edge.isControlEdge = false := by simpa using data
    obtain ⟨srcOp, dstOp⟩ := wf.opEnds edge member data
    rw [if_neg (by simp [srcOp, dstOp])] at success
    split at success
    case isTrue together =>
      obtain rfl := Except.ok.inj success
      exact ⟨outs, added,
        skip (fun crosses => crosses.apart (by simpa using together))⟩
    case isFalse apart =>
      have crosses : Crosses graph edge := ⟨member, data, by simpa using apart⟩
      obtain ⟨middle, first, success⟩ := bind_ok success
      obtain ⟨outs, added, middleRemapped, _, _, atSrc⟩ :=
        remapped.addRetval wf crosses first
      obtain ⟨added, nextRemapped, atDst⟩ :=
        middleRemapped.addArg wf crosses success
      refine ⟨outs, added, { nextRemapped with covered := ?_ }⟩
      intro other inList otherCrosses
      cases List.mem_cons.mp inList with
      | inl same =>
          subst same
          exact ⟨atDst, atSrc⟩
      | inr old => exact nextRemapped.covered other old otherCrosses

theorem Remapped.remapEdges {edges : List Edge}
    (remapped : Remapped graph manager devices done outs added enc)
    (wf : graph.WF) (inside : ∀ edge ∈ edges, edge ∈ graph.edges)
    (success : remapEdges graph edges enc = .ok next) :
    ∃ all outs added, (∀ edge ∈ edges, edge ∈ all) ∧
      (∀ edge ∈ done, edge ∈ all) ∧
      Remapped graph manager devices all outs added next := by
  induction edges generalizing done outs added enc with
  | nil =>
      obtain rfl := Except.ok.inj success
      exact ⟨done, outs, added, by simp, fun _ member => member, remapped⟩
  | cons edge edges ih =>
      obtain ⟨middle, first, success⟩ := bind_ok success
      obtain ⟨outs, added, middleRemapped⟩ :=
        remapped.remapEdge wf (inside edge (by simp)) first
      obtain ⟨all, outs, added, covers, old, result⟩ :=
        ih middleRemapped (fun edge member => inside edge (by simp [member]))
          success
      refine ⟨all, outs, added, ?_,
        fun edge member => old edge (by simp [member]), result⟩
      intro other member
      cases List.mem_cons.mp member with
      | inl same => exact old other (by simp [same])
      | inr later => exact covers other later

end Step

section Devices

theorem mem_insertDevice {cluster_idx : Int} {device : String}
    {entries : List (Int × String)} {entry : Int × String} :
    entry ∈ insertDevice cluster_idx device entries ↔
      entry = (cluster_idx, device) ∨ entry ∈ entries := by
  induction entries with
  | nil => simp [insertDevice]
  | cons head entries ih =>
      unfold insertDevice
      split
      · simp
      · rw [List.mem_cons, ih, List.mem_cons]
        tauto

theorem insertDevice_nodup {cluster_idx : Int} {device : String}
    {entries : List (Int × String)} (distinct : (entries.map Prod.fst).Nodup)
    (new : cluster_idx ∉ entries.map Prod.fst) :
    ((insertDevice cluster_idx device entries).map Prod.fst).Nodup := by
  induction entries with
  | nil => simp [insertDevice]
  | cons head entries ih =>
      unfold insertDevice
      split
      · exact List.nodup_cons.mpr ⟨new, distinct⟩
      · rw [List.map_cons, List.nodup_cons] at distinct ⊢
        rw [List.map_cons, List.mem_cons, not_or] at new
        refine ⟨?_, ih distinct.2 new.2⟩
        intro member
        obtain ⟨entry, inEntries, same⟩ := List.mem_map.mp member
        cases mem_insertDevice.mp inEntries with
        | inl isNew =>
            rw [isNew] at same
            exact new.1 same
        | inr old => exact distinct.1 (same ▸ List.mem_map_of_mem old)

theorem lookup_eq_none {cluster_idx : Int} {entries : List (Int × String)} :
    entries.lookup cluster_idx = none ↔ cluster_idx ∉ entries.map Prod.fst := by
  induction entries with
  | nil => simp
  | cons entry entries ih =>
      obtain ⟨key, device⟩ := entry
      rw [List.lookup_cons]
      by_cases same : cluster_idx = key
      · simp [same]
      · have skipped : (cluster_idx == key) = false := by simpa using same
        simp [skipped, ih, same]

theorem recordDevices_ok {nodes : List Node}
    {entries result : List (Int × String)}
    (distinct : (entries.map Prod.fst).Nodup)
    (success : recordDevices nodes entries = .ok result) :
    (result.map Prod.fst).Nodup ∧
      ∀ cluster_idx, cluster_idx ∈ result.map Prod.fst ↔
      cluster_idx ∈ entries.map Prod.fst ∨
        ∃ node ∈ nodes, getNodeCluster node = .ok cluster_idx := by
  induction nodes generalizing entries with
  | nil =>
      obtain rfl := Except.ok.inj success
      exact ⟨distinct, by simp⟩
  | cons node nodes ih =>
      obtain ⟨middle, first, rest⟩ := bind_ok success
      have step : (middle.map Prod.fst).Nodup ∧ ∀ cluster_idx,
          cluster_idx ∈ middle.map Prod.fst ↔
          cluster_idx ∈ entries.map Prod.fst ∨
            getNodeCluster node = .ok cluster_idx := by
        unfold recordDevice at first
        cases found : getNodeCluster node with
        | error error =>
            rw [found] at first
            obtain rfl := Except.ok.inj first
            exact ⟨distinct, by simp⟩
        | ok own =>
            rw [found] at first
            dsimp only at first
            cases atOwn : entries.lookup own with
            | none =>
                rw [atOwn] at first
                obtain rfl := Except.ok.inj first
                refine ⟨insertDevice_nodup distinct (lookup_eq_none.mp atOwn),
                  ?_⟩
                intro cluster_idx
                simp only [List.mem_map, mem_insertDevice, Except.ok.injEq]
                constructor
                · rintro ⟨entry, rfl | old, rfl⟩
                  · exact .inr rfl
                  · exact .inl ⟨entry, old, rfl⟩
                · rintro (⟨entry, old, rfl⟩ | rfl)
                  · exact ⟨entry, .inr old, rfl⟩
                  · exact ⟨_, .inl rfl, rfl⟩
            | some device =>
                rw [atOwn] at first
                dsimp only at first
                split at first
                case isTrue => simp at first
                case isFalse =>
                  obtain rfl := Except.ok.inj first
                  refine ⟨distinct, fun cluster_idx => ?_⟩
                  have known : own ∈ entries.map Prod.fst := by
                    by_contra unknown
                    rw [lookup_eq_none.mpr unknown] at atOwn
                    exact absurd atOwn (by simp)
                  constructor
                  · exact .inl
                  · rintro (old | same)
                    · exact old
                    · exact Except.ok.inj same ▸ known
      obtain ⟨result, keys⟩ := ih step.1 rest
      refine ⟨result, fun cluster_idx => ?_⟩
      rw [keys, step.2]
      simp only [List.mem_cons, exists_eq_or_imp]
      tauto

end Devices

section Copies

variable {order : graph.Enumeration} {done nodes : List Node}

theorem copyDef_congr {in_edges : List Edge} {cluster_idx : Int} {node : Node}
    (same : next.input_rename_map = enc.input_rename_map) :
    copyDef graph in_edges next cluster_idx node =
      copyDef graph in_edges enc cluster_idx node := by
  have rename : renameInput next cluster_idx = renameInput enc cluster_idx := by
    funext input
    simp [renameInput, same]
  simp only [copyDef, rename]

/-- The `GraphDef` of a cluster has its border and the copies of its nodes. -/
structure Copied (order : graph.Enumeration) (manager : ClusterManager)
    (done : List Node) (outs : Int → List (Nat × Int))
    (added : Int → List NodeDef) (start enc : Encapsulator) : Prop where
  maps : ∃ after, enc = { start with manager := after }
  appended : manager.Appended added enc.manager
  defs : ∀ c node_def, node_def ∈ added c ↔
    IsBorderDef graph outs start c node_def ∨
    ∃ node ∈ done, getNodeCluster node = .ok c ∧
      copyDef graph (order.in_edges node.id) start c node = .ok node_def
  inManager : ∀ node ∈ done, ∀ c, getNodeCluster node = .ok c →
    ∃ gdef, manager.getClusterGraph c = some gdef
  copies : ∀ node ∈ done, ∀ c, getNodeCluster node = .ok c → ∃ node_def,
    copyDef graph (order.in_edges node.id) start c node = .ok node_def

variable {start : Encapsulator}

theorem Copied.copyNode {node : Node}
    (copied : Copied order manager done outs added start enc)
    (success : copyNode order node enc = .ok next) :
    ∃ added, Copied order manager (node :: done) outs added start next := by
  obtain ⟨before, rfl⟩ := copied.maps
  unfold EncapsulateClusters.copyNode at success
  cases found : getNodeCluster node with
  | error error =>
      rw [found] at success
      obtain rfl := Except.ok.inj success
      refine ⟨added, ⟨before, rfl⟩, copied.appended, ?_, ?_, ?_⟩
      · intro c node_def
        simp [copied.defs, found]
      · simpa [found] using copied.inManager
      · simpa [found] using copied.copies
  | ok cluster_idx =>
      rw [found] at success
      obtain ⟨node_def, made, success⟩ := bind_ok success
      have sameDef : copyDef graph (order.in_edges node.id)
          { start with manager := before } cluster_idx node =
          copyDef graph (order.in_edges node.id) start cluster_idx node :=
        copyDef_congr rfl
      rw [sameDef] at made
      have there : ∃ gdef, manager.getClusterGraph cluster_idx = some gdef := by
        unfold Encapsulator.addNodeDef at success
        split at success
        case h_1 => simp at success
        case h_2 gdef atIdx =>
          rw [copied.appended] at atIdx
          obtain ⟨gdef, inManager, _⟩ := Option.map_eq_some_iff.mp atIdx
          exact ⟨gdef, inManager⟩
      obtain ⟨⟨after, rfl⟩, appended⟩ := addNodeDef_ok success copied.appended
      refine ⟨_, ⟨after, rfl⟩, appended, ?_, ?_, ?_⟩
      · intro c other
        rw [mem_pushBack, copied.defs]
        constructor
        · rintro ((border | ⟨copy, inDone, rest⟩) | ⟨rfl, rfl⟩)
          · exact .inl border
          · exact .inr ⟨copy, List.mem_cons_of_mem _ inDone, rest⟩
          · exact .inr ⟨node, by simp, found, made⟩
        · rintro (border | ⟨copy, inList, inCluster, rest⟩)
          · exact .inl (.inl border)
          · cases List.mem_cons.mp inList with
            | inl same =>
                subst same
                rw [found] at inCluster
                obtain rfl := Except.ok.inj inCluster
                rw [made] at rest
                exact .inr ⟨rfl, (Except.ok.inj rest).symm⟩
            | inr old => exact .inl (.inr ⟨copy, old, inCluster, rest⟩)
      · intro other inList c inCluster
        cases List.mem_cons.mp inList with
        | inl same =>
            rw [same, found] at inCluster
            exact Except.ok.inj inCluster ▸ there
        | inr old => exact copied.inManager other old c inCluster
      · intro other inList c inCluster
        cases List.mem_cons.mp inList with
        | inl same =>
            subst same
            rw [found] at inCluster
            obtain rfl := Except.ok.inj inCluster
            exact ⟨node_def, made⟩
        | inr old => exact copied.copies other old c inCluster

theorem Copied.copyNodes
    (copied : Copied order manager done outs added start enc)
    (success : copyNodes order nodes enc = .ok next) :
    ∃ all added, (∀ node, node ∈ all ↔ node ∈ nodes ∨ node ∈ done) ∧
      Copied order manager all outs added start next := by
  induction nodes generalizing done added enc with
  | nil =>
      obtain rfl := Except.ok.inj success
      exact ⟨done, added, by simp, copied⟩
  | cons node nodes ih =>
      obtain ⟨middle, first, success⟩ := bind_ok success
      obtain ⟨added, middleCopied⟩ := copied.copyNode first
      obtain ⟨all, added, members, result⟩ := ih middleCopied success
      refine ⟨all, added, ?_, result⟩
      intro other
      rw [members, List.mem_cons, List.mem_cons]
      tauto

end Copies

/-- What an analysis without an error has found. -/
structure Analysed (order : graph.Enumeration) (manager : ClusterManager)
    (outs : Int → List (Nat × Int)) (added : Int → List NodeDef)
    (enc : Encapsulator) : Prop where
  outLength : ∀ c, (enc.cluster_output_dt_map c).length = (outs c).length
  outMap : ∀ key c k, enc.output_remap_map key = some (c, k) ↔
    (outs c)[k]? = some key
  rename : ∀ c name slot new, enc.input_rename_map (c, name, slot) = some new ↔
    ∃ (k : Nat) (src : Nat), (enc.inputsOf c)[k]? = some (src, slot) ∧
      (graph.node src).name = name ∧ new = inputName k
  outSource : ∀ c key, key ∈ outs c → ∃ edge, Crosses graph edge ∧
    isClustered (graph.node edge.src) = true ∧
    clusterIdx (graph.node edge.src) = c ∧
    key = (edge.src, edge.src_output)
  inSource : ∀ c key, key ∈ enc.inputsOf c → ∃ edge, Crosses graph edge ∧
    isClustered (graph.node edge.dst) = true ∧
    clusterIdx (graph.node edge.dst) = c ∧
    key = (edge.src, edge.src_output)
  covered : ∀ edge, Crosses graph edge →
    (isClustered (graph.node edge.dst) = true →
      (edge.src, edge.src_output) ∈
        enc.inputsOf (clusterIdx (graph.node edge.dst))) ∧
    (isClustered (graph.node edge.src) = true →
      (edge.src, edge.src_output) ∈ outs (clusterIdx (graph.node edge.src)))
  appended : manager.Appended added enc.manager
  defs : ∀ c node_def, node_def ∈ added c ↔
    IsBorderDef graph outs enc c node_def ∨
    ∃ node ∈ graph.op_nodes, getNodeCluster node = .ok c ∧
      copyDef graph (order.in_edges node.id) enc c node = .ok node_def
  inManager : ∀ node ∈ graph.op_nodes, ∀ c, getNodeCluster node = .ok c →
    ∃ gdef, manager.getClusterGraph c = some gdef
  copies : ∀ node ∈ graph.op_nodes, ∀ c, getNodeCluster node = .ok c →
    ∃ node_def, copyDef graph (order.in_edges node.id) enc c node = .ok node_def
  devicesNodup : (enc.device_name_map.map Prod.fst).Nodup
  devices : ∀ c, c ∈ enc.device_name_map.map Prod.fst ↔
    ∃ node ∈ graph.op_nodes, getNodeCluster node = .ok c

/-- Nothing is added to a cluster that no node is in. -/
theorem Analysed.added_nil {order : graph.Enumeration} (wf : graph.WF)
    (analysed : Analysed order manager outs added enc) {c : Int}
    (unused : ∀ node ∈ graph.op_nodes, getNodeCluster node ≠ .ok c) :
    added c = [] := by
  have nobody : ∀ id, graph.HasNode id → (graph.node id).isOp = true →
      isClustered (graph.node id) = true → clusterIdx (graph.node id) ≠ c := by
    intro id idNode isOp clustered same
    apply unused _ (List.mem_filter.mpr ⟨(wf.node_mem idNode).1, isOp⟩)
    rw [getNodeCluster_of clustered, same]
  apply List.eq_nil_iff_forall_not_mem.mpr
  intro node_def inAdded
  cases (analysed.defs c node_def).mp inAdded with
  | inl border =>
      cases border with
      | inl argument =>
          obtain ⟨k, input, atK, _⟩ := argument
          have member : (input.1, input.2.1) ∈ enc.inputsOf c :=
            List.mem_map_of_mem (List.mem_of_getElem? atK)
          obtain ⟨edge, crosses, clustered, same, _⟩ :=
            analysed.inSource c _ member
          exact nobody edge.dst (wf.dst edge crosses.member)
            (wf.opEnds edge crosses.member crosses.data).2 clustered same
      | inr retval =>
          obtain ⟨k, output, _, atK, _⟩ := retval
          obtain ⟨edge, crosses, clustered, same, _⟩ :=
            analysed.outSource c _ (List.mem_of_getElem? atK)
          exact nobody edge.src (wf.src edge crosses.member)
            (wf.opEnds edge crosses.member crosses.data).1 clustered same
  | inr copy =>
      obtain ⟨node, member, inCluster, _⟩ := copy
      exact unused node member inCluster

theorem analysisPass_analysed {order : graph.Enumeration} (wf : graph.WF)
    (success : analysisPass order manager = .ok enc) :
    ∃ outs added, Analysed order manager outs added enc := by
  obtain ⟨device_name_map, recorded, success⟩ := bind_ok success
  obtain ⟨start, crossed, success⟩ := bind_ok success
  obtain ⟨devicesNodup, devices⟩ := recordDevices_ok (by simp) recorded
  obtain ⟨edges, outs, border, covers, _, remapped⟩ :=
    (remapped_init graph manager device_name_map).remapEdges wf
      (fun edge member => (order.mem_edges edge).mp member) crossed
  have begun : Copied order manager [] outs border start start := by
    refine ⟨⟨start.manager, rfl⟩, remapped.appended, ?_, by simp, by simp⟩
    intro c node_def
    simp [remapped.defs]
  obtain ⟨nodes, added, members, copied⟩ := begun.copyNodes success
  have inNodes : ∀ node, node ∈ nodes ↔ node ∈ graph.op_nodes := by
    simpa using members
  obtain ⟨after, rfl⟩ := copied.maps
  have sameDef : ∀ cluster_idx node, copyDef graph (order.in_edges node.id)
      { start with manager := after } cluster_idx node =
        copyDef graph (order.in_edges node.id) start cluster_idx node :=
    fun _ _ => copyDef_congr rfl
  refine ⟨outs, added, ?_⟩
  constructor
  case outLength => exact remapped.outLength
  case outMap => exact remapped.outMap
  case rename => exact remapped.rename
  case outSource => exact remapped.outSource
  case inSource => exact remapped.inSource
  case covered =>
    intro edge crosses
    exact remapped.covered edge
      (covers edge ((order.mem_edges edge).mpr crosses.member)) crosses
  case appended => exact copied.appended
  case defs =>
    intro c node_def
    rw [copied.defs]
    simp only [sameDef, inNodes]
    rfl
  case inManager => exact fun node member =>
    copied.inManager node ((inNodes node).mpr member)
  case copies =>
    intro node member
    simp only [sameDef]
    exact copied.copies node ((inNodes node).mpr member)
  case devicesNodup =>
    dsimp only
    rw [remapped.device]
    exact devicesNodup
  case devices =>
    intro c
    dsimp only
    rw [remapped.device, devices]
    simp

end NGraphBridge.EncapsulateClusters
