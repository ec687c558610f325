import NGraphBridge.EncapsulateClusters.Values

/-!
# Generated names

The names that the passes make up are counted, not asked for: inside a cluster
they are taken when a node of the cluster has one of them, outside when a node
that is left has the name of a new node.
-/

namespace NGraphBridge.EncapsulateClusters

open TF MarkForClustering AssignClusters

variable {graph : Graph} {manager : ClusterManager}
  {enc middle next : Encapsulator} {done more : List Node}

section Listing

def borderNames (enc : Encapsulator) (cluster_idx : Int) : List String :=
  (List.range (enc.cluster_input_map cluster_idx).length).map inputName ++
    (List.range (enc.cluster_output_dt_map cluster_idx).length).map outputName

def inCluster (cluster_idx : Int) (node : Node) : Bool :=
  isClustered node && clusterIdx node == cluster_idx

theorem inCluster_iff {cluster_idx : Int} {node : Node} :
    inCluster cluster_idx node = true ↔
    getNodeCluster node = .ok cluster_idx := by
  rw [inCluster, Bool.and_eq_true, beq_iff_eq]
  constructor
  · rintro ⟨clustered, rfl⟩
    exact getNodeCluster_of clustered
  · exact clusterIdx_of

/-- The border of a cluster and the nodes of it that were copied. -/
def clusterNames (enc : Encapsulator) (done : List Node) (cluster_idx : Int) :
    List String :=
  borderNames enc cluster_idx ++
    (done.filter (inCluster cluster_idx)).map Node.name

/-- A `GraphDef` that began empty has these names, in some order. -/
def NamesListed (manager : ClusterManager) (done : List Node)
    (enc : Encapsulator) : Prop :=
  ∀ c, manager.getClusterGraph c = some .empty → ∃ gdef,
    enc.manager.getClusterGraph c = some gdef ∧
      (gdef.node.map NodeDef.name).Perm (clusterNames enc done c)

theorem namesListed_init (manager : ClusterManager)
    (devices : List (Int × String)) :
    NamesListed manager [] (setDevices (.init manager) devices) := by
  intro c begun
  exact ⟨.empty, begun, .refl _⟩

theorem addNodeDef_manager {cluster_idx : Int} {node_def : NodeDef}
    (success : enc.addNodeDef cluster_idx node_def = .ok next) :
    next = { enc with
      manager := enc.manager.updateClusterGraph cluster_idx
        (·.add_node node_def) } := by
  unfold Encapsulator.addNodeDef at success
  split at success
  case h_1 => simp at success
  case h_2 => exact (Except.ok.inj success).symm

/-- One more node, and one more name of its cluster. -/
theorem NamesListed.addNodeDef {cluster_idx : Int} {node_def : NodeDef}
    (listed : NamesListed manager done enc)
    (success : enc.addNodeDef cluster_idx node_def = .ok middle)
    (same : next.manager = middle.manager)
    (grows :
      ∀ c, (pushBack (clusterNames enc done) cluster_idx node_def.name c).Perm
      (clusterNames next more c)) : NamesListed manager more next := by
  intro c begun
  obtain ⟨gdef, stored, names⟩ := listed c begun
  have grown := grows c
  rw [same, addNodeDef_manager success]
  dsimp only
  rw [ClusterManager.getClusterGraph_update, stored]
  by_cases here : c = cluster_idx
  · subst here
    refine ⟨gdef.add_node node_def, by simp, ?_⟩
    rw [pushBack, Function.update_self] at grown
    apply List.Perm.trans _ grown
    simpa [GraphDef.add_node] using names.append_right [node_def.name]
  · rw [pushBack, Function.update_of_ne here] at grown
    exact ⟨gdef, by simp [here], names.trans grown⟩

/-- One more name at the border of a cluster. -/
theorem NamesListed.addBorder {cluster_idx : Int} {node_def : NodeDef}
    (listed : NamesListed manager done enc)
    (success : enc.addNodeDef cluster_idx node_def = .ok middle)
    (same : next.manager = middle.manager)
    (grown : (borderNames enc cluster_idx ++ [node_def.name]).Perm
      (borderNames next cluster_idx))
    (others : ∀ c, c ≠ cluster_idx → borderNames next c = borderNames enc c) :
    NamesListed manager done next := by
  refine listed.addNodeDef success same fun c => ?_
  by_cases here : c = cluster_idx
  · subst here
    have moved := grown.append_right ((done.filter (inCluster c)).map Node.name)
    rw [pushBack, Function.update_self, clusterNames, clusterNames]
    apply List.Perm.trans _ moved
    rw [List.append_assoc, List.append_assoc]
    exact List.perm_append_comm.append_left _
  · rw [pushBack, Function.update_of_ne here, clusterNames, clusterNames,
      others c here]

theorem NamesListed.addRetval {src : Node} {src_output : Int} {dt : DataType}
    (listed : NamesListed manager done enc)
    (success : addRetval src src_output dt enc = .ok next) :
    NamesListed manager done next := by
  unfold EncapsulateClusters.addRetval at success
  split at success
  case isTrue =>
    obtain rfl := Except.ok.inj success
    exact listed
  case isFalse =>
    obtain ⟨middle, defAdded, success⟩ := bind_ok success
    obtain rfl := Except.ok.inj success
    refine listed.addBorder defAdded rfl ?_ ?_
    · rw [addNodeDef_manager defAdded]
      simp [borderNames, pushBack, retvalDef, List.range_succ]
    · intro c other
      rw [addNodeDef_manager defAdded]
      simp [borderNames, pushBack, other]

theorem NamesListed.addArg {src dst : Node} {src_output : Int} {dt : DataType}
    (listed : NamesListed manager done enc)
    (success : addArg src src_output dst dt enc = .ok next) :
    NamesListed manager done next := by
  unfold EncapsulateClusters.addArg at success
  split at success
  case isTrue =>
    obtain rfl := Except.ok.inj success
    exact listed
  case isFalse =>
    obtain ⟨middle, defAdded, success⟩ := bind_ok success
    obtain rfl := Except.ok.inj success
    refine listed.addBorder defAdded rfl ?_ ?_
    · rw [addNodeDef_manager defAdded]
      simp only [borderNames, pushBack, argDef, Function.update_self,
        List.length_append, List.length_singleton, List.range_succ,
        List.map_append, List.map_singleton]
      rw [List.append_assoc, List.append_assoc]
      exact List.perm_append_comm.append_left _
    · intro c other
      rw [addNodeDef_manager defAdded]
      simp [borderNames, pushBack, other]

theorem NamesListed.remapEdges {edges : List Edge}
    (listed : NamesListed manager done enc)
    (success : remapEdges graph edges enc = .ok next) :
    NamesListed manager done next := by
  induction edges generalizing enc with
  | nil =>
      obtain rfl := Except.ok.inj success
      exact listed
  | cons edge edges ih =>
      obtain ⟨middle, first, success⟩ := bind_ok success
      apply ih _ success
      unfold remapEdge at first
      dsimp only at first
      split_ifs at first
      case pos =>
        obtain rfl := Except.ok.inj first
        exact listed
      case pos =>
        obtain rfl := Except.ok.inj first
        exact listed
      case pos =>
        obtain rfl := Except.ok.inj first
        exact listed
      case neg =>
        obtain ⟨offered, retval, arg⟩ := bind_ok first
        exact (listed.addRetval retval).addArg arg

theorem copyDef_name {in_edges : List Edge} {cluster_idx : Int} {node : Node}
    {node_def : NodeDef}
    (success : copyDef graph in_edges enc cluster_idx node = .ok node_def) :
    node_def.name = node.name := by
  obtain ⟨_, _, success⟩ := bind_ok success
  rw [← Except.ok.inj success]

theorem NamesListed.copyNodes {order : graph.Enumeration} {nodes : List Node}
    (listed : NamesListed manager done enc)
    (success : copyNodes order nodes enc = .ok next) :
    NamesListed manager (done ++ nodes) next := by
  induction nodes generalizing done enc with
  | nil =>
      obtain rfl := Except.ok.inj success
      rwa [List.append_nil]
  | cons node nodes ih =>
      obtain ⟨middle, first, success⟩ := bind_ok success
      rw [List.append_cons]
      apply ih _ success
      unfold copyNode at first
      split at first
      case h_1 error outside =>
        obtain rfl := Except.ok.inj first
        intro c begun
        have notIn : inCluster c node = false := by
          rw [← Bool.not_eq_true, inCluster_iff, outside]
          simp
        simpa [clusterNames, List.filter_append, notIn] using listed c begun
      case h_2 cluster_idx inside =>
        obtain ⟨node_def, copied, defAdded⟩ := bind_ok first
        refine listed.addNodeDef defAdded rfl fun c => ?_
        rw [addNodeDef_manager defAdded, copyDef_name copied]
        by_cases here : c = cluster_idx
        · subst here
          simp [pushBack, clusterNames, borderNames, List.filter_append,
            inCluster_iff.mpr inside]
        · have notIn : inCluster c node = false := by
            rw [← Bool.not_eq_true, inCluster_iff, inside, Except.ok.injEq]
            exact Ne.symm here
          simp [pushBack, here, clusterNames, borderNames,
            List.filter_append, notIn]

theorem analysisPass_listed {order : graph.Enumeration}
    (success : analysisPass order manager = .ok enc) :
    NamesListed manager graph.op_nodes enc := by
  obtain ⟨device_name_map, _, success⟩ := bind_ok success
  obtain ⟨start, crossed, success⟩ := bind_ok success
  exact ((namesListed_init manager device_name_map).remapEdges
      crossed).copyNodes success

end Listing

section Border

variable {order : graph.Enumeration} {outs : Int → List (Nat × Int)}
  {added : Int → List NodeDef}

/-- A data edge between different clusters, or between a cluster and the
rest. -/
def crossing (graph : Graph) (edge : Edge) : Bool :=
  !edge.isControlEdge && clusterIdx (graph.node edge.dst) !=
    clusterIdx (graph.node edge.src)

/-- The tensors that a cluster reads from outside, each once. -/
def tensorsInto (graph : Graph) (cluster_idx : Int) : List (Nat × Int) :=
  ((graph.edges.filter fun edge =>
      crossing graph edge && inCluster cluster_idx (graph.node edge.dst)).map
    fun edge => (edge.src, edge.src_output)).dedup

/-- The tensors of a cluster that are read outside, each once. -/
def tensorsOutOf (graph : Graph) (cluster_idx : Int) : List (Nat × Int) :=
  ((graph.edges.filter fun edge =>
      crossing graph edge && inCluster cluster_idx (graph.node edge.src)).map
    fun edge => (edge.src, edge.src_output)).dedup

theorem crosses_iff {edge : Edge} :
    Crosses graph edge ↔ edge ∈ graph.edges ∧ crossing graph edge = true := by
  rw [crossing, Bool.and_eq_true, Bool.not_eq_true', bne_iff_ne]
  constructor
  · intro crosses
    exact ⟨crosses.member, crosses.data, crosses.apart⟩
  · intro both
    exact ⟨both.1, both.2.1, both.2.2⟩

theorem mem_tensorsInto {c : Int} {tensor : Nat × Int} :
    tensor ∈ tensorsInto graph c ↔
    ∃ edge, Crosses graph edge ∧ inCluster c (graph.node edge.dst) = true ∧
      tensor = (edge.src, edge.src_output) := by
  simp only [tensorsInto, List.mem_dedup, List.mem_map, List.mem_filter,
    Bool.and_eq_true, crosses_iff]
  grind

theorem mem_tensorsOutOf {c : Int} {tensor : Nat × Int} :
    tensor ∈ tensorsOutOf graph c ↔
    ∃ edge, Crosses graph edge ∧ inCluster c (graph.node edge.src) = true ∧
      tensor = (edge.src, edge.src_output) := by
  simp only [tensorsOutOf, List.mem_dedup, List.mem_map, List.mem_filter,
    Bool.and_eq_true, crosses_iff]
  grind

theorem nodup_of_position {α : Type} {list : List α}
    (same : ∀ {k l : Nat} {x : α}, list[k]? = some x →
      list[l]? = some x → k = l) :
    list.Nodup := by
  rw [List.nodup_iff_getElem?_ne_getElem?]
  intro k l below inside equal
  have atL := List.getElem?_eq_getElem inside
  have equalPositions := same (equal.trans atL) atL
  omega

theorem Analysed.inputsOf_nodup
    (analysed : Analysed order manager outs added enc) (c : Int) :
    (enc.inputsOf c).Nodup := by
  apply nodup_of_position
  intro k l tensor atK atL
  have atFirst :=
    (analysed.rename c (graph.node tensor.1).name tensor.2 (inputName k)).mpr
      ⟨k, tensor.1, atK, rfl, rfl⟩
  have atSecond :=
    (analysed.rename c (graph.node tensor.1).name tensor.2 (inputName l)).mpr
      ⟨l, tensor.1, atL, rfl, rfl⟩
  rw [atFirst] at atSecond
  exact inputName_injective (Option.some.inj atSecond)

theorem Analysed.outs_nodup (analysed : Analysed order manager outs added enc)
    (c : Int) :
    (outs c).Nodup := by
  apply nodup_of_position
  intro k l tensor atK atL
  have atFirst := (analysed.outMap tensor c k).mpr atK
  have atSecond := (analysed.outMap tensor c l).mpr atL
  rw [atFirst] at atSecond
  exact congrArg Prod.snd (Option.some.inj atSecond)

theorem Analysed.mem_inputsOf (analysed : Analysed order manager outs added enc)
    {c : Int} {tensor : Nat × Int} : tensor ∈ enc.inputsOf c ↔
    tensor ∈ tensorsInto graph c := by
  rw [mem_tensorsInto]
  constructor
  · intro isInput
    obtain ⟨edge, crosses, clustered, rfl, same⟩ :=
      analysed.inSource c tensor isInput
    exact ⟨edge, crosses, inCluster_iff.mpr (getNodeCluster_of clustered), same⟩
  · rintro ⟨edge, crosses, inside, rfl⟩
    obtain ⟨clustered, rfl⟩ := clusterIdx_of (inCluster_iff.mp inside)
    exact (analysed.covered edge crosses).1 clustered

theorem Analysed.mem_outs (analysed : Analysed order manager outs added enc)
    {c : Int} {tensor : Nat × Int} : tensor ∈ outs c ↔
    tensor ∈ tensorsOutOf graph c := by
  rw [mem_tensorsOutOf]
  constructor
  · intro isOutput
    obtain ⟨edge, crosses, clustered, rfl, same⟩ :=
      analysed.outSource c tensor isOutput
    exact ⟨edge, crosses, inCluster_iff.mpr (getNodeCluster_of clustered), same⟩
  · rintro ⟨edge, crosses, inside, rfl⟩
    obtain ⟨clustered, rfl⟩ := clusterIdx_of (inCluster_iff.mp inside)
    exact (analysed.covered edge crosses).2 clustered

theorem Analysed.inputs_length
    (analysed : Analysed order manager outs added enc) (c : Int) :
    (enc.cluster_input_map c).length = (tensorsInto graph c).length := by
  have same : (enc.inputsOf c).Perm (tensorsInto graph c) :=
    (List.perm_ext_iff_of_nodup (analysed.inputsOf_nodup c)
        (List.nodup_dedup _)).mpr fun _ => analysed.mem_inputsOf
  rw [← same.length_eq, Encapsulator.inputsOf, List.length_map]

theorem Analysed.outs_length (analysed : Analysed order manager outs added enc)
    (c : Int) :
    (enc.cluster_output_dt_map c).length = (tensorsOutOf graph c).length := by
  have same : (outs c).Perm (tensorsOutOf graph c) :=
    (List.perm_ext_iff_of_nodup (analysed.outs_nodup c)
        (List.nodup_dedup _)).mpr fun _ => analysed.mem_outs
  rw [analysed.outLength, same.length_eq]

end Border

section Taken

theorem inputName_ne_outputName (k l : Nat) : inputName k ≠ outputName l := by
  intro same
  have texts := congrArg (fun text => text.toList.take 8) same
  simp only [inputName, outputName, String.toList_append] at texts
  rw [List.take_append_of_le_length (by decide),
    List.take_append_of_le_length (by decide)] at texts
  exact absurd texts (by decide)

/-- No node of a cluster has the name of one of its arguments or results. -/
structure NamesFree (graph : Graph) (cluster_idx : Int) : Prop where
  inputs : ∀ node ∈ graph.op_nodes, getNodeCluster node = .ok cluster_idx →
    ∀ k < (tensorsInto graph cluster_idx).length, node.name ≠ inputName k
  outputs : ∀ node ∈ graph.op_nodes, getNodeCluster node = .ok cluster_idx →
    ∀ k < (tensorsOutOf graph cluster_idx).length, node.name ≠ outputName k

theorem borderNames_nodup (enc : Encapsulator) (c : Int) :
    (borderNames enc c).Nodup := by
  rw [borderNames, List.nodup_append]
  refine ⟨List.nodup_range.map fun _ _ => inputName_injective,
    List.nodup_range.map fun _ _ => outputName_injective, ?_⟩
  intro left leftIn right rightIn
  obtain ⟨k, _, rfl⟩ := List.mem_map.mp leftIn
  obtain ⟨l, _, rfl⟩ := List.mem_map.mp rightIn
  exact inputName_ne_outputName k l

variable {order : graph.Enumeration} {outs : Int → List (Nat × Int)}
  {added : Int → List NodeDef}

theorem Analysed.mem_borderNames
    (analysed : Analysed order manager outs added enc) {c : Int}
    {name : String} : name ∈ borderNames enc c ↔
      (∃ k < (tensorsInto graph c).length, name = inputName k) ∨
        ∃ k < (tensorsOutOf graph c).length, name = outputName k := by
  rw [borderNames, analysed.inputs_length, analysed.outs_length]
  simp only [List.mem_append, List.mem_map, List.mem_range, eq_comm]

theorem Analysed.clusterNames_nodup (wf : graph.WF)
    (analysed : Analysed order manager outs added enc) (c : Int) :
    (clusterNames enc graph.op_nodes c).Nodup ↔ NamesFree graph c := by
  have copies :
      ((graph.op_nodes.filter (inCluster c)).map Node.name).Nodup := by
    apply List.Nodup.sublist _ wf.names
    exact (List.filter_sublist.trans List.filter_sublist).map Node.name
  rw [clusterNames, List.nodup_append]
  constructor
  · rintro ⟨_, _, apart⟩
    constructor
    · intro node member inside k below same
      apply apart (inputName k)
        (analysed.mem_borderNames.mpr (.inl ⟨k, below, rfl⟩)) node.name _
      · exact same.symm
      · exact List.mem_map_of_mem
          (List.mem_filter.mpr ⟨member, inCluster_iff.mpr inside⟩)
    · intro node member inside k below same
      apply apart (outputName k)
        (analysed.mem_borderNames.mpr (.inr ⟨k, below, rfl⟩)) node.name _
      · exact same.symm
      · exact List.mem_map_of_mem
          (List.mem_filter.mpr ⟨member, inCluster_iff.mpr inside⟩)
  · intro free
    refine ⟨borderNames_nodup enc c, copies, ?_⟩
    intro border isBorder name isCopy
    obtain ⟨node, inFilter, rfl⟩ := List.mem_map.mp isCopy
    obtain ⟨member, inside⟩ := List.mem_filter.mp inFilter
    cases analysed.mem_borderNames.mp isBorder with
    | inl argument =>
        obtain ⟨k, below, rfl⟩ := argument
        exact (free.inputs node member (inCluster_iff.mp inside) k below).symm
    | inr result =>
        obtain ⟨k, below, rfl⟩ := result
        exact (free.outputs node member (inCluster_iff.mp inside) k below).symm

end Taken

section Links

variable {order : graph.Enumeration} {outs : Int → List (Nat × Int)}
  {added : Int → List NodeDef}

/-- The node of a `GraphDef` that is meant by a tensor that a cluster reads: the
copy of its node, or the argument that was made for it. -/
def StandsFor (order : graph.Enumeration) (enc : Encapsulator)
    (cluster_idx : Int) (tensor : Nat × Int) (node_def : NodeDef)
    (slot : Int) : Prop :=
  (getNodeCluster (graph.node tensor.1) = .ok cluster_idx ∧ slot = tensor.2 ∧
    copyDef graph (order.in_edges tensor.1) enc cluster_idx
      (graph.node tensor.1) =
      .ok node_def) ∨
  (getNodeCluster (graph.node tensor.1) ≠ .ok cluster_idx ∧ slot = 0 ∧
    ∃ (k : Nat) (dt : DataType),
      (enc.cluster_input_map cluster_idx)[k]? = some (tensor.1, tensor.2, dt) ∧
        node_def = argDef k k (graph.node tensor.1) dt)

/-- A text names one node of a `GraphDef`, and that is the one meant. -/
def Refers (order : graph.Enumeration) (enc : Encapsulator) (cluster_idx : Int)
    (gdef : GraphDef) (text : String) (tensor : Nat × Int) : Prop :=
  ∃ node_def slot, StandsFor order enc cluster_idx tensor node_def slot ∧
    parseTensorName text = (node_def.name, slot) ∧
    gdef.node.filter (fun other => other.name == node_def.name) = [node_def]

/-- The inputs of a copy are those of its node: the data edges by slot, then
control edges of the cluster. -/
structure CopyLinked (order : graph.Enumeration) (enc : Encapsulator)
    (cluster_idx : Int) (gdef : GraphDef) (node : Node) (node_def : NodeDef) :
    Prop where
  copied : copyDef graph (order.in_edges node.id) enc cluster_idx node =
    .ok node_def
  data : ∀ edge ∈ graph.edges, edge.dst = node.id → edge.isControlEdge = false →
    ∃ text, node_def.input[edge.dst_input.toNat]? = some text ∧
      Refers order enc cluster_idx gdef text (edge.src, edge.src_output)
  control : ∀ position ≥ node.num_inputs, ∀ text,
    node_def.input[position]? = some text →
    ∃ edge ∈ graph.edges, edge.dst = node.id ∧ edge.isControlEdge = true ∧
      Refers order enc cluster_idx gdef text (edge.src, edge.src_output)

/-- Every node of a `GraphDef` is an argument, a result or a copy, and its
inputs lead where the edges of the graph did. -/
def Linked (order : graph.Enumeration) (enc : Encapsulator) (cluster_idx : Int)
    (gdef : GraphDef) : Prop :=
  ∀ node_def ∈ gdef.node, node_def.input = [] ∨
    (∃ tensor ∈ tensorsOutOf graph cluster_idx, ∃ text,
      node_def.input = [text] ∧
      Refers order enc cluster_idx gdef text tensor) ∨
    ∃ node ∈ graph.op_nodes, getNodeCluster node = .ok cluster_idx ∧
      CopyLinked order enc cluster_idx gdef node node_def

theorem filter_name {node_defs : List NodeDef}
    (distinct : (node_defs.map NodeDef.name).Nodup) {node_def : NodeDef}
    (member : node_def ∈ node_defs) :
    node_defs.filter (fun other => other.name == node_def.name) =
      [node_def] := by
  induction node_defs with
  | nil => simp at member
  | cons head node_defs ih =>
      rw [List.map_cons, List.nodup_cons] at distinct
      cases List.mem_cons.mp member with
      | inl same =>
          subst same
          have noOther :
              node_defs.filter (fun other => other.name == node_def.name) =
                [] := by
            rw [List.filter_eq_nil_iff]
            intro other inRest sameName
            rw [beq_iff_eq] at sameName
            exact distinct.1 (sameName ▸ List.mem_map_of_mem inRest)
          rw [List.filter_cons_of_pos (by simp), noOther]
      | inr later =>
          have different : ¬ (head.name == node_def.name) = true := by
            rw [beq_iff_eq]
            intro same
            exact distinct.1 (same ▸ List.mem_map_of_mem later)
          rw [List.filter_cons, if_neg different, ih distinct.2 later]

/-- A slot is filled from an edge of the node, and the other edges are control
edges of the cluster. -/
theorem collectInputs_only {cluster_idx : Int} {in_edges : List Edge}
    {slots filled : Nat → Option Edge} {controls all : List Edge}
    (success : collectInputs graph cluster_idx in_edges slots controls =
      .ok (filled, all)) :
    (∀ position edge, filled position = some edge → slots position = some edge ∨
      (edge ∈ in_edges ∧ edge.isControlEdge = false)) ∧
    ∀ edge ∈ all, edge ∈ controls ∨
      (edge ∈ in_edges ∧ edge.isControlEdge = true ∧
        inCluster cluster_idx (graph.node edge.src) = true) := by
  induction in_edges generalizing slots controls with
  | nil =>
      obtain ⟨rfl, rfl⟩ := Prod.mk.inj (Except.ok.inj success)
      exact ⟨fun _ _ found => .inl found, fun _ member => .inl member⟩
  | cons head in_edges ih =>
      unfold collectInputs at success
      split at success
      case isTrue control =>
        split at success
        case isTrue inside =>
          obtain ⟨atSlots, atControls⟩ := ih success
          refine ⟨fun position edge found => ?_, fun edge member => ?_⟩
          · exact (atSlots position edge found).imp_right
              (And.imp_left (List.mem_cons_of_mem head))
          · cases atControls edge member with
            | inr later =>
                exact .inr ⟨List.mem_cons_of_mem head later.1, later.2⟩
            | inl early =>
                cases List.mem_append.mp early with
                | inl before => exact .inl before
                | inr isHead =>
                    obtain rfl := List.mem_singleton.mp isHead
                    exact .inr ⟨by simp, control, inside⟩
        case isFalse =>
          obtain ⟨atSlots, atControls⟩ := ih success
          exact ⟨fun position edge found =>
            (atSlots position edge found).imp_right
              (And.imp_left (List.mem_cons_of_mem head)),
            fun edge member => (atControls edge member).imp_right
              (And.imp_left (List.mem_cons_of_mem head))⟩
      case isFalse data =>
        split at success
        case isTrue => simp at success
        case isFalse free =>
          obtain ⟨atSlots, atControls⟩ := ih success
          refine ⟨fun position edge found => ?_, fun edge member =>
            (atControls edge member).imp_right
              (And.imp_left (List.mem_cons_of_mem head))⟩
          cases atSlots position edge found with
          | inr later => exact .inr ⟨List.mem_cons_of_mem head later.1, later.2⟩
          | inl early =>
              by_cases here : position = head.dst_input.toNat
              · rw [here, Function.update_self, Option.some.injEq] at early
                exact .inr ⟨by simp [early], by simpa [early] using data⟩
              · rw [Function.update_of_ne here] at early
                exact .inl early

/-- A list of parts of one entry each, and more behind it. -/
theorem getElem?_flatMap_range {α : Type} {part : Nat → List α} {n : Nat}
    {rest : List α} (single : ∀ k < n, ∃ x, part k = [x]) :
    (∀ k < n, ((List.range n).flatMap part ++ rest)[k]? = (part k)[0]?) ∧
      ∀ k ≥ n, ((List.range n).flatMap part ++ rest)[k]? = rest[k - n]? := by
  induction n generalizing rest with
  | zero => simp
  | succ n ih =>
      obtain ⟨x, last⟩ := single n (by omega)
      obtain ⟨inside, behind⟩ :=
        @ih (part n ++ rest) fun k below => single k (by omega)
      rw [List.range_succ, List.flatMap_append, List.flatMap_singleton,
        List.append_assoc]
      constructor
      · intro k below
        by_cases atLast : k = n
        · subst atLast
          rw [behind k (by omega), last]
          simp
        · exact inside k (by omega)
      · intro k above
        rw [behind k (by omega), last, List.singleton_append]
        obtain ⟨more, rfl⟩ : ∃ more, k = n + 1 + more := ⟨k - (n + 1), by omega⟩
        rw [show n + 1 + more - n = more + 1 by omega,
          show n + 1 + more - (n + 1) = more by omega, List.getElem?_cons_succ]

theorem edgeInput_op {edge : Edge} (srcOp : (graph.node edge.src).isOp = true) :
    edgeInput graph edge =
      [addInput (graph.node edge.src).name edge.src_output] := by
  simp [edgeInput, srcOp]

section Copy

variable {cluster_idx : Int} {node : Node} {node_def : NodeDef}

/-- The texts of a copy, by position. -/
theorem copyDef_texts (wf : graph.WF)
    (copied : copyDef graph (order.in_edges node.id) enc cluster_idx node =
      .ok node_def) :
    (∀ edge ∈ graph.edges, edge.dst = node.id → edge.isControlEdge = false →
      edge.dst_input.toNat < node.num_inputs →
      node_def.input[edge.dst_input.toNat]? = some (renameInput enc cluster_idx
        (addInput (graph.node edge.src).name edge.src_output))) ∧
    ∀ position ≥ node.num_inputs, ∀ text,
      node_def.input[position]? = some text →
      ∃ edge ∈ graph.edges, edge.dst = node.id ∧ edge.isControlEdge = true ∧
        inCluster cluster_idx (graph.node edge.src) = true ∧
        (graph.node edge.src).isOp = true ∧
        text = renameInput enc cluster_idx
          (addInput (graph.node edge.src).name edge.src_output) := by
  obtain ⟨⟨slots, controls⟩, collected, success⟩ := bind_ok copied
  obtain rfl := Except.ok.inj success
  obtain ⟨covered, _, _⟩ := collectInputs_ok collected
  obtain ⟨fromEdge, fromControl⟩ := collectInputs_only collected
  have single : ∀ k < node.num_inputs, ∃ text, slotInput graph node slots k =
      [text] := by
    intro k _
    unfold slotInput
    split
    case h_1 => exact ⟨_, rfl⟩
    case h_2 edge found =>
      cases fromEdge k edge found with
      | inl nothing => simp at nothing
      | inr inEdges =>
          have inGraph := ((order.mem_in_edges node.id edge).mp inEdges.1).1
          exact ⟨_, edgeInput_op (wf.opEnds edge inGraph inEdges.2).1⟩
  obtain ⟨inside, behind⟩ :=
    @getElem?_flatMap_range _ _ _ (controls.flatMap (edgeInput graph)) single
  dsimp only
  constructor
  · intro edge inGraph atDst data below
    have filled :=
      covered edge ((order.mem_in_edges node.id edge).mpr ⟨inGraph, atDst⟩) data
    rw [List.getElem?_map, inside _ below, slotInput, filled]
    dsimp only
    rw [edgeInput_op (wf.opEnds edge inGraph data).1]
    rfl
  · intro position above text found
    rw [List.getElem?_map, behind position above,
      Option.map_eq_some_iff] at found
    obtain ⟨input, atControls, rfl⟩ := found
    obtain ⟨edge, inControls, fromThis⟩ :=
      List.mem_flatMap.mp (List.mem_of_getElem? atControls)
    cases fromControl edge inControls with
    | inl nothing => simp at nothing
    | inr control =>
        obtain ⟨inEdges, isControl, inCluster⟩ := control
        obtain ⟨inGraph, atDst⟩ := (order.mem_in_edges node.id edge).mp inEdges
        cases isOp : (graph.node edge.src).isOp with
        | false => simp [edgeInput, isOp] at fromThis
        | true =>
            rw [edgeInput_op isOp, List.mem_singleton] at fromThis
            exact ⟨edge, inGraph, atDst, isControl, inCluster, isOp,
              by rw [fromThis]⟩

end Copy

section Whole

variable {gdef : GraphDef} {c : Int}

theorem refers_of (distinct : (gdef.node.map NodeDef.name).Nodup)
    {text : String} {tensor : Nat × Int} {node_def : NodeDef} {slot : Int}
    (member : node_def ∈ gdef.node)
    (stands : StandsFor order enc c tensor node_def slot)
    (parsed : parseTensorName text = (node_def.name, slot)) :
    Refers order enc c gdef text tensor :=
  ⟨node_def, slot, stands, parsed, filter_name distinct member⟩

theorem Analysed.standsFor_copy
    (analysed : Analysed order manager outs added enc) {src : Nat}
    (srcOp : graph.node src ∈ graph.op_nodes)
    (inside : getNodeCluster (graph.node src) = .ok c) (slot : Int) :
    ∃ node_def ∈ added c, node_def.name = (graph.node src).name ∧
      StandsFor order enc c (src, slot) node_def slot := by
  obtain ⟨node_def, copied⟩ := analysed.copies _ srcOp c inside
  refine ⟨node_def,
    (analysed.defs c node_def).mpr (.inr ⟨_, srcOp, inside, copied⟩),
    copyDef_name copied, .inl ⟨inside, rfl, ?_⟩⟩
  rwa [Graph.node_id] at copied

/-- What a clustered node reads is meant by a copy or by an argument. -/
theorem Analysed.standsFor_read (wf : graph.WF)
    (analysed : Analysed order manager outs added enc) {edge : Edge}
    (member : edge ∈ graph.edges) (data : edge.isControlEdge = false)
    (inside : getNodeCluster (graph.node edge.dst) = .ok c) :
    ∃ node_def ∈ added c, ∃ slot,
      StandsFor order enc c (edge.src, edge.src_output) node_def slot ∧
      EncapsulateClusters.localTensor graph enc c (edge.src, edge.src_output) =
        (node_def.name, slot) := by
  obtain ⟨srcOp, dstOp⟩ := wf.opEnds edge member data
  have srcMember : graph.node edge.src ∈ graph.op_nodes :=
    List.mem_filter.mpr ⟨(wf.node_mem (wf.src edge member)).1, srcOp⟩
  have dstMember : graph.node edge.dst ∈ graph.op_nodes :=
    List.mem_filter.mpr ⟨(wf.node_mem (wf.dst edge member)).1, dstOp⟩
  obtain ⟨clustered, atC⟩ := clusterIdx_of inside
  cases analysed.localTensor wf member data clustered atC with
  | inl own =>
      obtain ⟨together, called⟩ := own
      have srcInside := analysed.clustered_of_idx dstMember inside together
      obtain ⟨node_def, inDefs, name, stands⟩ :=
        analysed.standsFor_copy srcMember srcInside edge.src_output
      exact ⟨node_def, inDefs, _, stands, by rw [called, name]⟩
  | inr border =>
      obtain ⟨k, atK, called⟩ := border
      have outside : getNodeCluster (graph.node edge.src) ≠ .ok c := by
        intro srcInside
        obtain ⟨other, crosses, _, atDst, same⟩ :=
          analysed.inSource c _ (List.mem_of_getElem? atK)
        have apart := crosses.apart
        rw [atDst, ← (Prod.mk.inj same).1, (clusterIdx_of srcInside).2] at apart
        exact apart rfl
      rw [Encapsulator.inputsOf, List.getElem?_map,
        Option.map_eq_some_iff] at atK
      obtain ⟨⟨src, slot, dt⟩, atK, same⟩ := atK
      obtain ⟨rfl, rfl⟩ := Prod.mk.inj same
      have inDefs := (analysed.defs c _).mpr (.inl (.inl ⟨k, _, atK, rfl⟩))
      exact ⟨_, inDefs, 0, .inr ⟨outside, rfl, k, dt, atK, rfl⟩, called⟩

/-- With distinct names every text leads where the graph's edge did. -/
theorem Analysed.linked (wf : graph.WF)
    (legal : ∀ node ∈ graph.nodes, LegalName node.name)
    (analysed : Analysed order manager outs added enc)
    (distinct : ((added c).map NodeDef.name).Nodup) :
    Linked order enc c ⟨added c⟩ := by
  intro node_def member
  cases (analysed.defs c node_def).mp member with
  | inl border =>
      cases border with
      | inl argument =>
          obtain ⟨k, input, _, rfl⟩ := argument
          exact .inl rfl
      | inr result =>
          obtain ⟨k, output, dt, atK, _, rfl⟩ := result
          have isOutput := List.mem_of_getElem? atK
          refine .inr (.inl ⟨output, analysed.mem_outs.mp isOutput, _, rfl, ?_⟩)
          obtain ⟨edge, crosses, clustered, rfl, rfl⟩ :=
            analysed.outSource c output isOutput
          obtain ⟨srcOp, _⟩ := wf.opEnds edge crosses.member crosses.data
          have srcIn := (wf.node_mem (wf.src edge crosses.member)).1
          obtain ⟨copy, inDefs, name, stands⟩ := analysed.standsFor_copy
            (List.mem_filter.mpr ⟨srcIn, srcOp⟩) (getNodeCluster_of clustered)
            edge.src_output
          apply refers_of distinct inDefs stands
          rw [name]
          exact parse_retval (legal _ srcIn)
            (wf.slots edge crosses.member crosses.data).1.1
  | inr copy =>
      obtain ⟨node, nodeOp, inside, copied⟩ := copy
      refine .inr (.inr ⟨node, nodeOp, inside, ?_⟩)
      have nodeSelf := wf.node_eq (List.mem_filter.mp nodeOp).1
      obtain ⟨dataTexts, controlTexts⟩ := copyDef_texts wf copied
      constructor
      case copied => exact copied
      case data =>
        intro edge inGraph atDst data
        have slots := wf.slots edge inGraph data
        rw [atDst, nodeSelf] at slots
        refine ⟨_, dataTexts edge inGraph atDst data (by omega), ?_⟩
        obtain ⟨meant, inDefs, slot, stands, called⟩ :=
          analysed.standsFor_read wf inGraph data
            (by rw [atDst, nodeSelf, inside])
        apply refers_of distinct inDefs stands
        have srcIn := (wf.node_mem (wf.src edge inGraph)).1
        rw [parse_renameInput analysed (wf.node_eq srcIn)
          (legal _ srcIn) slots.1.1, Graph.node_id, called]
      case control =>
        intro position above text found
        obtain ⟨edge, inGraph, atDst, isControl, srcInside, srcOp, rfl⟩ :=
          controlTexts position above text found
        refine ⟨edge, inGraph, atDst, isControl, ?_⟩
        have srcIn := (wf.node_mem (wf.src edge inGraph)).1
        obtain ⟨meant, inDefs, name, stands⟩ := analysed.standsFor_copy
          (List.mem_filter.mpr ⟨srcIn, srcOp⟩) (inCluster_iff.mp srcInside)
          edge.src_output
        apply refers_of distinct inDefs stands
        have atSlot : edge.src_output = kControlSlot := by
          simpa [Edge.isControlEdge] using isControl
        rw [atSlot, parse_renameInput_control analysed (legal _ srcIn), name]

end Whole

end Links

section NewNames

variable {library : Library} {graph_id : Int}
  {device_config : List (String × String)} {result : Rewritten}

def clusterName (cluster_idx : Int) : String :=
  "ngraph_cluster_" ++ toString cluster_idx

/-- No node that is left has the name of a new node. -/
def NewNamesFree (graph : Graph) : Prop :=
  ∀ node ∈ graph.nodes, (node.isOp = true → isClustered node = false) →
    ∀ other ∈ graph.op_nodes, ∀ c, getNodeCluster other = .ok c →
    node.name ≠ clusterName c

theorem IsEncapsulate.name {c : Int} {node : Node}
    (encapsulate : IsEncapsulate library enc graph_id device_config c node) :
    node.name = clusterName c := by
  obtain ⟨_, _, _, _, _, _, _, same⟩ := encapsulate
  rw [same]
  rfl

theorem Rewired.names_nodup (wf : graph.WF)
    (rewired : Rewired library enc graph_id device_config graph result) :
    (result.graph.nodes.map Node.name).Nodup ↔ NewNamesFree graph := by
  constructor
  · intro distinct node member stays other otherOp c inside same
    obtain ⟨id, mapped⟩ :=
      Option.isSome_iff_exists.mp
        ((rewired.mapped c).mpr ⟨other, otherOp, inside⟩)
    obtain ⟨notOld, new, newIn, atId, encapsulate⟩ := rewired.placed c id mapped
    have sameNode : node = new := List.inj_on_of_nodup_map distinct
      (rewired.kept node member stays) newIn (same.trans encapsulate.name.symm)
    exact notOld ⟨node, member, by rw [sameNode, atId]⟩
  · intro free
    have apart : ∀ old ∈ graph.nodes,
        (old.isOp = true → isClustered old = false) →
        ∀ c new, result.cluster_node_map c = some new.id →
          IsEncapsulate library enc graph_id device_config c new →
          old.name ≠ new.name := by
      intro old oldIn stays c new mapped encapsulate
      obtain ⟨other, otherOp, inside⟩ :=
        (rewired.mapped c).mp (by simp [mapped])
      rw [encapsulate.name]
      exact free old oldIn stays other otherOp c inside
    apply List.Nodup.map_on _ rewired.ids.of_map
    intro left leftIn right rightIn same
    cases rewired.nodes left leftIn with
    | inl leftOld =>
        cases rewired.nodes right rightIn with
        | inl rightOld => exact wf.name_injective leftOld.1 rightOld.1 same
        | inr rightNew =>
            obtain ⟨c, mapped, encapsulate⟩ := rightNew
            exact absurd same
              (apart left leftOld.1 leftOld.2 c right mapped encapsulate)
    | inr leftNew =>
        obtain ⟨c, leftMapped, isLeft⟩ := leftNew
        cases rewired.nodes right rightIn with
        | inl rightOld =>
            exact absurd same.symm
              (apart right rightOld.1 rightOld.2 c left leftMapped isLeft)
        | inr rightNew =>
            obtain ⟨d, rightMapped, isRight⟩ := rightNew
            rw [isLeft.name, isRight.name] at same
            obtain rfl := Text.append_intText_injective same
            rw [leftMapped, Option.some.injEq] at rightMapped
            exact List.inj_on_of_nodup_map rewired.ids leftIn rightIn
              rightMapped

end NewNames

/-- Names in the `GraphDef` of a cluster are distinct, and its texts lead to the
nodes meant, unless a node of the cluster has a generated name; the names of the
rewritten graph are, unless a node that is left has the name of a new node. -/
theorem generatedNames_distinct {graph : Graph} {order : graph.Enumeration}
    {manager : ClusterManager} {enc : Encapsulator} (wf : graph.WF)
    (legal : ∀ node ∈ graph.nodes, LegalName node.name)
    (analysis : analysisPass order manager = .ok enc) :
    (∀ c, manager.getClusterGraph c = some .empty → ∃ gdef,
      enc.manager.getClusterGraph c = some gdef ∧
        (((gdef.node.map NodeDef.name).Nodup ∧ Linked order enc c gdef) ↔
          NamesFree graph c)) ∧
    ∀ library graph_id device_config result,
      rewritePass library enc graph_id device_config graph = .ok result →
        ((result.graph.nodes.map Node.name).Nodup ↔ NewNamesFree graph) := by
  obtain ⟨outs, added, analysed⟩ := analysisPass_analysed wf analysis
  constructor
  · intro c begun
    have stored : enc.manager.getClusterGraph c = some ⟨added c⟩ := by
      rw [analysed.appended, begun]
      rfl
    obtain ⟨gdef, found, names⟩ := analysisPass_listed analysis c begun
    obtain rfl := Option.some.inj (stored.symm.trans found)
    have free := analysed.clusterNames_nodup wf c
    rw [← names.nodup_iff] at free
    refine ⟨_, stored, fun both => free.mp both.1, fun isFree => ?_⟩
    have distinct := free.mpr isFree
    exact ⟨distinct, analysed.linked wf legal distinct⟩
  · intro library graph_id device_config result success
    exact (rewritePass_rewired wf analysed success).names_nodup wf

/-- `neg (x * x)` with names for `x` and for the product, which is in a
cluster. -/
def namedGraph (x square : String) : Graph where
  nodes := [
    ⟨0, "_SOURCE", "NoOp", [], [], [], "", []⟩,
    ⟨1, "_SINK", "NoOp", [], [], [], "", []⟩,
    ⟨2, x, "Placeholder", [], [], [.DT_FLOAT], "", []⟩,
    ⟨3, square, "Mul", [("_ngraph_cluster", .i 0)], [.DT_FLOAT, .DT_FLOAT],
      [.DT_FLOAT], "", [x, x]⟩,
    ⟨4, "neg", "Neg", [], [.DT_FLOAT], [.DT_FLOAT], "", [square]⟩]
  edges :=
    [⟨0, 0, -1, 2, -1⟩, ⟨1, 2, 0, 3, 0⟩, ⟨2, 2, 0, 3, 1⟩, ⟨3, 3, 0, 4, 0⟩,
      ⟨4, 4, -1, 1, -1⟩]

theorem generatedNames_distinct_namedGraph : ∃ enc gdef,
    analysisPass (namedGraph "x" "ngraph_input_1").byInsertion ⟨[.empty]⟩ =
      .ok enc ∧
      enc.manager.getClusterGraph 0 = some gdef ∧
      (gdef.node.map NodeDef.name).Nodup := by
  have succeeds : (analysisPass (namedGraph "x" "ngraph_input_1").byInsertion
      ⟨[.empty]⟩).toOption.isSome = true := by decide
  cases result :
    analysisPass (namedGraph "x" "ngraph_input_1").byInsertion ⟨[.empty]⟩ with
  | error error => simp [result, Except.toOption] at succeeds
  | ok enc =>
      obtain ⟨inside, _⟩ :=
        generatedNames_distinct (by constructor <;> decide) (by decide) result
      obtain ⟨gdef, stored, names⟩ := inside 0 rfl
      refine ⟨enc, gdef, rfl, stored, (names.mpr ?_).1⟩
      constructor
      · decide
      · decide

/-- One tensor enters the cluster of a node that has the name of its argument;
and a node that is left has the name of the new node. -/
theorem generatedNames_taken :
    (namedGraph "x" "ngraph_input_0").WF ∧
    (∀ node ∈ (namedGraph "x" "ngraph_input_0").nodes, LegalName node.name) ∧
    (∃ enc gdef,
      analysisPass (namedGraph "x" "ngraph_input_0").byInsertion ⟨[.empty]⟩ =
        .ok enc ∧
        enc.manager.getClusterGraph 0 = some gdef ∧
        gdef.node.map NodeDef.name =
          ["ngraph_input_0", "ngraph_output_0", "ngraph_input_0"]) ∧
    (namedGraph "ngraph_cluster_0" "square").WF ∧
    (∀ node ∈ (namedGraph "ngraph_cluster_0" "square").nodes,
      LegalName node.name) ∧
    ∃ outcome,
      encapsulateClusters importLibrary ⟨[.empty]⟩ 0 []
          (namedGraph "ngraph_cluster_0" "square") = .ok outcome ∧
        outcome.rewritten.graph.nodes.map Node.name =
          ["_SOURCE", "_SINK", "ngraph_cluster_0", "neg",
            "ngraph_cluster_0"] := by
  have inside : ((analysisPass (namedGraph "x" "ngraph_input_0").byInsertion
      ⟨[.empty]⟩).toOption.bind fun enc => (enc.manager.getClusterGraph 0).map
        fun gdef => gdef.node.map NodeDef.name) =
      some ["ngraph_input_0", "ngraph_output_0", "ngraph_input_0"] := by decide
  have outside : (encapsulateClusters importLibrary ⟨[.empty]⟩ 0 []
      (namedGraph "ngraph_cluster_0" "square")).toOption.map
        (fun outcome => outcome.rewritten.graph.nodes.map Node.name) =
      some ["_SOURCE", "_SINK", "ngraph_cluster_0", "neg",
        "ngraph_cluster_0"] := by
    decide
  obtain ⟨enc, analysed, stored⟩ := Option.bind_eq_some_iff.mp inside
  obtain ⟨gdef, found, names⟩ := Option.map_eq_some_iff.mp stored
  obtain ⟨outcome, encapsulated, newNames⟩ := Option.map_eq_some_iff.mp outside
  exact ⟨by constructor <;> decide, by decide,
    ⟨enc, gdef, ok_of_toOption analysed, found, names⟩,
    by constructor <;> decide, by
    decide, outcome, ok_of_toOption encapsulated, newNames⟩

end NGraphBridge.EncapsulateClusters
