import NGraphBridge.EncapsulateClusters.Analysis
import NGraphBridge.TF.Evaluation

/-!
# What a copy reads

The texts of a copied node's inputs, parsed again, stand for the tensors that
the node reads: by the name of their node inside the cluster, by the name of an
argument at its border.
-/

namespace NGraphBridge.EncapsulateClusters

open TF MarkForClustering AssignClusters

section Names

theorem inputName_injective {k l : Nat}
    (same : inputName k = inputName l) : k = l :=
  Text.append_natText_injective same

theorem outputName_injective {k l : Nat}
    (same : outputName k = outputName l) : k = l :=
  Text.append_natText_injective same

theorem inputName_legal (k : Nat) : LegalName (inputName k) := by
  have chars : (inputName k).toList = "ngraph_input_".toList ++
      Nat.toDigits 10 k := by
    simp [inputName, String.toList_append]
  constructor
  · intro empty
    rw [empty] at chars
    exact absurd chars (by simp)
  · intro c member
    rw [chars, List.mem_append] at member
    cases member with
    | inl literal =>
        have each : ∀ c ∈ "ngraph_input_".toList, isNameChar c = true :=
          List.all_eq_true.mp (by decide)
        exact each c literal
    | inr digit =>
        have isDigit :=
          Nat.isDigit_of_mem_toDigits (by decide) (by decide) digit
        simp [isNameChar, Char.isAlphanum, isDigit]

theorem parseTensorName_addInput {name : String} (legal : LegalName name)
    {slot : Int} (data : 0 ≤ slot) :
    parseTensorName (addInput name slot) = (name, slot) := by
  unfold addInput
  rw [if_neg (by simp only [kControlSlot]; omega)]
  split
  case isTrue zero => rw [zero, parseTensorName_name legal]
  case isFalse =>
    obtain ⟨position, rfl⟩ := Int.eq_ofNat_of_zero_le data
    exact parseTensorName_output legal position

theorem parseTensorName_addInput_control {name : String}
    (legal : LegalName name) :
    parseTensorName (addInput name kControlSlot) = (name, kControlSlot) := by
  rw [addInput, if_pos rfl, parseTensorName_control legal]

end Names

section Inputs

variable {graph : Graph} {cluster_idx : Int} {in_edges : List Edge}

theorem collectInputs_ok {slots filled : Nat → Option Edge}
    {controls all : List Edge}
    (success : collectInputs graph cluster_idx in_edges slots controls =
      .ok (filled, all)) :
    (∀ edge ∈ in_edges, edge.isControlEdge = false →
      filled edge.dst_input.toNat = some edge) ∧
    (∀ position edge, slots position = some edge →
      filled position = some edge) ∧
    ∀ edge ∈ all, edge ∈ controls ∨
    (edge ∈ in_edges ∧ edge.isControlEdge = true) := by
  induction in_edges generalizing slots controls with
  | nil =>
      obtain ⟨rfl, rfl⟩ := Prod.mk.inj (Except.ok.inj success)
      exact ⟨by simp, fun _ _ found => found, fun _ member => .inl member⟩
  | cons head in_edges ih =>
      unfold collectInputs at success
      split at success
      case isTrue control =>
        have later : ∀ edge ∈ head :: in_edges, edge.isControlEdge = false →
            edge ∈ in_edges := by
          intro edge member data
          cases List.mem_cons.mp member with
          | inl same =>
              rw [same, control] at data
              exact absurd data (by simp)
          | inr later => exact later
        split at success
        case isTrue =>
          obtain ⟨covered, kept, only⟩ := ih success
          refine ⟨fun edge member data =>
            covered edge (later edge member data) data, kept,
            fun edge member => ?_⟩
          cases only edge member with
          | inr isControl => exact .inr ⟨by simp [isControl.1], isControl.2⟩
          | inl old =>
              cases List.mem_append.mp old with
              | inl before => exact .inl before
              | inr isHead =>
                  obtain rfl := List.mem_singleton.mp isHead
                  exact .inr ⟨by simp, control⟩
        case isFalse =>
          obtain ⟨covered, kept, only⟩ := ih success
          exact ⟨fun edge member data =>
            covered edge (later edge member data) data, kept,
            fun edge member =>
              (only edge member).imp_right
                (And.imp_left (List.mem_cons_of_mem _))⟩
      case isFalse =>
        split at success
        case isTrue => simp at success
        case isFalse free =>
          obtain ⟨covered, kept, only⟩ := ih success
          refine ⟨?_, ?_, fun edge member =>
            (only edge member).imp_right
              (And.imp_left (List.mem_cons_of_mem _))⟩
          · intro edge member data
            cases List.mem_cons.mp member with
            | inl same =>
                subst same
                exact kept _ _ (Function.update_self _ _ _)
            | inr later => exact covered edge later data
          · intro position edge found
            refine kept position edge ?_
            rw [Function.update_of_ne _ _ _, found]
            rintro rfl
            simp [found] at free

/-- What a tensor is called inside a cluster. -/
def localTensor (graph : Graph) (enc : Encapsulator) (cluster_idx : Int)
    (tensor : Nat × Int) : String × Int :=
  match enc.input_rename_map (cluster_idx, (graph.node tensor.1).name, tensor.2)
    with
  | some new_name => (new_name, 0)
  | none => ((graph.node tensor.1).name, tensor.2)

section Analysed

variable {order : graph.Enumeration} {manager : ClusterManager}
  {enc : Encapsulator} {outs : Int → List (Nat × Int)}
  {added : Int → List NodeDef}

/-- A tensor that a cluster reads is its own or one of its arguments. -/
theorem Analysed.localTensor (wf : graph.WF)
    (analysed : Analysed order manager outs added enc) {edge : Edge}
    (member : edge ∈ graph.edges) (data : edge.isControlEdge = false)
    (clustered : isClustered (graph.node edge.dst) = true)
    (inCluster : clusterIdx (graph.node edge.dst) = cluster_idx) :
    (clusterIdx (graph.node edge.src) = cluster_idx ∧
      localTensor graph enc cluster_idx (edge.src, edge.src_output) =
        ((graph.node edge.src).name, edge.src_output)) ∨
    ∃ k, (enc.inputsOf cluster_idx)[k]? = some (edge.src, edge.src_output) ∧
      localTensor graph enc cluster_idx (edge.src, edge.src_output) =
        (inputName k, 0) := by
  have srcIn := (wf.node_mem (wf.src edge member)).1
  by_cases together : clusterIdx (graph.node edge.src) = cluster_idx
  · refine .inl ⟨together, ?_⟩
    unfold EncapsulateClusters.localTensor
    cases renamed : enc.input_rename_map
        (cluster_idx, (graph.node edge.src).name, edge.src_output) with
    | none => rfl
    | some new_name =>
        obtain ⟨k, src, atK, sameName, _⟩ :=
          (analysed.rename _ _ _ _).mp renamed
        obtain ⟨other, crosses, _, atDst, sameKey⟩ :=
          analysed.inSource _ _ (List.mem_of_getElem? atK)
        obtain ⟨rfl, _⟩ := Prod.mk.inj sameKey
        have otherIn := (wf.node_mem (wf.src other crosses.member)).1
        have sameNode := wf.name_injective otherIn srcIn sameName
        exact absurd (by rw [atDst, sameNode, together]) crosses.apart
  · have crosses : Crosses graph edge :=
      ⟨member, data, fun same => together (same.symm.trans inCluster)⟩
    have isInput := (analysed.covered edge crosses).1 clustered
    rw [inCluster] at isInput
    obtain ⟨k, atK⟩ := List.getElem?_of_mem isInput
    have renamed :=
      (analysed.rename cluster_idx (graph.node edge.src).name edge.src_output
        (inputName k)).mpr ⟨k, edge.src, atK, rfl, rfl⟩
    exact .inr ⟨k, atK, by simp [EncapsulateClusters.localTensor, renamed]⟩

theorem parse_renameInput (analysed : Analysed order manager outs added enc)
    {src : Node} (srcIn : graph.node src.id = src) (legal : LegalName src.name)
    {slot : Int} (nonneg : 0 ≤ slot) :
    parseTensorName (renameInput enc cluster_idx (addInput src.name slot)) =
      localTensor graph enc cluster_idx (src.id, slot) := by
  unfold renameInput EncapsulateClusters.localTensor
  rw [parseTensorName_addInput legal nonneg, srcIn]
  dsimp only
  cases renamed : enc.input_rename_map (cluster_idx, src.name, slot) with
  | none => exact parseTensorName_addInput legal nonneg
  | some new_name =>
      obtain ⟨k, _, _, _, rfl⟩ := (analysed.rename _ _ _ _).mp renamed
      exact parseTensorName_name (inputName_legal k)

theorem parse_renameInput_control
    (analysed : Analysed order manager outs added enc) {name : String}
    (legal : LegalName name) :
    parseTensorName (renameInput enc cluster_idx (addInput name kControlSlot)) =
      (name, kControlSlot) := by
  unfold renameInput
  rw [parseTensorName_addInput_control legal]
  dsimp only
  cases renamed : enc.input_rename_map (cluster_idx, name, kControlSlot) with
  | none => exact parseTensorName_addInput_control legal
  | some new_name =>
      obtain ⟨k, src, atK, _, _⟩ := (analysed.rename _ _ _ _).mp renamed
      obtain ⟨edge, crosses, _, _, same⟩ :=
        analysed.inSource _ _ (List.mem_of_getElem? atK)
      have data := crosses.data
      simp [Edge.isControlEdge, ← (Prod.mk.inj same).2] at data

theorem localTensor_slot {tensor : Nat × Int} (nonneg : 0 ≤ tensor.2) :
    (localTensor graph enc cluster_idx tensor).2 ≠ kControlSlot := by
  unfold EncapsulateClusters.localTensor kControlSlot
  split
  · simp
  · dsimp only
    omega

/-- The data inputs of a copy stand for what the node reads. -/
theorem copyDef_inputs (wf : graph.WF)
    (legal : ∀ node ∈ graph.nodes, LegalName node.name)
    (analysed : Analysed order manager outs added enc) {node : Node}
    {node_def : NodeDef}
    (fed : ∀ input < node.num_inputs, ∃ src slot,
      graph.Feeds src slot node.id input)
    (success : copyDef graph (order.in_edges node.id) enc cluster_idx node =
      .ok node_def) :
    node_def.name = node.name ∧ node_def.op = node.type_string ∧
      node_def.attr = node.attrs ∧
      List.Forall₂ (fun (input : Nat) text => ∃ src slot,
        graph.Feeds src slot node.id input ∧
        parseTensorName text = localTensor graph enc cluster_idx (src, slot))
        (List.range node.num_inputs) node_def.dataInputs := by
  obtain ⟨⟨slots, controls⟩, collected, success⟩ := bind_ok success
  obtain rfl := Except.ok.inj success
  obtain ⟨covered, _, onlyControls⟩ := collectInputs_ok collected
  refine ⟨rfl, rfl, rfl, ?_⟩
  have dataPart : ∀ input ∈ List.range node.num_inputs, ∃ text,
      (slotInput graph node slots input).map (renameInput enc cluster_idx) =
        [text] ∧
        (parseTensorName text).2 ≠ kControlSlot ∧
        ∃ src slot, graph.Feeds src slot node.id input ∧
          parseTensorName text = localTensor graph enc cluster_idx
            (src, slot) := by
    intro input member
    obtain ⟨src, slot, edge, inGraph, data, rfl, rfl, atDst, atInput⟩ :=
      fed input (List.mem_range.mp member)
    have filled :=
      covered edge ((order.mem_in_edges node.id edge).mpr ⟨inGraph, atDst⟩) data
    rw [atInput, Int.toNat_natCast] at filled
    obtain ⟨srcOp, _⟩ := wf.opEnds edge inGraph data
    obtain ⟨srcIn, srcId⟩ := wf.node_mem (wf.src edge inGraph)
    have nonneg := (wf.slots edge inGraph data).1.1
    have parsed : parseTensorName (renameInput enc cluster_idx
        (addInput (graph.node edge.src).name edge.src_output)) =
          localTensor graph enc cluster_idx (edge.src, edge.src_output) := by
      have read : parseTensorName (renameInput enc cluster_idx
          (addInput (graph.node edge.src).name edge.src_output)) =
            localTensor graph enc cluster_idx
              ((graph.node edge.src).id, edge.src_output) :=
        parse_renameInput analysed (by rw [srcId]) (legal _ srcIn) nonneg
      rwa [srcId] at read
    refine ⟨renameInput enc cluster_idx
      (addInput (graph.node edge.src).name edge.src_output),
      by simp [slotInput, filled, edgeInput, srcOp], ?_, edge.src,
      edge.src_output, ⟨edge, inGraph, data, rfl, rfl, atDst, atInput⟩, parsed⟩
    rw [parsed]
    exact localTensor_slot nonneg
  have texts : NodeDef.dataInputs ⟨node.name, node.type_string,
      ((List.range node.num_inputs).flatMap (slotInput graph node slots) ++
        controls.flatMap (edgeInput graph)).map (renameInput enc cluster_idx),
        node.attrs⟩ =
      (List.range node.num_inputs).flatMap
        (fun input => (slotInput graph node slots input).map
          (renameInput enc cluster_idx)) := by
    unfold NodeDef.dataInputs
    dsimp only
    rw [List.map_append, List.filter_append, List.map_flatMap, List.map_flatMap]
    have allData : ∀ text ∈ (List.range node.num_inputs).flatMap
        (fun input => (slotInput graph node slots input).map
          (renameInput enc cluster_idx)),
        ((parseTensorName text).2 != kControlSlot) = true := by
      intro text member
      obtain ⟨input, inRange, atInput⟩ := List.mem_flatMap.mp member
      obtain ⟨only, single, data, _⟩ := dataPart input inRange
      rw [single, List.mem_singleton] at atInput
      rw [atInput, bne_iff_ne]
      exact data
    have noData : ∀ text ∈ controls.flatMap
        (fun edge => (edgeInput graph edge).map (renameInput enc cluster_idx)),
        ¬ ((parseTensorName text).2 != kControlSlot) = true := by
      intro text member
      obtain ⟨edge, inControls, atEdge⟩ := List.mem_flatMap.mp member
      obtain ⟨input, atInput, rfl⟩ := List.mem_map.mp atEdge
      cases onlyControls edge inControls with
      | inl nothing => simp at nothing
      | inr isControl =>
          obtain ⟨inEdges, control⟩ := isControl
          have inGraph := ((order.mem_in_edges node.id edge).mp inEdges).1
          have srcLegal := legal _ (wf.node_mem (wf.src edge inGraph)).1
          have atSlot : edge.src_output = kControlSlot := by
            simpa [Edge.isControlEdge] using control
          unfold edgeInput at atInput
          dsimp only at atInput
          split at atInput
          · simp at atInput
          · rw [List.mem_singleton.mp atInput, atSlot, bne_iff_ne, not_not]
            rw [parse_renameInput_control analysed srcLegal]
    rw [List.filter_eq_self.mpr allData, List.filter_eq_nil_iff.mpr noData,
      List.append_nil]
  rw [texts]
  apply forall₂_flatMap
  intro input member
  obtain ⟨text, single, _, stands⟩ := dataPart input member
  exact ⟨text, single, stands⟩

theorem parse_retval {name : String} (legal : LegalName name) {slot : Int}
    (nonneg : 0 ≤ slot) :
    parseTensorName (name ++ ":" ++ toString slot) = (name, slot) := by
  obtain ⟨output, rfl⟩ := Int.eq_ofNat_of_zero_le nonneg
  exact parseTensorName_output legal output

theorem retvalDef_inputs {position index : Nat} {src : Node} {slot : Int}
    {dt : DataType} (legal : LegalName src.name) (nonneg : 0 ≤ slot) : ∃ text,
      (retvalDef position index src slot dt).dataInputs = [text] ∧
        parseTensorName text = (src.name, slot) := by
  have parsed := parse_retval legal nonneg
  refine ⟨src.name ++ ":" ++ toString slot, ?_, parsed⟩
  have data :
      ((parseTensorName (src.name ++ ":" ++ toString slot)).2 != kControlSlot) =
        true := by
    rw [parsed, bne_iff_ne, kControlSlot]
    dsimp only
    omega
  exact List.filter_cons_of_pos data

end Analysed

end Inputs

end NGraphBridge.EncapsulateClusters
