import NGraphBridge.Deadness.Liveness
import NGraphBridge.TF.Errors

/-!
# The analysis and its internal errors

The outputs of a node outside control flow have one predicate, so the analysis
finds no node to complain about.  And where such a node is known to be live, so
is everything it reads.
-/

namespace NGraphBridge.Deadness

open TF PredicateFactory Predicate

section Populate

variable {graph : Graph} (hasher : Hasher) (order : graph.Enumeration)
  (predicate_map : PredicateMap) (n : Node)

theorem findPred_noInternal (edge : Edge) :
    NoInternal (findPred graph predicate_map edge) := by
  unfold findPred
  split
  · exact noInternal_ok _
  · exact noInternal_error (by simp [errors.check])

theorem findPreds_noInternal (edges : List Edge) :
    NoInternal (findPreds graph predicate_map edges) := by
  induction edges with
  | nil => exact noInternal_ok _
  | cons edge edges ih =>
      apply (findPred_noInternal predicate_map edge).bind
      intro pred _
      apply ih.bind
      intro preds _
      exact noInternal_ok _

theorem setPreds_noInternal (preds : List (Int × Predicate)) :
    NoInternal (setPreds predicate_map n preds) := by
  induction preds generalizing predicate_map with
  | nil => exact noInternal_ok _
  | cons entry preds ih =>
      have first : NoInternal (setPred predicate_map n entry.1 entry.2) := by
        unfold setPred
        split
        · exact noInternal_error (by simp [errors.check])
        · exact noInternal_ok _
      apply first.bind
      intro next _
      exact ih next

theorem mergePred_noInternal :
    NoInternal (mergePred hasher order predicate_map n) := by
  unfold mergePred
  split
  case isTrue => exact noInternal_ok _
  case isFalse =>
    apply (findPreds_noInternal predicate_map _).bind
    intro preds _
    exact noInternal_ok _

theorem handle_noInternal :
    NoInternal (handle hasher order predicate_map n) := by
  have incoming :
      NoInternal (getIncomingPreds order predicate_map n .kDataAndControl) :=
    findPreds_noInternal predicate_map _
  unfold handle
  split_ifs
  · apply incoming.bind
    intro input_preds _
    apply (n.input_edge_noInternal _ 1).bind
    intro pred_edge _
    exact noInternal_ok _
  · apply (mergePred_noInternal hasher order predicate_map n).bind
    intro input_data_pred _
    exact noInternal_ok _
  · exact noInternal_ok _
  · apply incoming.bind
    intro input_preds _
    exact noInternal_ok _
  · apply incoming.bind
    intro input_preds _
    exact noInternal_ok _

theorem populate_noInternal : NoInternal (populate hasher order) := by
  have from_ : ∀ (rpo : List Node) predicate_map,
      NoInternal (populateFrom hasher order rpo predicate_map) := by
    intro rpo
    induction rpo with
    | nil => exact fun _ => noInternal_ok _
    | cons n rpo ih =>
        intro predicate_map
        apply (handle_noInternal hasher order predicate_map n).bind
        intro preds _
        apply (setPreds_noInternal predicate_map n preds).bind
        intro next _
        exact ih next
  exact from_ _ _

end Populate

section Outputs

variable {graph : Graph} {hasher : Hasher} {order : graph.Enumeration}
  {final : PredicateMap} {node : Node}

/-- Outside control flow all outputs get one predicate. -/
theorem handle_one {preds : List (Int × Predicate)}
    (notControlFlow : node.isControlFlow = false)
    (success : handle hasher order final node = .ok preds) :
    ∃ pred, ∀ entry ∈ preds, entry.2 = pred := by
  obtain ⟨notSwitch, notMerge, _⟩ :=
    not_switch_of_not_controlFlow notControlFlow
  unfold handle at success
  rw [if_neg (by simp [notSwitch]), if_neg (by simp [notMerge])] at success
  split_ifs at success with isTrigger isRecv
  · obtain rfl := Except.ok.inj success
    exact ⟨makeTrue hasher, by simp⟩
  · obtain ⟨input_preds, _, success⟩ := bind_ok success
    obtain rfl := Except.ok.inj success
    exact ⟨makeAndPredicate hasher
      (input_preds ++ [makeSymbolPredicate ⟨node.name, 0⟩ false]),
      by simp⟩
  · obtain ⟨input_preds, _, success⟩ := bind_ok success
    obtain rfl := Except.ok.inj success
    refine ⟨makeAndPredicate hasher input_preds, ?_⟩
    intro entry member
    cases List.mem_append.mp member with
    | inl output =>
        obtain ⟨_, _, rfl⟩ := List.mem_map.mp output
        rfl
    | inr control => rw [List.mem_singleton.mp control]

theorem Analysed.outputs_one (analysed : Analysed hasher order final)
    (wf : graph.WF) (member : node ∈ graph.nodes)
    (notControlFlow : node.isControlFlow = false) {slot other : Int}
    {pred otherPred : Predicate} (found : final ⟨node.name, slot⟩ = some pred)
    (otherFound : final ⟨node.name, other⟩ = some otherPred) :
    pred = otherPred := by
  obtain ⟨n, nIn, preds, handled, entry, isEntry, atSlot, rfl⟩ :=
    analysed.handled found
  obtain ⟨m, mIn, otherPreds, otherHandled, otherEntry, isOther,
    atOther, rfl⟩ :=
    analysed.handled otherFound
  obtain rfl := wf.name_injective member nIn (TensorId.mk.inj atSlot).1
  obtain rfl := wf.name_injective member mIn (TensorId.mk.inj atOther).1
  have same := handled.1
  rw [otherHandled.1] at same
  obtain rfl := Except.ok.inj same
  obtain ⟨common, all⟩ := handle_one notControlFlow otherHandled.1
  rw [all entry isEntry, all otherEntry isOther]

theorem commonPred_noInternal {out_edges : List Edge} {first : Option Predicate}
    (agree : ∀ left ∈ out_edges, ∀ right ∈ out_edges, ∀ pred otherPred,
      final (inputEdgeToTensorId graph left) = some pred →
      final (inputEdgeToTensorId graph right) = some otherPred →
      pred = otherPred)
    (agreeFirst : ∀ edge ∈ out_edges, ∀ pred, first = some pred → ∀ found,
      final (inputEdgeToTensorId graph edge) = some found → pred = found) :
    NoInternal (commonPred graph final node out_edges first) := by
  induction out_edges generalizing first with
  | nil => exact noInternal_ok _
  | cons edge out_edges ih =>
      apply (findPred_noInternal final edge).bind
      intro found atEdge
      have atEdge := findPred_ok.mp atEdge
      have same : ¬ (first.any fun pred => pred != found) = true := by
        cases first with
        | none => simp
        | some pred => simp [agreeFirst edge (by simp) pred rfl found atEdge]
      rw [if_neg same]
      apply ih
      · exact fun left leftIn right rightIn =>
          agree left (by simp [leftIn]) right (by simp [rightIn])
      · intro other otherIn pred same otherPred atOther
        obtain rfl := Option.some.inj same
        exact agree edge (by simp) other (by simp [otherIn]) found otherPred
          atEdge atOther

theorem Analysed.getNodePredicate_noInternal
    (analysed : Analysed hasher order final) (wf : graph.WF)
    (member : node ∈ graph.nodes) :
    NoInternal (getNodePredicate order final node) := by
  unfold getNodePredicate
  split
  case isTrue => exact noInternal_ok _
  case isFalse plain =>
    simp only [Bool.or_eq_true, not_or, Bool.not_eq_true] at plain
    have leaves : ∀ edge ∈ order.out_edges node.id, ∀ pred,
        final (inputEdgeToTensorId graph edge) = some pred →
        final ⟨node.name, edge.src_output⟩ = some pred := by
      intro edge inEdges pred found
      have atNode := ((order.mem_out_edges node.id edge).mp inEdges).2
      rwa [inputEdgeToTensorId, tensorId, atNode, wf.node_eq member] at found
    apply (commonPred_noInternal _ (by simp)).bind
    · intro pred _
      split
      · exact noInternal_ok _
      · exact noInternal_ok _
    · intro left leftIn right rightIn pred otherPred found otherFound
      exact analysed.outputs_one wf member plain.2
        (leaves left leftIn pred found)
        (leaves right rightIn otherPred otherFound)

end Outputs

theorem trivial_of_isTruePredString {pred : Predicate} {loose : TensorId → Prop}
    (normal : Normal loose pred)
    (isTrue : isTruePredString pred.toString = true) :
    pred = .and [] := by
  have trivialNormal : Normal loose (.and []) := normal_true
  have same : pred.toString = (Predicate.and []).toString := by
    rw [Predicate.toString]
    simpa [isTruePredString, truePredString] using isTrue
  have erased :=
    erase_eq_of_toString normal.readable trivialNormal.readable same
  cases pred with
  | and operands =>
      simp only [erase, eraseSequence_eq, List.map_nil, Predicate.and.injEq,
        List.map_eq_nil_iff] at erased
      rw [erased]
  | or operands => simp [erase] at erased
  | not operand => simp [erase] at erased
  | symbol tensor_id must_be_true => simp [erase] at erased

/-- The texts of predicates do not look like the mark of control flow. -/
theorem not_controlFlowPredString {pred : Predicate} {loose : TensorId → Prop}
    (normal : Normal loose pred) :
    isControlFlowPredString pred.toString = false := by
  rw [isControlFlowPredString, beq_eq_false_iff_ne]
  intro same
  have same : pred.text = '#' :: "control_flow".toList := by
    rw [Predicate.text, same]
    rfl
  rcases normal.readable.cases
    with ⟨isAnd, operands, rfl, _, _⟩ | ⟨operand, rfl, _⟩ |
    ⟨tensor_id, must_be_true, rfl, legal⟩
  · cases operands with
    | nil =>
        rw [text_constant] at same
        cases isAnd <;> simp at same
    | cons op operands => simp [text_connective] at same
  · simp [text_not] at same
  · rw [text_symbol, ← List.append_nil tensor_id.toString.toList] at same
    exact symbol_head legal (.inr (.inr rfl)) same

/-- A conjunction is trivial only if all its operands are. -/
theorem makeAndPredicate_trivial {hasher : Hasher} {operands : List Predicate}
    (flat : ∀ op ∈ operands, op.Flat)
    (made : makeAndPredicate hasher operands = .and []) : ∀ op ∈ operands,
    op = .and [] := by
  intro op member
  cases makeAndPredicate_parts hasher flat with
  | inl isFalse => simp [made] at isFalse
  | inr keeps =>
      have none_ : ∀ part, part ∉ op.parts .kAnd := by
        intro part isPart
        have inTrivial := keeps op member part isPart
        simp [made, Predicate.parts, Predicate.kind,
          Predicate.operands] at inTrivial
      cases op with
      | and operands =>
          simp only [Predicate.parts, Predicate.kind, Predicate.operands,
            if_true] at none_
          rw [List.eq_nil_iff_forall_not_mem.mpr none_]
      | _ => exact absurd (List.mem_singleton.mpr rfl) (none_ _)

section Trivial

variable {graph : Graph} {hasher : Hasher} {order : graph.Enumeration}
  {final : PredicateMap} {node : Node}

/-- A node outside control flow whose outputs are live in every run reads only
outputs that are. -/
theorem Analysed.trivial_input (analysed : Analysed hasher order final)
    (wf : graph.WF) (member : node ∈ graph.nodes)
    (notControlFlow : node.isControlFlow = false)
    (notTrigger : node.isControlTrigger = false) {slot : Int}
    (found : final ⟨node.name, slot⟩ = some (.and [])) {edge : Edge}
    (inEdges : edge ∈ order.in_edges node.id) :
    final (inputEdgeToTensorId graph edge) = some (.and []) := by
  obtain ⟨notSwitch, notMerge, _⟩ :=
    not_switch_of_not_controlFlow notControlFlow
  obtain ⟨n, nIn, preds, ⟨handled, _⟩, entry, isEntry, atSlot, made⟩ :=
    analysed.handled found
  obtain rfl := wf.name_injective member nIn (TensorId.mk.inj atSlot).1
  have conjunction : ∃ input_preds more,
      getIncomingPreds order final node .kDataAndControl = .ok input_preds ∧
        (∀ op ∈ more, op.Flat) ∧
        entry.2 = makeAndPredicate hasher (input_preds ++ more) := by
    unfold handle at handled
    rw [if_neg (by simp [notSwitch]), if_neg (by simp [notMerge]),
      if_neg (by simp [notTrigger])] at handled
    split_ifs at handled with isRecv
    · obtain ⟨input_preds, atInputs, handled⟩ := bind_ok handled
      obtain rfl := Except.ok.inj handled
      refine ⟨input_preds, [makeSymbolPredicate ⟨node.name, 0⟩ false], atInputs,
        by simp [Flat, makeSymbolPredicate, Predicate.operands], ?_⟩
      simp only [List.mem_cons, List.not_mem_nil, or_false] at isEntry
      cases isEntry with
      | inl atOutput => rw [atOutput]
      | inr atControl => rw [atControl]
    · obtain ⟨input_preds, atInputs, handled⟩ := bind_ok handled
      obtain rfl := Except.ok.inj handled
      refine ⟨input_preds, [], atInputs, by simp, ?_⟩
      rw [List.append_nil]
      cases List.mem_append.mp isEntry with
      | inl output =>
          obtain ⟨_, _, rfl⟩ := List.mem_map.mp output
          rfl
      | inr control => rw [List.mem_singleton.mp control]
  obtain ⟨input_preds, more, atInputs, moreFlat, isConjunction⟩ := conjunction
  rw [isConjunction] at made
  obtain ⟨pred, inInputs, atEdge⟩ :=
    (incoming_mem atInputs).2 edge inEdges (by simp [shouldProcess])
  have flat : ∀ op ∈ input_preds ++ more, op.Flat := by
    intro op isOperand
    cases List.mem_append.mp isOperand with
    | inl isInput =>
        exact (incoming_normal analysed.normal atInputs op isInput).flat
    | inr isMore => exact moreFlat op isMore
  rw [atEdge, makeAndPredicate_trivial flat made.symm pred (by simp [inInputs])]

end Trivial

end NGraphBridge.Deadness
