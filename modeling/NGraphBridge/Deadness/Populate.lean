import NGraphBridge.Deadness.Reading

/-!
# The analysis computes liveness

Deadness propagates through a graph by one rule for each kind of node.  The
predicates of the analysis satisfy these rules under every assignment of their
symbols, and all of them are in normal form.
-/

namespace NGraphBridge.Deadness

open TF PredicateFactory Predicate

/-- Which outputs are live: `live id slot`. -/
abbrev Liveness := Nat → Int → Bool

section Rules

variable {graph : Graph} (order : graph.Enumeration) (s : Assignment)

def inputsLive (live : Liveness) (n : Node) : Bool :=
  (order.in_edges n.id).all fun edge => live edge.src edge.src_output

def someDataInputLive (live : Liveness) (n : Node) : Bool :=
  (order.in_edges n.id).any fun edge =>
    !edge.isControlEdge && live edge.src edge.src_output

/-- The truth of the tensor that steers a switch. -/
def steering (n : Node) : Bool :=
  match n.input_edge (order.in_edges n.id) 1 with
  | .ok pred_edge => s (inputEdgeToTensorId graph pred_edge) true
  | .error _ => false

/-- Whether an output of a node is live, given which outputs of its
predecessors are.  A merge in a loop and a received tensor are free. -/
def fires (live : Liveness) (n : Node) (slot : Int) : Bool :=
  if n.isSwitch then
    inputsLive order live n &&
      (if slot = 0 then !steering order s n
      else if slot = 1 then steering order s n
      else true)
  else if n.isMerge then
    if hasBackedge order n then s ⟨n.name, 0⟩ false
    else someDataInputLive order live n
  else if n.isControlTrigger then true
  else if n.isRecv || n.isHostRecv then
    inputsLive order live n && s ⟨n.name, 0⟩ false
  else inputsLive order live n

/-- The liveness that the predicates of an analysis describe. -/
def liveUnder (graph : Graph) (predicate_map : PredicateMap) : Liveness :=
  fun id slot => (predicate_map (tensorId graph id slot)).any (·.eval s)

end Rules

def Extends (smaller larger : PredicateMap) : Prop :=
  ∀ tensor_id pred, smaller tensor_id = some pred → larger tensor_id = some pred

theorem Extends.refl (predicate_map : PredicateMap) :
    Extends predicate_map predicate_map :=
  fun _ _ found => found

theorem Extends.trans {first second third : PredicateMap}
    (early : Extends first second) (late : Extends second third) :
    Extends first third :=
  fun tensor_id pred found => late tensor_id pred (early tensor_id pred found)

section Maps

variable {graph : Graph} {order : graph.Enumeration} {hasher : Hasher}
  {predicate_map larger next final : PredicateMap} {n : Node}

theorem findPred_ok {edge : Edge} {pred : Predicate} :
    findPred graph predicate_map edge = .ok pred ↔
      predicate_map (inputEdgeToTensorId graph edge) = some pred := by
  unfold findPred
  cases predicate_map (inputEdgeToTensorId graph edge) with
  | none => simp
  | some found => simp

theorem findPreds_ok {edges : List Edge} {preds : List Predicate}
    (success : findPreds graph predicate_map edges = .ok preds) :
    List.Forall₂ (fun edge pred =>
      predicate_map (inputEdgeToTensorId graph edge) = some pred) edges
    preds := by
  induction edges generalizing preds with
  | nil =>
      simp only [findPreds, Except.ok.injEq] at success
      subst success
      exact .nil
  | cons edge edges ih =>
      obtain ⟨pred, found, success⟩ := bind_ok success
      obtain ⟨rest, restFound, success⟩ := bind_ok success
      obtain rfl : pred :: rest = preds := Except.ok.inj success
      exact .cons (findPred_ok.mp found) (ih restFound)

theorem findPreds_mono (extend : Extends predicate_map larger)
    {edges : List Edge} {preds : List Predicate}
    (success : findPreds graph predicate_map edges = .ok preds) :
    findPreds graph larger edges = .ok preds := by
  induction edges generalizing preds with
  | nil => exact success
  | cons edge edges ih =>
      obtain ⟨pred, found, success⟩ := bind_ok success
      obtain ⟨rest, restFound, success⟩ := bind_ok success
      have foundLarger : findPred graph larger edge = .ok pred :=
        findPred_ok.mpr (extend _ _ (findPred_ok.mp found))
      rw [findPreds, foundLarger]
      simp only [bind, Except.bind]
      rw [ih restFound]
      exact success

theorem handle_mono (extend : Extends predicate_map larger)
    {preds : List (Int × Predicate)}
    (success : handle hasher order predicate_map n = .ok preds) :
    handle hasher order larger n = .ok preds := by
  have incoming : ∀ {edge_kind : EdgeKind} {found : List Predicate},
      getIncomingPreds order predicate_map n edge_kind = .ok found →
      getIncomingPreds order larger n edge_kind = .ok found :=
    findPreds_mono extend
  unfold handle at success ⊢
  split_ifs at success ⊢ with isSwitch isMerge isTrigger isRecv
  · obtain ⟨found, atInputs, rest⟩ := bind_ok success
    unfold handleSwitch
    rw [incoming atInputs]
    exact rest
  · obtain ⟨found, atMerge, rest⟩ := bind_ok success
    have atLarger : mergePred hasher order larger n = .ok found := by
      unfold mergePred at atMerge ⊢
      split_ifs at atMerge ⊢ with backedge
      · exact atMerge
      · obtain ⟨inner, atInner, made⟩ := bind_ok atMerge
        rw [incoming atInner]
        exact made
    unfold handleMerge
    rw [atLarger]
    exact rest
  · exact success
  · obtain ⟨found, atInputs, rest⟩ := bind_ok success
    unfold handleRecv
    rw [incoming atInputs]
    exact rest
  · obtain ⟨found, atInputs, rest⟩ := bind_ok success
    unfold handleGeneric
    rw [incoming atInputs]
    exact rest

theorem setPred_ok {output_idx : Int} {pred : Predicate}
    (success : setPred predicate_map n output_idx pred = .ok next) :
    Extends predicate_map next ∧ next ⟨n.name, output_idx⟩ = some pred ∧
      ∀ tensor_id found, next tensor_id = some found →
        predicate_map tensor_id = some found ∨
          (tensor_id = ⟨n.name, output_idx⟩ ∧ found = pred) := by
  unfold setPred at success
  split_ifs at success with taken
  obtain rfl := Except.ok.inj success
  refine ⟨?_, by simp, ?_⟩
  · intro tensor_id found old
    by_cases same : tensor_id = ⟨n.name, output_idx⟩
    · rw [same] at old
      simp [old] at taken
    · rwa [Function.update_of_ne same]
  · intro tensor_id found new
    by_cases same : tensor_id = ⟨n.name, output_idx⟩
    · subst same
      rw [Function.update_self, Option.some.injEq] at new
      exact .inr ⟨rfl, new.symm⟩
    · rw [Function.update_of_ne same] at new
      exact .inl new

theorem setPreds_ok {preds : List (Int × Predicate)}
    (success : setPreds predicate_map n preds = .ok next) :
    Extends predicate_map next ∧
      (∀ entry ∈ preds, next ⟨n.name, entry.1⟩ = some entry.2) ∧
      ∀ tensor_id found, next tensor_id = some found →
        predicate_map tensor_id = some found ∨
          ∃ entry ∈ preds, tensor_id = ⟨n.name, entry.1⟩ ∧ found = entry.2 := by
  induction preds generalizing predicate_map with
  | nil =>
      obtain rfl := Except.ok.inj success
      exact ⟨.refl _, by simp, fun _ _ found => .inl found⟩
  | cons entry preds ih =>
      obtain ⟨middle, first, rest⟩ := bind_ok success
      obtain ⟨firstExtends, firstSet, firstOnly⟩ := setPred_ok first
      obtain ⟨restExtends, restSet, restOnly⟩ := ih rest
      refine ⟨firstExtends.trans restExtends, ?_, ?_⟩
      · intro candidate member
        rcases List.mem_cons.mp member with rfl | later
        · exact restExtends _ _ firstSet
        · exact restSet candidate later
      · intro tensor_id found new
        rcases restOnly tensor_id found new
          with atMiddle | ⟨candidate, member, same⟩
        · rcases firstOnly tensor_id found atMiddle with old | same
          · exact .inl old
          · exact .inr ⟨entry, by simp, same⟩
        · exact .inr ⟨candidate, by simp [member], same⟩

/-- The predicates of a node, as the finished map has them. -/
def Handled (hasher : Hasher) (order : graph.Enumeration) (final : PredicateMap)
    (n : Node) (preds : List (Int × Predicate)) : Prop :=
  handle hasher order final n = .ok preds ∧
    ∀ entry ∈ preds, final ⟨n.name, entry.1⟩ = some entry.2

theorem populateFrom_extends {rpo : List Node}
    (success : populateFrom hasher order rpo predicate_map = .ok final) :
    Extends predicate_map final := by
  induction rpo generalizing predicate_map with
  | nil =>
      obtain rfl := Except.ok.inj success
      exact .refl _
  | cons n rpo ih =>
      obtain ⟨preds, handled, success⟩ := bind_ok success
      obtain ⟨middle, set, rest⟩ := bind_ok success
      exact (setPreds_ok set).1.trans (ih rest)

/-- Every entry of the finished map is new with the node it belongs to. -/
theorem populateFrom_handled {rpo : List Node}
    (success : populateFrom hasher order rpo predicate_map = .ok final)
    {tensor_id : TensorId} {pred : Predicate}
    (found : final tensor_id = some pred) :
    predicate_map tensor_id = some pred ∨
      ∃ n ∈ rpo, ∃ preds, Handled hasher order final n preds ∧
        ∃ entry ∈ preds, tensor_id = ⟨n.name, entry.1⟩ ∧ pred = entry.2 := by
  induction rpo generalizing predicate_map with
  | nil =>
      obtain rfl := Except.ok.inj success
      exact .inl found
  | cons n rpo ih =>
      obtain ⟨preds, handled, success⟩ := bind_ok success
      obtain ⟨middle, set, rest⟩ := bind_ok success
      obtain ⟨extend, setAll, only⟩ := setPreds_ok set
      have later := populateFrom_extends rest
      rcases ih rest with atMiddle | ⟨other, member, preds, isHandled⟩
      · rcases only tensor_id pred atMiddle with old | same
        · exact .inl old
        · right
          exact ⟨n, by simp, preds, ⟨handle_mono (extend.trans later) handled,
            fun entry member => later _ _ (setAll entry member)⟩, same⟩
      · exact .inr ⟨other, by simp [member], preds, isHandled⟩

end Maps

section Normal

variable {loose : TensorId → Prop} {hasher : Hasher} {operands : List Predicate}

/-- A conjunction is false outright, or keeps all parts of its operands. -/
theorem makeAndPredicate_parts (hasher : Hasher)
    (flat : ∀ op ∈ operands, op.Flat) :
    makeAndPredicate hasher operands = .or [] ∨
      ∀ op ∈ operands, ∀ part ∈ op.parts .kAnd,
        part ∈ (makeAndPredicate hasher operands).parts .kAnd := by
  rcases makeAndPredicate_cases hasher flat
    with members | ⟨made, _⟩ | ⟨sorted, made, _, _, members⟩
  · right
    intro op member part isPart
    have same := (members part).mpr ⟨op, member, isPart⟩
    have notAnd : part.kind ≠ .kAnd := (flat op member).parts isPart
    rw [← same, Predicate.parts_of_kind_ne notAnd]
    simp
  · exact .inl made
  · right
    intro op member part isPart
    have isAnd : (Predicate.and sorted).kind = .kAnd := rfl
    rw [made, Predicate.parts, if_pos isAnd]
    exact (members part).mpr ⟨op, member, isPart⟩

/-- A part of an operand in normal form is in normal form itself, or stands
next to its partner. -/
theorem Predicate.Normal.parts {op : Predicate} (normal : Normal loose op)
    {part : Predicate} (isPart : part ∈ op.parts .kAnd) :
    Normal loose part ∨ Paired (op.parts .kAnd) part := by
  cases normal with
  | @and operands several distinct flat each =>
      by_cases paired : Paired operands part
      · exact .inr paired
      · exact .inl (each part isPart paired)
  | or several flat each =>
      obtain rfl := Predicate.eq_of_mem_parts (by simp [Predicate.kind]) isPart
      exact .inl (.or several flat each)
  | not legal =>
      obtain rfl := Predicate.eq_of_mem_parts (by simp [Predicate.kind]) isPart
      exact .inl (.not legal)
  | strict legal isStrict =>
      obtain rfl := Predicate.eq_of_mem_parts (by simp [Predicate.kind]) isPart
      exact .inl (.strict legal isStrict)
  | loose legal isLoose =>
      obtain rfl := Predicate.eq_of_mem_parts (by simp [Predicate.kind]) isPart
      exact .inl (.loose legal isLoose)

/-- What an operand of a conjunction may be: in normal form, or a symbol that
has to be true and whose partner, if there is one, is among the operands. -/
def Joins (loose : TensorId → Prop) (operands : List Predicate)
    (op : Predicate) : Prop :=
  Normal loose op ∨ ∃ tensor_id, LegalName tensor_id.name ∧
    op = .symbol tensor_id true ∧ (loose tensor_id →
      ∃ other ∈ operands, .symbol tensor_id false ∈ other.parts .kAnd)

theorem Joins.flat {op : Predicate} (joins : Joins loose operands op) :
    op.Flat := by
  rcases joins with normal | ⟨tensor_id, _, rfl, _⟩
  · exact normal.flat
  · simp [Flat, Predicate.operands]

theorem Joins.parts {op part : Predicate} (joins : Joins loose operands op)
    (member : op ∈ operands) (isPart : part ∈ op.parts .kAnd) :
    Normal loose part ∨ ∃ tensor_id, part = .symbol tensor_id true ∧
      ∃ other ∈ operands, .symbol tensor_id false ∈ other.parts .kAnd := by
  rcases joins with normal | ⟨tensor_id, legal, rfl, partner⟩
  · rcases normal.parts isPart with partNormal | ⟨tensor_id, rfl, partner⟩
    · exact .inl partNormal
    · exact .inr ⟨tensor_id, rfl, op, member, partner⟩
  · obtain rfl := Predicate.eq_of_mem_parts (by simp [Predicate.kind]) isPart
    by_cases isLoose : loose tensor_id
    · exact .inr ⟨tensor_id, rfl, partner isLoose⟩
    · exact .inl (.strict legal isLoose)

theorem normal_false : Normal loose (.or []) :=
  .or (by simp) (by simp) (by simp)

theorem normal_true : Normal loose (.and []) :=
  .and (by simp) List.nodup_nil (by simp) (by simp)

theorem makeAndPredicate_normal
    (joins : ∀ op ∈ operands, Joins loose operands op) :
    Normal loose (makeAndPredicate hasher operands) := by
  have flat : ∀ op ∈ operands, op.Flat :=
    fun op member => (joins op member).flat
  rcases makeAndPredicate_cases hasher flat with members | ⟨made, _⟩ |
    ⟨sorted, made, distinct, several, members⟩
  · obtain ⟨op, member, isPart⟩ :=
      (members (makeAndPredicate hasher operands)).mp rfl
    rcases (joins op member).parts member isPart
      with normal | ⟨tensor_id, same, partner⟩
    · exact normal
    · have partnerSame := (members _).mpr partner
      rw [same] at partnerSame
      simp at partnerSame
  · exact made ▸ normal_false
  · rw [made]
    apply Normal.and several distinct
    · intro part isIn
      obtain ⟨op, member, isPart⟩ := (members part).mp isIn
      exact (flat op member).parts isPart
    · intro part isIn plain
      obtain ⟨op, member, isPart⟩ := (members part).mp isIn
      rcases (joins op member).parts member isPart
        with normal | ⟨tensor_id, same, partner⟩
      · exact normal
      · exact absurd ⟨tensor_id, same, (members _).mpr partner⟩ plain

theorem makeOrPredicate_normal (normal : ∀ op ∈ operands, Normal loose op) :
    Normal loose (makeOrPredicate hasher operands) := by
  have flat : ∀ op ∈ operands, op.Flat :=
    fun op member => (normal op member).flat
  have partNormal : ∀ op ∈ operands, ∀ part ∈ op.parts .kOr,
      Normal loose part := by
    intro op member part isPart
    have opNormal := normal op member
    cases opNormal with
    | or several orFlat each => exact each part isPart
    | _ =>
        rw [Predicate.eq_of_mem_parts (by simp [Predicate.kind]) isPart]
        exact normal _ member
  rcases makeOrPredicate_cases hasher flat with members | ⟨made, _⟩ |
    ⟨sorted, made, distinct, several, members⟩
  · obtain ⟨op, member, isPart⟩ :=
      (members (makeOrPredicate hasher operands)).mp rfl
    exact partNormal op member _ isPart
  · exact made ▸ normal_true
  · rw [made]
    apply Normal.or several
    · intro part isIn
      obtain ⟨op, member, isPart⟩ := (members part).mp isIn
      exact (flat op member).parts isPart
    · intro part isIn
      obtain ⟨op, member, isPart⟩ := (members part).mp isIn
      exact partNormal op member part isPart

end Normal

section Final

variable {graph : Graph} {order : graph.Enumeration} {hasher : Hasher}
  {predicate_map final : PredicateMap} {n : Node} {s : Assignment}

/-- The tensors whose symbol stands in their own predicate. -/
def LooseIn (final : PredicateMap) (tensor_id : TensorId) : Prop :=
  ∃ pred, final tensor_id = some pred ∧
    .symbol tensor_id false ∈ pred.parts .kAnd

def AllNormal (final predicate_map : PredicateMap) : Prop :=
  ∀ tensor_id pred, predicate_map tensor_id = some pred →
    Normal (LooseIn final) pred

theorem incoming_mem {edge_kind : EdgeKind} {preds : List Predicate}
    (success : getIncomingPreds order predicate_map n edge_kind = .ok preds) :
    (∀ pred ∈ preds, ∃ edge ∈ order.in_edges n.id,
      shouldProcess edge_kind edge = true ∧
      predicate_map (inputEdgeToTensorId graph edge) = some pred) ∧
    ∀ edge ∈ order.in_edges n.id, shouldProcess edge_kind edge = true →
      ∃ pred ∈ preds, predicate_map (inputEdgeToTensorId graph edge) =
        some pred := by
  have found := findPreds_ok success
  generalize atEdges :
      (order.in_edges n.id).filter (shouldProcess edge_kind) = edges
    at found
  have inside : ∀ edge ∈ edges,
      edge ∈ order.in_edges n.id ∧ shouldProcess edge_kind edge = true := by
    intro edge member
    rw [← atEdges] at member
    exact List.mem_filter.mp member
  have covered : ∀ edge ∈ order.in_edges n.id,
      shouldProcess edge_kind edge = true →
      edge ∈ edges := by
    intro edge member process
    rw [← atEdges]
    exact List.mem_filter.mpr ⟨member, process⟩
  clear atEdges success
  have both : (∀ pred ∈ preds, ∃ edge ∈ edges,
      predicate_map (inputEdgeToTensorId graph edge) = some pred) ∧
      ∀ edge ∈ edges, ∃ pred ∈ preds,
        predicate_map (inputEdgeToTensorId graph edge) = some pred := by
    clear inside covered
    induction found with
    | nil => simp
    | @cons edge pred edges preds atHead _ ih =>
        constructor
        · intro candidate member
          rcases List.mem_cons.mp member with rfl | later
          · exact ⟨edge, by simp, atHead⟩
          · obtain ⟨other, inRest, same⟩ := ih.1 candidate later
            exact ⟨other, by simp [inRest], same⟩
        · intro candidate member
          rcases List.mem_cons.mp member with rfl | later
          · exact ⟨pred, by simp, atHead⟩
          · obtain ⟨other, inRest, same⟩ := ih.2 candidate later
            exact ⟨other, by simp [inRest], same⟩
  constructor
  · intro pred member
    obtain ⟨edge, inEdges, same⟩ := both.1 pred member
    exact ⟨edge, (inside edge inEdges).1, (inside edge inEdges).2, same⟩
  · intro edge member process
    exact both.2 edge (covered edge member process)

theorem liveUnder_edge {edge : Edge} {pred : Predicate}
    (found : predicate_map (inputEdgeToTensorId graph edge) = some pred) :
    liveUnder s graph predicate_map edge.src edge.src_output = pred.eval s := by
  have found : predicate_map (tensorId graph edge.src edge.src_output) =
      some pred := found
  rw [liveUnder, found, Option.any_some]

theorem eval_inputs {preds : List Predicate}
    (success : getIncomingPreds order predicate_map n .kDataAndControl =
      .ok preds) :
    (∀ pred ∈ preds, pred.eval s = true) ↔
      inputsLive order (liveUnder s graph predicate_map) n = true := by
  obtain ⟨fromEdges, toPreds⟩ := incoming_mem success
  rw [inputsLive, List.all_eq_true]
  constructor
  · intro all edge member
    obtain ⟨pred, inPreds, found⟩ :=
      toPreds edge member (by simp [shouldProcess])
    rw [liveUnder_edge found]
    exact all pred inPreds
  · intro all pred member
    obtain ⟨edge, inEdges, _, found⟩ := fromEdges pred member
    rw [← liveUnder_edge found]
    exact all edge inEdges

theorem eval_dataInputs {preds : List Predicate}
    (success : getIncomingPreds order predicate_map n .kDataOnly = .ok preds) :
    (∃ pred ∈ preds, pred.eval s = true) ↔
      someDataInputLive order (liveUnder s graph predicate_map) n = true := by
  obtain ⟨fromEdges, toPreds⟩ := incoming_mem success
  rw [someDataInputLive, List.any_eq_true]
  constructor
  · rintro ⟨pred, member, isTrue⟩
    obtain ⟨edge, inEdges, isData, found⟩ := fromEdges pred member
    refine ⟨edge, inEdges, ?_⟩
    rw [liveUnder_edge found, isTrue]
    simpa [shouldProcess] using isData
  · rintro ⟨edge, member, isTrue⟩
    rw [Bool.and_eq_true] at isTrue
    obtain ⟨pred, inPreds, found⟩ := toPreds edge member
      (by simpa [shouldProcess] using isTrue.1)
    refine ⟨pred, inPreds, ?_⟩
    rw [← liveUnder_edge found]
    exact isTrue.2

theorem incoming_normal (normal : AllNormal final predicate_map)
    {edge_kind : EdgeKind} {preds : List Predicate}
    (success : getIncomingPreds order predicate_map n edge_kind = .ok preds) :
    ∀ pred ∈ preds, Normal (LooseIn final) pred := by
  intro pred member
  obtain ⟨edge, _, _, found⟩ := (incoming_mem success).1 pred member
  exact normal _ _ found

theorem eval_inputs_and {found : List Predicate}
    (normal : AllNormal final final)
    (success : getIncomingPreds order final n .kDataAndControl = .ok found)
    {last : Predicate} (lastFlat : last.Flat) :
    (makeAndPredicate hasher (found ++ [last])).eval s =
      (inputsLive order (liveUnder s graph final) n && last.eval s) := by
  have flat : ∀ op ∈ found ++ [last], op.Flat := by
    intro op member
    rcases List.mem_append.mp member with inFound | isLast
    · exact (incoming_normal normal success op inFound).flat
    · rw [List.mem_singleton] at isLast
      rwa [isLast]
  rw [Bool.eq_iff_iff, Bool.and_eq_true, eval_makeAndPredicate hasher flat,
    ← eval_inputs success]
  constructor
  · intro all
    exact ⟨fun op member => all op (by simp [member]), all last (by simp)⟩
  · rintro ⟨all, isTrue⟩ op member
    rcases List.mem_append.mp member with inFound | isLast
    · exact all op inFound
    · rw [List.mem_singleton] at isLast
      rwa [isLast]

theorem eval_inputs_makeAnd {found : List Predicate}
    (normal : AllNormal final final)
    (success : getIncomingPreds order final n .kDataAndControl = .ok found) :
    (makeAndPredicate hasher found).eval s =
      inputsLive order (liveUnder s graph final) n := by
  rw [Bool.eq_iff_iff, ← eval_inputs success, eval_makeAndPredicate hasher]
  intro op member
  exact (incoming_normal normal success op member).flat

theorem handleMerge_ok {preds : List (Int × Predicate)}
    (success : handleMerge hasher order predicate_map n = .ok preds) :
    ∃ found, mergePred hasher order predicate_map n = .ok found ∧
      (0, found) ∈ preds ∧
      ∀ entry ∈ preds, entry.2 = found := by
  obtain ⟨found, atMerge, success⟩ := bind_ok success
  obtain rfl := Except.ok.inj success
  exact ⟨found, atMerge, by simp, by simp⟩

theorem handleRecv_ok {preds : List (Int × Predicate)}
    (success : handleRecv hasher order predicate_map n = .ok preds) :
    ∃ found, getIncomingPreds order predicate_map n .kDataAndControl =
      .ok found ∧
      (0, makeAndPredicate hasher
        (found ++ [makeSymbolPredicate ⟨n.name, 0⟩ false])) ∈ preds ∧
      ∀ entry ∈ preds, entry.2 =
        makeAndPredicate hasher
          (found ++ [makeSymbolPredicate ⟨n.name, 0⟩ false]) := by
  obtain ⟨found, atInputs, success⟩ := bind_ok success
  obtain rfl := Except.ok.inj success
  exact ⟨found, atInputs, by simp, by simp⟩

theorem handleGeneric_ok {preds : List (Int × Predicate)}
    (success : handleGeneric hasher order predicate_map n = .ok preds) :
    ∃ found, getIncomingPreds order predicate_map n .kDataAndControl =
      .ok found ∧
      ∀ entry ∈ preds, entry.2 = makeAndPredicate hasher found := by
  obtain ⟨found, atInputs, success⟩ := bind_ok success
  obtain rfl := Except.ok.inj success
  refine ⟨found, atInputs, ?_⟩
  intro entry member
  rcases List.mem_append.mp member with output | control
  · obtain ⟨_, _, rfl⟩ := List.mem_map.mp output
    rfl
  · rw [List.mem_singleton] at control
    rw [control]

theorem handleSwitch_fires (normal : AllNormal final final)
    (isSwitch : n.isSwitch = true) {preds : List (Int × Predicate)}
    (success : handleSwitch hasher order final n = .ok preds) :
    ∀ entry ∈ preds,
      entry.2.eval s = fires order s (liveUnder s graph final) n entry.1 := by
  obtain ⟨found, atInputs, success⟩ := bind_ok success
  obtain ⟨pred_edge, atEdge, success⟩ := bind_ok success
  obtain rfl := Except.ok.inj success
  have steers : steering order s n =
      s (inputEdgeToTensorId graph pred_edge) true := by
    rw [steering, atEdge]
  intro entry member
  simp only [List.mem_cons, List.not_mem_nil, or_false] at member
  rw [fires, if_pos isSwitch, steers]
  rcases member with rfl | rfl | rfl
  · simp only [if_true]
    rw [eval_inputs_and normal atInputs
      (by simp [Flat, makeNotPredicate, operands]), makeNotPredicate, eval_not,
      makeSymbolPredicate, eval_symbol]
  · simp only [one_ne_zero, if_false, if_true]
    rw [eval_inputs_and normal atInputs
      (by simp [Flat, makeSymbolPredicate, operands]), makeSymbolPredicate,
      eval_symbol]
  · have notFalse : kControlSlot ≠ 0 := by decide
    have notTrue : kControlSlot ≠ 1 := by decide
    simp only [notFalse, notTrue, if_false, Bool.and_true]
    exact eval_inputs_makeAnd normal atInputs

theorem handleMerge_fires (normal : AllNormal final final)
    (notSwitch : n.isSwitch ≠ true) (isMerge : n.isMerge = true)
    {preds : List (Int × Predicate)}
    (success : handleMerge hasher order final n = .ok preds) :
    ∀ entry ∈ preds,
      entry.2.eval s = fires order s (liveUnder s graph final) n entry.1 := by
  obtain ⟨found, atMerge, _, all⟩ := handleMerge_ok success
  intro entry member
  rw [all entry member, fires, if_neg notSwitch, if_pos isMerge]
  unfold mergePred at atMerge
  split_ifs at atMerge ⊢ with backedge
  · obtain rfl := Except.ok.inj atMerge
    rw [makeSymbolPredicate, eval_symbol]
  · obtain ⟨inputs, atInputs, made⟩ := bind_ok atMerge
    obtain rfl := Except.ok.inj made
    rw [Bool.eq_iff_iff, ← eval_dataInputs atInputs,
      eval_makeOrPredicate hasher]
    intro op member
    exact (incoming_normal normal atInputs op member).flat

theorem handleRecv_fires (normal : AllNormal final final)
    (notSwitch : n.isSwitch ≠ true) (notMerge : n.isMerge ≠ true)
    (notTrigger : n.isControlTrigger ≠ true)
    (isRecv : (n.isRecv || n.isHostRecv) = true)
    {preds : List (Int × Predicate)}
    (success : handleRecv hasher order final n = .ok preds) :
    ∀ entry ∈ preds,
      entry.2.eval s = fires order s (liveUnder s graph final) n entry.1 := by
  obtain ⟨found, atInputs, _, all⟩ := handleRecv_ok success
  intro entry member
  rw [all entry member, fires, if_neg notSwitch, if_neg notMerge,
    if_neg notTrigger, if_pos isRecv,
    eval_inputs_and normal atInputs
      (by simp [Flat, makeSymbolPredicate, operands]),
    makeSymbolPredicate, eval_symbol]

theorem handleGeneric_fires (normal : AllNormal final final)
    (notSwitch : n.isSwitch ≠ true) (notMerge : n.isMerge ≠ true)
    (notTrigger : n.isControlTrigger ≠ true)
    (notRecv : (n.isRecv || n.isHostRecv) ≠ true)
    {preds : List (Int × Predicate)}
    (success : handleGeneric hasher order final n = .ok preds) :
    ∀ entry ∈ preds,
      entry.2.eval s = fires order s (liveUnder s graph final) n entry.1 := by
  obtain ⟨found, atInputs, all⟩ := handleGeneric_ok success
  intro entry member
  rw [fires, if_neg notSwitch, if_neg notMerge, if_neg notTrigger,
    if_neg notRecv, all entry member]
  exact eval_inputs_makeAnd normal atInputs

/-- The predicates of a node say when its outputs fire. -/
theorem Handled.fires {preds : List (Int × Predicate)}
    (handled : Handled hasher order final n preds)
    (normal : AllNormal final final) :
    ∀ entry ∈ preds,
      entry.2.eval s = fires order s (liveUnder s graph final) n entry.1 := by
  obtain ⟨success, _⟩ := handled
  unfold handle at success
  split_ifs at success with isSwitch isMerge isTrigger isRecv
  · exact handleSwitch_fires normal isSwitch success
  · exact handleMerge_fires normal isSwitch isMerge success
  · obtain rfl := Except.ok.inj success
    intro entry member
    rw [List.mem_singleton] at member
    subst member
    rw [Deadness.fires, if_neg isSwitch, if_neg isMerge, if_pos isTrigger]
    simp only [makeTrue]
    rw [eval_makeAndPredicate hasher (by simp)]
    simp
  · exact handleRecv_fires normal isSwitch isMerge isTrigger isRecv success
  · exact handleGeneric_fires normal isSwitch isMerge isTrigger isRecv success

theorem makeAndPredicate_append_normal {loose : TensorId → Prop}
    {found : List Predicate} {last : Predicate}
    (inputs : ∀ op ∈ found, Normal loose op)
    (joins : Joins loose (found ++ [last]) last) :
    Normal loose (makeAndPredicate hasher (found ++ [last])) := by
  apply makeAndPredicate_normal
  intro op isOperand
  rcases List.mem_append.mp isOperand with inFound | isLast
  · exact .inl (inputs op inFound)
  · rw [List.mem_singleton] at isLast
    rwa [isLast]

section Handlers

variable {preds : List (Int × Predicate)}
  (normal : AllNormal final predicate_map)

include normal

theorem handleSwitch_normal (legal : ∀ edge ∈ order.in_edges n.id,
      LegalName (inputEdgeToTensorId graph edge).name)
    (extend : Extends predicate_map final)
    (success : handleSwitch hasher order predicate_map n = .ok preds) :
    ∀ entry ∈ preds, Normal (LooseIn final) entry.2 := by
  obtain ⟨found, atInputs, success⟩ := bind_ok success
  obtain ⟨pred_edge, atEdge, success⟩ := bind_ok success
  obtain rfl := Except.ok.inj success
  have inEdges := (Node.input_edge_ok atEdge).1
  have legalEdge := legal pred_edge inEdges
  have inputs := incoming_normal normal atInputs
  -- the steering tensor is an input, so its own predicate is an operand
  have partner : LooseIn final (inputEdgeToTensorId graph pred_edge) →
      ∃ other ∈ found, .symbol (inputEdgeToTensorId graph pred_edge) false ∈
        other.parts .kAnd := by
    rintro ⟨pred, atFinal, isPart⟩
    obtain ⟨other, inFound, atMap⟩ :=
      (incoming_mem atInputs).2 pred_edge inEdges (by simp [shouldProcess])
    have same := extend _ _ atMap
    rw [atFinal, Option.some.injEq] at same
    exact ⟨other, inFound, same ▸ isPart⟩
  intro entry isEntry
  simp only [List.mem_cons, List.not_mem_nil, or_false] at isEntry
  rcases isEntry with rfl | rfl | rfl
  · exact makeAndPredicate_append_normal inputs (.inl (.not legalEdge))
  · apply makeAndPredicate_append_normal inputs
    refine .inr ⟨_, legalEdge, rfl, fun isLoose => ?_⟩
    obtain ⟨other, inFound, isPart⟩ := partner isLoose
    exact ⟨other, by simp [inFound], isPart⟩
  · exact makeAndPredicate_normal fun op isOperand => .inl (inputs op isOperand)

theorem handleMerge_normal (legal : LegalName n.name)
    (success : handleMerge hasher order predicate_map n = .ok preds)
    (set : ∀ entry ∈ preds, final ⟨n.name, entry.1⟩ = some entry.2) :
    ∀ entry ∈ preds, Normal (LooseIn final) entry.2 := by
  obtain ⟨found, atMerge, inPreds, all⟩ := handleMerge_ok success
  intro entry isEntry
  rw [all entry isEntry]
  unfold mergePred at atMerge
  split_ifs at atMerge with backedge
  · obtain rfl := Except.ok.inj atMerge
    apply Normal.loose legal
    refine ⟨_, set _ inPreds, ?_⟩
    simp [makeSymbolPredicate, Predicate.parts, Predicate.kind]
  · obtain ⟨inputs, atInputs, made⟩ := bind_ok atMerge
    obtain rfl := Except.ok.inj made
    exact makeOrPredicate_normal (incoming_normal normal atInputs)

theorem handleRecv_normal (legal : LegalName n.name)
    (success : handleRecv hasher order predicate_map n = .ok preds)
    (set : ∀ entry ∈ preds, final ⟨n.name, entry.1⟩ = some entry.2) :
    ∀ entry ∈ preds, Normal (LooseIn final) entry.2 := by
  obtain ⟨found, atInputs, inPreds, all⟩ := handleRecv_ok success
  have inputs := incoming_normal normal atInputs
  have flat : ∀ op ∈ found ++ [makeSymbolPredicate ⟨n.name, 0⟩ false],
      op.Flat := by
    intro op isOperand
    rcases List.mem_append.mp isOperand with inFound | isLast
    · exact (inputs op inFound).flat
    · rw [List.mem_singleton] at isLast
      rw [isLast]
      simp [Flat, makeSymbolPredicate, operands]
  intro entry isEntry
  rw [all entry isEntry]
  rcases makeAndPredicate_parts hasher flat with isFalse | keeps
  · rw [isFalse]
    exact normal_false
  · apply makeAndPredicate_append_normal inputs
    refine .inl (.loose legal ⟨_, set _ inPreds, ?_⟩)
    apply keeps (makeSymbolPredicate ⟨n.name, 0⟩ false) (by simp)
    simp [makeSymbolPredicate, Predicate.parts, Predicate.kind]

theorem handleGeneric_normal
    (success : handleGeneric hasher order predicate_map n = .ok preds) :
    ∀ entry ∈ preds, Normal (LooseIn final) entry.2 := by
  obtain ⟨found, atInputs, all⟩ := handleGeneric_ok success
  intro entry isEntry
  rw [all entry isEntry]
  exact makeAndPredicate_normal fun op isOperand =>
    .inl (incoming_normal normal atInputs op isOperand)

end Handlers

theorem handle_normal (wf : graph.WF)
    (legal : ∀ node ∈ graph.nodes, LegalName node.name)
    (member : n ∈ graph.nodes) (normal : AllNormal final predicate_map)
    (extend : Extends predicate_map final) {preds : List (Int × Predicate)}
    (success : handle hasher order predicate_map n = .ok preds)
    (set : ∀ entry ∈ preds, final ⟨n.name, entry.1⟩ = some entry.2) :
    ∀ entry ∈ preds, Normal (LooseIn final) entry.2 := by
  have legalSource : ∀ edge ∈ order.in_edges n.id,
      LegalName (inputEdgeToTensorId graph edge).name := by
    intro edge inEdges
    have inGraph := ((order.mem_in_edges n.id edge).mp inEdges).1
    exact legal _ (wf.node_mem (wf.src edge inGraph)).1
  unfold handle at success
  split_ifs at success with isSwitch isMerge isTrigger isRecv
  · exact handleSwitch_normal normal legalSource extend success
  · exact handleMerge_normal normal (legal n member) success set
  · obtain rfl := Except.ok.inj success
    intro entry isEntry
    rw [List.mem_singleton] at isEntry
    rw [isEntry]
    have isTrue : Normal (LooseIn final) (makeAndPredicate hasher []) :=
      makeAndPredicate_normal (by simp)
    exact isTrue
  · exact handleRecv_normal normal (legal n member) success set
  · exact handleGeneric_normal normal success

theorem populateFrom_normal (wf : graph.WF)
    (legal : ∀ node ∈ graph.nodes, LegalName node.name) {rpo : List Node}
    (inside : ∀ node ∈ rpo, node ∈ graph.nodes)
    (normal : AllNormal final predicate_map)
    (success : populateFrom hasher order rpo predicate_map = .ok final) :
    AllNormal final final := by
  induction rpo generalizing predicate_map with
  | nil =>
      obtain rfl := Except.ok.inj success
      exact normal
  | cons n rpo ih =>
      have whole := populateFrom_extends success
      obtain ⟨preds, handled, success⟩ := bind_ok success
      obtain ⟨middle, set, rest⟩ := bind_ok success
      obtain ⟨_, setAll, only⟩ := setPreds_ok set
      have later := populateFrom_extends rest
      have nodeNormal :=
        handle_normal wf legal (inside n (by simp)) normal whole handled
          (fun entry isEntry => later _ _ (setAll entry isEntry))
      apply ih (fun node member => inside node (by simp [member])) _ rest
      intro tensor_id pred found
      rcases only tensor_id pred found with old | ⟨entry, isEntry, _, same⟩
      · exact normal tensor_id pred old
      · rw [same]
        exact nodeNormal entry isEntry

/-- What a successful analysis leaves behind. -/
structure Analysed (hasher : Hasher) (order : graph.Enumeration)
    (final : PredicateMap) : Prop where
  normal : AllNormal final final
  handled : ∀ {tensor_id pred}, final tensor_id = some pred →
    ∃ n ∈ graph.nodes, ∃ preds, Handled hasher order final n preds ∧
      ∃ entry ∈ preds, tensor_id = ⟨n.name, entry.1⟩ ∧ pred = entry.2

theorem populate_analysed (wf : graph.WF)
    (legal : ∀ node ∈ graph.nodes, LegalName node.name)
    (success : populate hasher order = .ok final) :
    Analysed hasher order final where
  normal := populateFrom_normal wf legal order.rpoInside
    (by simp [AllNormal]) success
  handled := by
    intro tensor_id pred found
    rcases populateFrom_handled success found with old | ⟨n, member, rest⟩
    · simp at old
    · exact ⟨n, order.rpoInside n member, rest⟩

/-- Deadness analysis computes liveness: an output that has a predicate is
live exactly when its node fires it. -/
theorem populate_fires (wf : graph.WF)
    (legal : ∀ node ∈ graph.nodes, LegalName node.name)
    (success : populate hasher order = .ok final) {node : Node}
    (member : node ∈ graph.nodes) {slot : Int} {pred : Predicate}
    (found : final ⟨node.name, slot⟩ = some pred) :
    pred.eval s = fires order s (liveUnder s graph final) node slot := by
  have analysed := populate_analysed wf legal success
  obtain ⟨n, nMember, preds, handled, entry, isEntry, same, rfl⟩ :=
    analysed.handled found
  obtain ⟨sameName, rfl⟩ := TensorId.mk.inj same
  obtain rfl := wf.name_injective member nMember sameName
  exact handled.fires analysed.normal entry isEntry

end Final

end NGraphBridge.Deadness
