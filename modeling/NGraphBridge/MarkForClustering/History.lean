import NGraphBridge.Lib.Machine
import NGraphBridge.MarkForClustering.Pass

/-!
# Disabled operations over a history of calls

The confirmation map is a static variable that is rebuilt only when the
disabled set differs from the one seen last.  The set seen last is stored
before it is validated, so a rejected set is not validated a second time.
-/

namespace NGraphBridge.MarkForClustering

open TF

namespace ConfirmationMap

theorem contains_iff {map : ConfirmationMap} {op : String} :
    map.contains op = true ↔ ∃ confirm, map.find op = some confirm := by
  induction map with
  | nil => simp [contains, find]
  | cons entry map ih =>
      obtain ⟨key, confirm⟩ := entry
      by_cases same : key = op
      · subst same
        simp [contains, find]
      · have different : (op == key) = false := by simpa using Ne.symm same
        simpa [contains, find, List.lookup_cons, same, different] using ih

theorem find_erase (map : ConfirmationMap) (op candidate : String) :
    (map.erase op).find candidate =
      if candidate = op then none else map.find candidate := by
  induction map with
  | nil => simp [erase, find]
  | cons entry map ih =>
      obtain ⟨key, confirm⟩ := entry
      by_cases erased : key = op
      · subst erased
        by_cases same : candidate = key
        · subst same
          simpa [erase, find] using ih
        · have different : (candidate == key) = false := by simpa using same
          simpa [erase, find, List.lookup_cons, same, different] using ih
      · have kept : erase ((key, confirm) :: map) op =
            (key, confirm) :: erase map op := by
          simp [erase, erased]
        rw [kept]
        by_cases same : candidate = key
        · subst same
          simp [find, erased]
        · have different : (candidate == key) = false := by simpa using same
          simpa [find, List.lookup_cons, different] using ih

theorem contains_erase {map : ConfirmationMap} {op candidate : String} :
    (map.erase op).contains candidate = true ↔
      candidate ≠ op ∧ map.contains candidate = true := by
  rw [contains_iff, contains_iff, find_erase]
  by_cases same : candidate = op <;> simp [same]

end ConfirmationMap

theorem eraseDisabled_ok {ops : List String} {map : ConfirmationMap}
    (success : (eraseDisabled ops map).2 = .ok ()) :
    (∀ op ∈ ops, map.contains op = true) ∧
      ∀ op, (eraseDisabled ops map).1.find op =
        if op ∈ ops then none else map.find op := by
  induction ops generalizing map with
  | nil => simp [eraseDisabled]
  | cons head ops ih =>
      by_cases present : map.contains head = true
      · simp only [eraseDisabled, present, if_true] at success ⊢
        obtain ⟨supported, lookups⟩ := ih success
        constructor
        · intro op member
          rcases List.mem_cons.mp member with rfl | later
          · exact present
          · exact (ConfirmationMap.contains_erase.mp (supported op later)).2
        · intro op
          rw [lookups op, ConfirmationMap.find_erase]
          by_cases inTail : op ∈ ops <;> by_cases same : op = head <;>
            simp [inTail, same]
      · simp [eraseDisabled, present] at success

/-- Whether or not it succeeds, erasing leaves entries of the given map. -/
theorem eraseDisabled_find {ops : List String} {map : ConfirmationMap}
    {op : String} {confirm : ConfirmationFunction}
    (entry : (eraseDisabled ops map).1.find op = some confirm) :
    map.find op = some confirm := by
  induction ops generalizing map with
  | nil => exact entry
  | cons head ops ih =>
      by_cases present : map.contains head = true
      · simp only [eraseDisabled, present, if_true] at entry
        have kept := ih entry
        rw [ConfirmationMap.find_erase] at kept
        by_cases same : op = head
        · simp [same] at kept
        · simpa [same] using kept
      · simpa [eraseDisabled, present] using entry

theorem eraseDisabled_of_supported {ops : List String} {map : ConfirmationMap}
    (distinct : ops.Nodup) (supported : ∀ op ∈ ops, map.contains op = true) :
    (eraseDisabled ops map).2 = .ok () := by
  induction ops generalizing map with
  | nil => rfl
  | cons head ops ih =>
      obtain ⟨fresh, distinctTail⟩ := List.nodup_cons.mp distinct
      have present : map.contains head = true := supported head (by simp)
      simp only [eraseDisabled, present, if_true]
      apply ih distinctTail
      intro op member
      refine ConfirmationMap.contains_erase.mpr
        ⟨?_, supported op (by simp [member])⟩
      rintro rfl
      exact fresh member

/-- Every operation of the set has a confirmation function. -/
def Supported (ops : OrderedSet String) : Prop :=
  ∀ op ∈ ops, getConfirmationMap.contains op = true

/-- The confirmation map is the table without the disabled operations. -/
def Excludes (map : ConfirmationMap) (ops : OrderedSet String) : Prop :=
  ∀ op, map.find op = if op ∈ ops then none else getConfirmationMap.find op

/-- Between calls the map holds entries of the table, and excludes exactly
the set seen last, provided that set is one the table supports. -/
structure Statics.Inv (statics : Statics) : Prop where
  subset : ∀ op confirm, statics.confirmation_function_map.find op =
    some confirm →
    getConfirmationMap.find op = some confirm
  fresh : statics.initialized = false → statics.disabled_ops_set = ∅
  excludes : statics.initialized = true →
    Supported statics.disabled_ops_set →
      Excludes statics.confirmation_function_map statics.disabled_ops_set

theorem Statics.Inv.init : Statics.init.Inv := by
  constructor
  · intro op confirm entry
    exact entry
  · intro _
    rfl
  · intro started
    simp [Statics.init] at started

theorem excludes_empty : Excludes getConfirmationMap ∅ := by
  intro op
  simp

theorem updateStatics_changed {statics : Statics} {ops : OrderedSet String}
    (changed : ops ≠ statics.disabled_ops_set) :
    updateStatics statics ops =
      ({ confirmation_function_map :=
            (eraseDisabled ops.elems getConfirmationMap).1
         disabled_ops_set := ops
         initialized := true },
        (eraseDisabled ops.elems getConfirmationMap).2) := by
  simp [updateStatics, changed]

theorem updateStatics_unchanged (statics : Statics) :
    updateStatics statics statics.disabled_ops_set =
      (if statics.initialized then statics
        else { statics with
          confirmation_function_map := getConfirmationMap
          initialized := true }, .ok ()) := by
  cases started : statics.initialized <;> simp [updateStatics, started]

theorem updateStatics_inv {statics : Statics} (inv : statics.Inv)
    (ops : OrderedSet String) : (updateStatics statics ops).1.Inv := by
  by_cases changed : ops = statics.disabled_ops_set
  · subst changed
    rw [updateStatics_unchanged]
    cases started : statics.initialized
    · constructor
      · intro op confirm entry
        exact entry
      · simp
      · intro _ _
        simpa [inv.fresh started] using excludes_empty
    · simpa [started] using inv
  · rw [updateStatics_changed changed]
    constructor
    · intro op confirm entry
      exact eraseDisabled_find entry
    · simp
    · intro _ supported
      have success := eraseDisabled_of_supported
        (ops.sorted.imp (fun below => ne_of_lt below)) supported
      exact (eraseDisabled_ok success).2

/-- After a successful update the map excludes the set in force, unless that
set is an unsupported one that was already seen. -/
theorem updateStatics_ok {statics updated : Statics} (inv : statics.Inv)
    {ops : OrderedSet String}
    (validated : ops ≠ statics.disabled_ops_set ∨ Supported ops)
    (success : updateStatics statics ops = (updated, .ok ())) :
    Supported ops ∧ Excludes updated.confirmation_function_map ops := by
  by_cases changed : ops = statics.disabled_ops_set
  · have supported : Supported ops := validated.resolve_left (by simp [changed])
    have updatedInv := updateStatics_inv inv ops
    rw [success] at updatedInv
    subst changed
    rw [updateStatics_unchanged] at success
    refine ⟨supported, ?_⟩
    cases started : statics.initialized
    · simp only [started, Bool.false_eq_true, if_false, Prod.mk.injEq,
        and_true] at success
      rw [← success, inv.fresh started]
      exact excludes_empty
    · simp only [started, if_true, Prod.mk.injEq, and_true] at success
      rw [← success]
      exact inv.excludes started supported
  · rw [updateStatics_changed changed] at success
    simp only [Prod.mk.injEq] at success
    obtain ⟨rfl, status⟩ := success
    exact eraseDisabled_ok status

/-- A node without a confirmation function is skipped or not supported; only
such a node is not supported. -/
theorem examine_ok {backend : Backend} {map : ConfirmationMap}
    {skip_these_nodes : OrderedSet String} {node : Node} {verdict : Verdict}
    (success : examine backend map skip_these_nodes node = .ok verdict) :
    (map.find node.type_string = none ∧
        (verdict = .skipped ∨ verdict = .opNotSupported)) ∨
      (∃ confirm, map.find node.type_string = some confirm ∧
        verdict ≠ .opNotSupported) := by
  unfold examine at success
  cases found : map.find node.type_string with
  | none =>
      have absent : map.contains node.type_string = false := by
        by_contra present
        obtain ⟨confirm, entry⟩ :=
          ConfirmationMap.contains_iff.mp (by simpa using present)
        simp [found] at entry
      refine .inl ⟨rfl, ?_⟩
      by_cases skip : checkIfOutputNode node skip_these_nodes = true
      · simp [skip] at success
        exact .inl success.symm
      · simp [skip, nGraphPlacementRequested, confirmationOk, found, absent,
          bind, Except.bind, pure, Except.pure] at success
        exact .inr success.symm
  | some confirm =>
      have present : map.contains node.type_string = true :=
        ConfirmationMap.contains_iff.mpr ⟨confirm, found⟩
      refine .inr ⟨confirm, rfl, ?_⟩
      rintro rfl
      simp only [confirmationOk, found, present, nGraphPlacementRequested, bind,
        Except.bind, pure, Except.pure] at success
      cases confirmed : confirm node with
      | error error =>
          rw [confirmed] at success
          split_ifs at success <;> simp at success
      | ok confirmation_constraint_ok =>
          rw [confirmed] at success
          cases confirmation_constraint_ok <;> simp at success <;>
            split_ifs at success <;> simp at success

theorem examineAll_mem {backend : Backend} {map : ConfirmationMap}
    {skip_these_nodes : OrderedSet String} {nodes : List Node}
    {verdicts : List (Node × Verdict)}
    (success : examineAll backend map skip_these_nodes nodes = .ok verdicts)
    {node : Node} {verdict : Verdict} (member : (node, verdict) ∈ verdicts) :
    examine backend map skip_these_nodes node = .ok verdict := by
  induction nodes generalizing verdicts with
  | nil =>
      simp only [examineAll, Except.ok.injEq] at success
      subst success
      simp at member
  | cons head nodes ih =>
      simp only [examineAll, bind, Except.bind] at success
      cases first : examine backend map skip_these_nodes head with
      | error error => simp [first] at success
      | ok headVerdict =>
          cases rest : examineAll backend map skip_these_nodes nodes with
          | error error => simp [first, rest] at success
          | ok tailVerdicts =>
              simp only [first, rest, pure, Except.pure, Except.ok.injEq]
                at success
              subst success
              rcases List.mem_cons.mp member with same | later
              · simp only [Prod.mk.injEq] at same
                rw [same.1, same.2]
                exact first
              · exact ih rest later

/-- The loop gives every node a verdict when the confirmation functions do. -/
theorem examineAll_total {backend : Backend} {map : ConfirmationMap}
    {skip_these_nodes : OrderedSet String} {nodes : List Node}
    (confirms : ∀ node ∈ nodes, ∃ ok, confirmationOk node map = .ok ok) :
    ∃ verdicts, examineAll backend map skip_these_nodes nodes =
      .ok verdicts := by
  induction nodes with
  | nil => exact ⟨[], rfl⟩
  | cons head nodes ih =>
      obtain ⟨rest, restSuccess⟩ := ih (fun node member =>
        confirms node (by simp [member]))
      obtain ⟨ok, confirmed⟩ := confirms head (by simp)
      have first : ∃ verdict,
          examine backend map skip_these_nodes head = .ok verdict := by
        simp only [examine, confirmed, bind, Except.bind, pure, Except.pure]
        split_ifs <;> exact ⟨_, rfl⟩
      obtain ⟨verdict, firstSuccess⟩ := first
      exact ⟨(head, verdict) :: rest, by
        simp [examineAll, firstSuccess, restSuccess, bind, Except.bind, pure,
          Except.pure]⟩

/-- The variables that live as long as the process. -/
structure Process where
  disabled_op_types : OrderedSet String
  statics : Statics

def Process.init : Process where
  disabled_op_types := ∅
  statics := Statics.init

/-- A call of the interface.  A marking call sees the environment variable
`NGRAPH_TF_DISABLED_OPS` as it is at that moment. -/
inductive Call where
  | setDisabledOps (disabled_ops_set : OrderedSet String)
  | markForClustering (ngraph_tf_disabled_ops : Option String) (graph : Graph)
      (skip_these_nodes : OrderedSet String)

/-- A marking call as it was made: the disabled set in force, the static
variables and the graph before it, and what it left behind. -/
structure MarkCall where
  disabled : OrderedSet String
  statics : Statics
  graph : Graph
  outcome : Outcome

def process (backend : Backend) : Machine Process Call (Option MarkCall) where
  step state call :=
    match call with
    | .setDisabledOps disabled_ops_set =>
        ({ state with disabled_op_types := disabled_ops_set }, none)
    | .markForClustering ngraph_tf_disabled_ops graph skip_these_nodes =>
        let disabled :=
          Api.getDisabledOps ngraph_tf_disabled_ops state.disabled_op_types
        let outcome :=
          markForClustering backend state.statics disabled graph
            skip_these_nodes
        (⟨disabled, outcome.statics⟩,
          some ⟨disabled, state.statics, graph, outcome⟩)

/-- The marking calls of a run from the start of the process. -/
def markCalls (backend : Backend) (calls : List Call) : List MarkCall :=
  ((process backend).trace Process.init calls).filterMap Machine.Entry.output

/-- What a marking call owes its caller. -/
structure MarkCall.Correct (call : MarkCall) : Prop where
  marked : ∀ verdicts, call.outcome.result = .ok verdicts →
    ∀ node ∈ nodesMarkedForClustering verdicts,
      node.type_string ∉ call.disabled
  rejected : ∀ verdicts, call.outcome.result = .ok verdicts →
    ∀ node, (node, Verdict.opNotSupported) ∈ verdicts →
      node.type_string ∈ call.disabled ∨
        getConfirmationMap.contains node.type_string = false
  unsupported : ¬ Supported call.disabled →
    (∃ error, call.outcome.result = .error error) ∧
      call.outcome.graph = call.graph

/-- The set in force names an unsupported operation and is the very set the
preceding marking call saw. -/
def MarkCall.RepeatsUnsupportedSet (call : MarkCall) : Prop :=
  call.disabled = call.statics.disabled_ops_set ∧ ¬ Supported call.disabled

theorem process_preserves (backend : Backend) :
    (process backend).Preserves (fun state => state.statics.Inv) := by
  intro state call inv
  cases call with
  | setDisabledOps disabled_ops_set => exact inv
  | markForClustering ngraph_tf_disabled_ops graph skip_these_nodes =>
      let disabled :=
        Api.getDisabledOps ngraph_tf_disabled_ops state.disabled_op_types
      have updated := updateStatics_inv inv disabled
      simp only [process, markForClustering]
      split <;> rename_i update
      · simpa [disabled, update] using updated
      · split <;> simpa [disabled, update] using updated

/-- A marking call of a run started from static variables that satisfy the
invariant, and is the call the pass makes there. -/
theorem markCalls_spec {backend : Backend} {calls : List Call}
    {call : MarkCall} (member : call ∈ markCalls backend calls) :
    call.statics.Inv ∧ ∃ skip_these_nodes,
      call.outcome = markForClustering backend call.statics call.disabled
        call.graph skip_these_nodes := by
  obtain ⟨entry, inTrace, output⟩ := List.mem_filterMap.mp member
  have inv := (process_preserves backend).before Statics.Inv.init inTrace
  have step := Machine.trace_step inTrace
  cases input : entry.input with
  | setDisabledOps disabled_ops_set =>
      simp [process, input] at step
      simp [← step.2] at output
  | markForClustering ngraph_tf_disabled_ops graph skip_these_nodes =>
      simp only [process, input, Prod.mk.injEq] at step
      rw [← step.2, Option.some.injEq] at output
      subst output
      exact ⟨inv, skip_these_nodes, rfl⟩

/-- The errors and results of one call, read off its two phases. -/
theorem markForClustering_ok {backend : Backend} {statics : Statics}
    {disabled : OrderedSet String} {graph : Graph}
    {skip_these_nodes : OrderedSet String} {verdicts : List (Node × Verdict)}
    (success : (markForClustering backend statics disabled graph
      skip_these_nodes).result = .ok verdicts) :
    ∃ updated, updateStatics statics disabled = (updated, .ok ()) ∧
      examineAll backend updated.confirmation_function_map skip_these_nodes
        graph.op_nodes = .ok verdicts := by
  unfold markForClustering at success
  split at success
  · simp at success
  · rename_i updated update
    split at success
    · simp at success
    · rename_i found examined
      simp only [Except.ok.injEq] at success
      subst success
      exact ⟨updated, update, examined⟩

theorem markForClustering_error {backend : Backend} {statics : Statics}
    {disabled : OrderedSet String} {graph : Graph}
    {skip_these_nodes : OrderedSet String} {error : Error}
    (failure : (updateStatics statics disabled).2 = .error error) :
    (markForClustering backend statics disabled graph skip_these_nodes).result =
        .error error ∧
      (markForClustering backend statics disabled graph
        skip_these_nodes).graph =
        graph := by
  have update : updateStatics statics disabled =
      ((updateStatics statics disabled).1, .error error) := by
    rw [← failure]
  unfold markForClustering
  rw [update]
  exact ⟨rfl, rfl⟩

theorem markForClustering_correct {call : MarkCall} {backend : Backend}
    {skip_these_nodes : OrderedSet String} (inv : call.statics.Inv)
    (made : call.outcome = markForClustering backend call.statics call.disabled
      call.graph skip_these_nodes)
    (fresh : ¬ call.RepeatsUnsupportedSet) : call.Correct := by
  have validated :
      call.disabled ≠ call.statics.disabled_ops_set ∨
      Supported call.disabled := by
    by_cases supported : Supported call.disabled
    · exact .inr supported
    · exact .inl (fun same => fresh ⟨same, supported⟩)
  constructor
  · intro verdicts success node member
    rw [made] at success
    obtain ⟨updated, update, examined⟩ := markForClustering_ok success
    obtain ⟨_, excludes⟩ := updateStatics_ok inv validated update
    obtain ⟨⟨marked, verdict⟩, inVerdicts, rfl⟩ := List.mem_map.mp member
    obtain ⟨entry, accepted⟩ := List.mem_filter.mp inVerdicts
    have confirmed := examine_ok (examineAll_mem examined entry)
    have isAccepted : verdict = .accepted := by simpa using accepted
    subst isAccepted
    intro disabled
    rw [excludes, if_pos disabled] at confirmed
    simp at confirmed
  · intro verdicts success node member
    rw [made] at success
    obtain ⟨updated, update, examined⟩ := markForClustering_ok success
    obtain ⟨_, excludes⟩ := updateStatics_ok inv validated update
    have missing := examine_ok (examineAll_mem examined member)
    rw [excludes] at missing
    by_cases disabled : node.type_string ∈ call.disabled
    · exact .inl disabled
    · right
      by_contra present
      obtain ⟨confirm, entry⟩ :=
        ConfirmationMap.contains_iff.mp (by simpa using present)
      simp [disabled, entry] at missing
  · intro unsupported
    have changed := validated.resolve_right unsupported
    cases status : (updateStatics call.statics call.disabled).2 with
    | ok value =>
        exact absurd
          (updateStatics_ok inv validated (Prod.ext rfl status)).1 unsupported
    | error error =>
        rw [made]
        obtain ⟨result, graph⟩ := markForClustering_error status
        exact ⟨⟨error, result⟩, graph⟩

/-- The confirmation function of every op node of the graph gives a verdict. -/
def ConfirmationsSucceed (graph : Graph) : Prop :=
  ∀ node ∈ graph.op_nodes, ∀ confirm,
    getConfirmationMap.find node.type_string = some confirm →
      ∃ ok, confirm node = .ok ok

/-- A call that repeats the set seen last never fails in validation. -/
theorem markForClustering_repeated {backend : Backend} {statics : Statics}
    (inv : statics.Inv) {disabled : OrderedSet String}
    (repeated : disabled = statics.disabled_ops_set) {graph : Graph}
    (confirmations : ConfirmationsSucceed graph)
    (skip_these_nodes : OrderedSet String) :
    ∃ verdicts, (markForClustering backend statics disabled graph
      skip_these_nodes).result = .ok verdicts := by
  have updatedInv := updateStatics_inv inv disabled
  have status : (updateStatics statics disabled).2 = .ok () := by
    rw [repeated, updateStatics_unchanged]
  cases update : updateStatics statics disabled with
  | mk updated result =>
      rw [update] at updatedInv status
      simp only at updatedInv status
      subst status
      have confirms : ∀ node ∈ graph.op_nodes, ∃ ok,
          confirmationOk node updated.confirmation_function_map = .ok ok := by
        intro node member
        unfold confirmationOk
        cases found : updated.confirmation_function_map.find node.type_string
          with
        | none => exact ⟨false, rfl⟩
        | some confirm =>
            exact confirmations node member confirm
              (updatedInv.subset _ _ found)
      have examinedAll : ∃ verdicts, examineAll backend
          updated.confirmation_function_map skip_these_nodes graph.op_nodes =
            .ok verdicts :=
        examineAll_total confirms
      obtain ⟨verdicts, examined⟩ := examinedAll
      exact ⟨verdicts, by simp [markForClustering, update, examined]⟩

/-- In every run, a marking call that does not repeat an unsupported disabled
set does what it should; one that repeats it goes on to mark the graph. -/
theorem markCalls_correct (backend : Backend) (calls : List Call)
    (call : MarkCall) (member : call ∈ markCalls backend calls) :
    (¬ call.RepeatsUnsupportedSet → call.Correct) ∧
      (ConfirmationsSucceed call.graph → call.RepeatsUnsupportedSet →
        ¬ call.Correct) := by
  obtain ⟨inv, skip_these_nodes, made⟩ := markCalls_spec member
  refine ⟨markForClustering_correct inv made, ?_⟩
  intro confirmations repeats correct
  obtain ⟨⟨error, failed⟩, _⟩ := correct.unsupported repeats.2
  obtain ⟨verdicts, success⟩ :=
    markForClustering_repeated inv repeats.1 confirmations skip_these_nodes
  rw [made, success] at failed
  simp at failed

/-- One `Add` node between the source and the sink. -/
def addGraph : Graph where
  nodes := [
    ⟨0, "_SOURCE", "NoOp", [], [], [], "", []⟩,
    ⟨1, "_SINK", "NoOp", [], [], [], "", []⟩,
    ⟨2, "sum", "Add", [("T", .type .DT_FLOAT)], [.DT_FLOAT, .DT_FLOAT],
      [.DT_FLOAT], "", []⟩]
  edges := []

/-- Disable `Add` and an unknown operation, and mark the same graph twice. -/
def repeatedCalls : List Call := [
  .setDisabledOps (OrderedSet.ofList ["AInvalid", "Add"]),
  .markForClustering none addGraph ∅,
  .markForClustering none addGraph ∅]

def cpu : Backend := ⟨"CPU", fun _ => true⟩

theorem markCalls_repeated_marks_disabled :
    ∃ call ∈ markCalls cpu repeatedCalls, ¬ call.Correct := by
  refine ⟨(markCalls cpu repeatedCalls).get ⟨1, by decide⟩,
    List.get_mem _ _, ?_⟩
  intro correct
  refine correct.marked [(addGraph.nodes[2], .accepted)] rfl addGraph.nodes[2]
    (by decide) (by decide)

/-- The first of the calls above is validated and refused. -/
theorem markCalls_correct_first :
    ((markCalls cpu repeatedCalls).get ⟨0, by decide⟩).Correct :=
  (markCalls_correct cpu repeatedCalls _ (List.get_mem _ _)).1
    (fun repeats => absurd repeats.1 (by decide))

end NGraphBridge.MarkForClustering
