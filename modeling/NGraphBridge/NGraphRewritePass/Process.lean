import NGraphBridge.EncapsulateClusters.Values
import NGraphBridge.Lib.Machine
import NGraphBridge.NGraphRewritePass.Pass

/-!
# Rewrites and kernels in one process

All graphs of a process share one `ClusterManager`. A kernel is constructed from
an encapsulate node, whenever TensorFlow gets to it, and looks its cluster up by
id.
-/

namespace NGraphBridge.NGraphRewritePass

open TF AssignClusters EncapsulateClusters

/-- What the constructor of `NGraphEncapsulateOp` gets from the manager. -/
def constructKernel (manager : ClusterManager) (node : Node) :
    StatusOr (Option GraphDef) := do
  let m_cluster_id ← getNodeAttrInt node.attrs "ngraph_cluster"
  return manager.getClusterGraph m_cluster_id

/-- An encapsulate node, the graph that was stored for its cluster, and how many
evictions there had been. -/
structure Produced where
  node : Node
  gdef : GraphDef
  era : Nat

structure Process where
  statics : Statics
  produced : List Produced
  era : Nat

def Process.init : Process := ⟨.init, [], 0⟩

inductive Event where
  | rewrite (request : Request)
  | construct (index : Nat)

/-- The encapsulate nodes of a rewritten graph. -/
def producedBy (era : Nat) (outcome : EncapsulateClusters.Outcome) :
    List Produced :=
  outcome.enc.device_name_map.filterMap fun entry =>
    match outcome.rewritten.cluster_node_map entry.1,
        outcome.enc.manager.getClusterGraph entry.1 with
    | some id, some gdef => some ⟨outcome.rewritten.graph.node id, gdef, era⟩
    | _, _ => none

/-- Only the nodes of a call that succeeds are counted as produced: a call that
fails half-way can leave encapsulate nodes in its graph too. -/
def rewriteStep (bridge : Bridge) (state : Process) (request : Request) :
    Process :=
  match rewrite bridge request state.statics with
  | (statics, .skipped) => ⟨statics, state.produced, state.era + 1⟩
  | (statics, .failed _) => ⟨statics, state.produced, state.era⟩
  | (statics, .rewritten outcome) =>
      ⟨statics, state.produced ++ producedBy state.era outcome, state.era⟩

def process (bridge : Bridge) :
    Machine Process Event (Option (StatusOr (Option GraphDef))) where
  step state event :=
    match event with
    | .rewrite request => (rewriteStep bridge state request, none)
    | .construct index =>
        (state, (state.produced[index]?).map
          fun produced => constructKernel state.statics.manager produced.node)

/-- The kernel of a node finds the graph of its own cluster. -/
def Finds (manager : ClusterManager) (produced : Produced) : Prop :=
  constructKernel manager produced.node = .ok (some produced.gdef)

instance (manager : ClusterManager) (produced : Produced) :
    Decidable (Finds manager produced) :=
  inferInstanceAs (Decidable (_ = _))

/-- A node produced since the last eviction finds its graph. -/
structure Process.Inv (state : Process) : Prop where
  past : ∀ produced ∈ state.produced, produced.era ≤ state.era
  finds : ∀ produced ∈ state.produced, produced.era = state.era →
    Finds state.statics.manager produced

theorem Finds.extends {before after : ClusterManager} {produced : Produced}
    (finds : Finds before produced) (extends_ : before.Extends after) :
    Finds after produced := by
  obtain ⟨idx, hasCluster, found⟩ := bind_ok finds
  have found : before.getClusterGraph idx = some produced.gdef :=
    Except.ok.inj found
  unfold Finds constructKernel
  rw [hasCluster]
  exact congrArg Except.ok (extends_ idx _ found)

/-- The nodes of a graph that was just rewritten find their graphs. -/
theorem producedBy_finds {bridge : Bridge} {request : Request}
    {statics after : Statics} {outcome : EncapsulateClusters.Outcome}
    {era : Nat}
    (call : rewrite bridge request statics = (after, .rewritten outcome)) :
    ∀ produced ∈ producedBy era outcome, produced.era = era ∧
    Finds after.manager produced := by
  obtain ⟨status, success, sameManager⟩ := rewrite_ok call
  obtain ⟨_, _, _, _, clustered⟩ :=
    clustered_of_ok bridge request statics status
  obtain ⟨enc, analysis, success⟩ := bind_ok success
  obtain ⟨rewritten, rewrite_, success⟩ := bind_ok success
  obtain rfl := Except.ok.inj success
  obtain ⟨outs, added, analysed⟩ := analysisPass_analysed clustered.wf analysis
  have rewired := rewritePass_rewired clustered.wf analysed rewrite_
  intro produced member
  obtain ⟨entry, _, made⟩ := List.mem_filterMap.mp member
  dsimp only at made sameManager
  split at made
  case h_1 id gdef mapped found =>
    obtain rfl := Option.some.inj made
    obtain ⟨_, node, inResult, rfl, encapsulate⟩ :=
      rewired.placed entry.1 id mapped
    refine ⟨rfl, ?_⟩
    unfold Finds constructKernel
    dsimp only
    rw [Graph.node_of_mem rewired.ids inResult, encapsulate.cluster,
      sameManager]
    exact congrArg Except.ok found
  case h_2 => simp at made

theorem rewriteStep_inv (bridge : Bridge) {state : Process} (inv : state.Inv)
    (request : Request) : (rewriteStep bridge state request).Inv := by
  unfold rewriteStep
  split
  case h_1 statics call =>
    refine ⟨fun produced member => (inv.past produced member).trans
      (Nat.le_succ _), ?_⟩
    intro produced member sameEra
    have before := inv.past produced member
    dsimp only at sameEra
    omega
  case h_2 statics error call =>
    have extends_ := rewrite_extends call (by simp)
    exact ⟨inv.past, fun produced member sameEra =>
      (inv.finds produced member sameEra).extends extends_⟩
  case h_3 statics outcome call =>
    have extends_ := rewrite_extends call (by simp)
    have new := @producedBy_finds bridge request state.statics statics outcome
      state.era call
    constructor
    · intro produced member
      cases List.mem_append.mp member with
      | inl old => exact inv.past produced old
      | inr isNew => exact (new produced isNew).1.le
    · intro produced member sameEra
      cases List.mem_append.mp member with
      | inl old => exact (inv.finds produced old sameEra).extends extends_
      | inr isNew => exact (new produced isNew).2

theorem process_preserves (bridge : Bridge) :
    (process bridge).Preserves Process.Inv := by
  intro state event inv
  cases event with
  | rewrite request => exact rewriteStep_inv bridge inv request
  | construct index => exact inv

theorem Process.Inv.init : Process.init.Inv :=
  ⟨by simp [Process.init], by simp [Process.init]⟩

/-- What a run owes the kernel that one of its steps constructs. -/
def KernelCorrect
    (entry : Machine.Entry Process Event
      (Option (StatusOr (Option GraphDef)))) : Prop :=
  ∀ index produced, entry.input = .construct index →
    entry.before.produced[index]? = some produced →
    entry.output = some (.ok (some produced.gdef))

theorem construct_output {bridge : Bridge} {events : List Event}
    {entry : Machine.Entry Process Event (Option (StatusOr (Option GraphDef)))}
    (inTrace : entry ∈ (process bridge).trace .init events) {index : Nat}
    {produced : Produced} (isConstruct : entry.input = .construct index)
    (atIndex : entry.before.produced[index]? = some produced) :
    entry.output =
      some (constructKernel entry.before.statics.manager produced.node) := by
  have step := Machine.trace_step inTrace
  rw [isConstruct] at step
  have output : (entry.before.produced[index]?).map (fun produced =>
      constructKernel entry.before.statics.manager produced.node) =
        entry.output :=
    congrArg Prod.snd step
  rw [← output, atIndex, Option.map_some]

/-- In a run that evicts nothing between the production of a node and the
construction of its kernel, every kernel gets the graph of its own cluster. -/
theorem kernels_correct (bridge : Bridge) (events : List Event)
    (current : ∀ entry ∈ (process bridge).trace .init events, ∀ index produced,
      entry.input = .construct index →
      entry.before.produced[index]? = some produced →
      produced.era = entry.before.era) :
    ∀ entry ∈ (process bridge).trace .init events, KernelCorrect entry := by
  intro entry inTrace index produced isConstruct atIndex
  have inv := (process_preserves bridge).before Process.Inv.init inTrace
  have finds := inv.finds produced (List.mem_of_getElem? atIndex)
    (current entry inTrace index produced isConstruct atIndex)
  rw [construct_output inTrace isConstruct atIndex]
  exact congrArg some finds

/-- A placeholder, one unary operation and a node that reads it. -/
def unaryGraph (op : String) : Graph where
  nodes := [
    ⟨0, "_SOURCE", "NoOp", [], [], [], "", []⟩,
    ⟨1, "_SINK", "NoOp", [], [], [], "", []⟩,
    ⟨2, "x", "Placeholder", [], [], [.DT_FLOAT], "", []⟩,
    ⟨3, "y", op, [("T", .type .DT_FLOAT)], [.DT_FLOAT], [.DT_FLOAT], "", ["x"]⟩,
    ⟨4, "out", "_Send", [], [.DT_FLOAT], [], "", ["y"]⟩]
  edges :=
    [⟨0, 0, -1, 2, -1⟩, ⟨1, 2, 0, 3, 0⟩, ⟨2, 3, 0, 4, 0⟩, ⟨3, 4, -1, 1, -1⟩]

theorem negGraph_wf : (unaryGraph "Neg").WF := by
  constructor <;> decide

theorem absGraph_wf : (unaryGraph "Abs").WF := by
  constructor <;> decide

def unaryRequest (op : String) (wf : (unaryGraph op).WF) (enabled : Bool) :
    Request where
  graph := unaryGraph op
  skip_these_nodes := ∅
  config_map := []
  enabled := enabled
  disabled_ops := ∅
  deassign := ⟨true, none⟩
  wf := wf
  unassigned := by
    intro node member
    simp only [unaryGraph, List.mem_cons, List.not_mem_nil, or_false] at member
    rcases member with rfl | rfl | rfl | rfl | rfl <;> rfl

def cpuBridge : Bridge :=
  ⟨⟨"CPU", fun _ => true⟩, constantHasher, importLibrary⟩

def currentEvents : List Event :=
  [.rewrite (unaryRequest "Neg" negGraph_wf false),
    .rewrite (unaryRequest "Neg" negGraph_wf true),
    .rewrite (unaryRequest "Abs" absGraph_wf true), .construct 0, .construct 1]

theorem kernels_correct_current :
    ((process cpuBridge).final .init currentEvents).produced.length = 2 ∧
      ∀ entry ∈ (process cpuBridge).trace .init currentEvents,
        KernelCorrect entry := by
  refine ⟨by decide, kernels_correct cpuBridge currentEvents ?_⟩
  have test : ∀ entry ∈ (process cpuBridge).trace .init currentEvents,
      ∀ produced ∈ entry.before.produced, produced.era = entry.before.era := by
    decide
  intro entry inTrace index produced _ atIndex
  exact test entry inTrace produced (List.mem_of_getElem? atIndex)

/-- The second rewrite finds the bridge disabled and evicts the cluster of the
first; the third reuses its id. -/
def evictedEvents : List Event :=
  [.rewrite (unaryRequest "Neg" negGraph_wf true),
    .rewrite (unaryRequest "Neg" negGraph_wf false),
    .rewrite (unaryRequest "Abs" absGraph_wf true), .construct 0]

theorem kernels_correct_evicted :
    ¬ ∀ entry ∈ (process cpuBridge).trace .init evictedEvents,
      KernelCorrect entry := by
  have test : (((process cpuBridge).trace .init evictedEvents).any fun entry =>
      match entry.input with
      | .construct index =>
          match entry.before.produced[index]? with
          | some produced =>
              !decide (Finds entry.before.statics.manager produced)
          | none => false
      | .rewrite _ => false) = true := by decide
  intro correct
  obtain ⟨entry, inTrace, wrong⟩ := List.any_eq_true.mp test
  split at wrong
  case h_1 index isConstruct =>
    split at wrong
    case h_1 produced atIndex =>
      have output := correct entry inTrace index produced isConstruct atIndex
      rw [construct_output inTrace isConstruct atIndex,
        Option.some.injEq] at output
      simp [Finds, output] at wrong
    case h_2 => simp at wrong
  case h_2 => simp at wrong

end NGraphBridge.NGraphRewritePass
