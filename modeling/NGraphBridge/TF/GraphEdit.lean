import NGraphBridge.TF.Graph

/-!
# Editing graphs

The operations of `tensorflow::Graph` that change it, and what they do to the
data edges.
-/

namespace NGraphBridge.TF.Graph

variable (graph : Graph)

/-- Ids are given out in order. -/
def nextNodeId : Nat :=
  graph.nodes.foldr (fun node next => max (node.id + 1) next) 0

def nextEdgeId : Nat :=
  graph.edges.foldr (fun edge next => max (edge.id + 1) next) 0

def addNode (node : Node) : Graph :=
  { graph with nodes := graph.nodes ++ [node] }

def addEdge (src : Nat) (src_output : Int) (dst : Nat)
    (dst_input : Int) : Graph :=
  { graph with
    edges := graph.edges ++
      [⟨graph.nextEdgeId, src, src_output, dst, dst_input⟩] }

/-- Add a control edge, unless there is one. -/
def addControlEdge (src dst : Nat) : Graph :=
  if graph.edges.any (fun edge =>
    edge.dst == dst && edge.isControlEdge && edge.src == src) then graph
  else graph.addEdge src kControlSlot dst kControlSlot

def removeEdge (edge : Edge) : Graph :=
  { graph with edges := graph.edges.filter (· != edge) }

/-- `UpdateEdge`: let another output feed an input. -/
def updateEdge (new_src : Nat) (new_src_index : Int) (dst : Nat)
    (dst_index : Int) : StatusOr Graph :=
  if ((graph.node new_src).num_outputs : Int) ≤ new_src_index then
    .error
      (errors.outOfRange
        s!"Node '{(graph.node new_src).name}' does not have output {new_src_index}")
  else if ((graph.node dst).num_inputs : Int) ≤ dst_index then
    .error
      (errors.outOfRange
        s!"Node '{(graph.node dst).name}' does not have input {dst_index}")
  else
    match graph.edges.find?
      (fun edge => edge.dst == dst && edge.dst_input == dst_index) with
    | none =>
        .error
          (errors.invalidArgument
            s!"Couldn't find edge to {(graph.node dst).name}")
    | some edge =>
        .ok ((graph.removeEdge edge).addEdge new_src new_src_index dst
            dst_index)

/-- Remove a node with all its edges. -/
def removeNode (id : Nat) : Graph where
  nodes := graph.nodes.filter (·.id != id)
  edges := graph.edges.filter (fun edge => edge.src != id && edge.dst != id)

/-- A data edge from an output to an input. -/
def Feeds (src : Nat) (src_output : Int) (dst : Nat) (dst_input : Int) : Prop :=
  ∃ edge ∈ graph.edges, edge.isControlEdge = false ∧ edge.src = src ∧
    edge.src_output = src_output ∧ edge.dst = dst ∧ edge.dst_input = dst_input

/-- No two data edges lead to one input. -/
def Single : Prop :=
  ∀ {src src_output other other_output dst dst_input},
    graph.Feeds src src_output dst dst_input →
    graph.Feeds other other_output dst dst_input →
    src = other ∧ src_output = other_output

variable {graph}

theorem WF.single_feeds (wf : graph.WF) : graph.Single := by
  rintro src src_output other other_output dst dst_input
    ⟨left, leftIn, leftData, rfl, rfl, rfl, rfl⟩
    ⟨right, rightIn, rightData, rfl, rfl, sameDst, sameInput⟩
  have same := wf.single left leftIn right rightIn leftData rightData
    sameDst.symm sameInput.symm
  rw [same]
  exact ⟨rfl, rfl⟩

section Edits

variable {u v : Nat} {a b : Int}

theorem feeds_addNode {node : Node} : (graph.addNode node).Feeds u a v b ↔
    graph.Feeds u a v b :=
  Iff.rfl

theorem feeds_addEdge {src dst : Nat} {src_output dst_input : Int}
    (data : src_output ≠ kControlSlot) :
    (graph.addEdge src src_output dst dst_input).Feeds u a v b ↔
      graph.Feeds u a v b ∨
      (u = src ∧ a = src_output ∧ v = dst ∧ b = dst_input) := by
  constructor
  · rintro ⟨edge, member, isData, rfl, rfl, rfl, rfl⟩
    cases List.mem_append.mp member with
    | inl old => exact .inl ⟨edge, old, isData, rfl, rfl, rfl, rfl⟩
    | inr new =>
        rw [List.mem_singleton] at new
        rw [new]
        exact .inr ⟨rfl, rfl, rfl, rfl⟩
  · rintro (⟨edge, member, rest⟩ | ⟨rfl, rfl, rfl, rfl⟩)
    · exact ⟨edge, List.mem_append_left _ member, rest⟩
    · refine ⟨_, List.mem_append_right _ (List.mem_singleton_self _), ?_, rfl,
        rfl, rfl, rfl⟩
      simpa [Edge.isControlEdge] using data

theorem feeds_addControlEdge {src dst : Nat} :
    (graph.addControlEdge src dst).Feeds u a v b ↔ graph.Feeds u a v b := by
  unfold addControlEdge
  split
  · rfl
  · constructor
    · rintro ⟨edge, member, isData, rest⟩
      cases List.mem_append.mp member with
      | inl old => exact ⟨edge, old, isData, rest⟩
      | inr new =>
          rw [List.mem_singleton] at new
          simp [new, Edge.isControlEdge] at isData
    · rintro ⟨edge, member, rest⟩
      exact ⟨edge, List.mem_append_left _ member, rest⟩

theorem feeds_removeEdge {edge : Edge} (control : edge.isControlEdge = true) :
    (graph.removeEdge edge).Feeds u a v b ↔ graph.Feeds u a v b := by
  constructor
  · rintro ⟨other, member, rest⟩
    exact ⟨other, (List.mem_filter.mp member).1, rest⟩
  · rintro ⟨other, member, isData, rest⟩
    refine ⟨other, List.mem_filter.mpr ⟨member, ?_⟩, isData, rest⟩
    rw [bne_iff_ne]
    rintro rfl
    rw [control] at isData
    exact absurd isData (by simp)

theorem feeds_removeNode {id : Nat} :
    (graph.removeNode id).Feeds u a v b ↔ graph.Feeds u a v b ∧ u ≠ id ∧
    v ≠ id := by
  constructor
  · rintro ⟨edge, member, isData, rfl, rfl, rfl, rfl⟩
    obtain ⟨old, kept⟩ := List.mem_filter.mp member
    rw [Bool.and_eq_true, bne_iff_ne, bne_iff_ne] at kept
    exact ⟨⟨edge, old, isData, rfl, rfl, rfl, rfl⟩, kept⟩
  · rintro ⟨⟨edge, member, isData, rfl, rfl, rfl, rfl⟩, kept⟩
    refine ⟨edge, List.mem_filter.mpr ⟨member, ?_⟩, isData, rfl, rfl, rfl, rfl⟩
    rw [Bool.and_eq_true, bne_iff_ne, bne_iff_ne]
    exact kept

end Edits

/-- The part of `WF` that edits of the edges keep. -/
structure Tidy (graph : Graph) : Prop where
  control : ∀ edge ∈ graph.edges, edge.isControlEdge = true →
    edge.dst_input = kControlSlot
  slot : ∀ edge ∈ graph.edges, edge.isControlEdge = false → 0 ≤ edge.dst_input
  single : ∀ left ∈ graph.edges, ∀ right ∈ graph.edges,
    left.isControlEdge = false →
    right.isControlEdge = false → left.dst = right.dst →
    left.dst_input = right.dst_input → left = right

theorem WF.tidy (wf : graph.WF) : graph.Tidy where
  control := wf.control
  slot := fun edge member data => (wf.slots edge member data).2.1
  single := wf.single

theorem Tidy.subset {next : Graph} (tidy : graph.Tidy)
    (inside : ∀ edge ∈ next.edges, edge ∈ graph.edges) : next.Tidy where
  control := fun edge member => tidy.control edge (inside edge member)
  slot := fun edge member => tidy.slot edge (inside edge member)
  single := fun left leftIn right rightIn =>
    tidy.single left (inside left leftIn) right (inside right rightIn)

section TidyEdits

variable {src dst : Nat} {src_output dst_input : Int}

theorem Tidy.addEdge (tidy : graph.Tidy) (data : src_output ≠ kControlSlot)
    (nonneg : 0 ≤ dst_input) (free : ∀ u a, ¬ graph.Feeds u a dst dst_input) :
    (graph.addEdge src src_output dst dst_input).Tidy := by
  have added : ∀ edge ∈ (graph.addEdge src src_output dst dst_input).edges,
      edge ∈ graph.edges ∨
      edge = ⟨graph.nextEdgeId, src, src_output, dst, dst_input⟩ := by
    intro edge member
    simpa [Graph.addEdge] using member
  have clash : ∀ edge ∈ graph.edges, edge.isControlEdge = false →
      edge.dst = dst →
      edge.dst_input ≠ dst_input := by
    intro edge member isData sameDst sameInput
    exact free edge.src edge.src_output
      ⟨edge, member, isData, rfl, rfl, sameDst, sameInput⟩
  constructor
  case control =>
    intro edge member control
    cases added edge member with
    | inl old => exact tidy.control edge old control
    | inr new =>
        rw [new] at control
        simp [Edge.isControlEdge, data] at control
  case slot =>
    intro edge member isData
    cases added edge member with
    | inl old => exact tidy.slot edge old isData
    | inr new => rwa [new]
  case single =>
    intro left leftIn right rightIn leftData rightData sameDst sameInput
    cases added left leftIn with
    | inl leftOld =>
        cases added right rightIn with
        | inl rightOld =>
            exact tidy.single left leftOld right rightOld leftData rightData
              sameDst sameInput
        | inr rightNew =>
            rw [rightNew] at sameDst sameInput
            exact absurd sameInput (clash left leftOld leftData sameDst)
    | inr leftNew =>
        cases added right rightIn with
        | inl rightOld =>
            rw [leftNew] at sameDst sameInput
            exact absurd sameInput.symm
              (clash right rightOld rightData sameDst.symm)
        | inr rightNew => rw [leftNew, rightNew]

theorem Tidy.addControlEdge (tidy : graph.Tidy) :
    (graph.addControlEdge src dst).Tidy := by
  unfold Graph.addControlEdge
  split
  · exact tidy
  · have isOld :
        ∀ edge ∈ (graph.addEdge src kControlSlot dst kControlSlot).edges,
        edge.isControlEdge = false → edge ∈ graph.edges := by
      intro edge member data
      cases List.mem_append.mp member with
      | inl old => exact old
      | inr new =>
          rw [List.mem_singleton.mp new] at data
          simp [Edge.isControlEdge] at data
    constructor
    case control =>
      intro edge member control
      cases List.mem_append.mp member with
      | inl old => exact tidy.control edge old control
      | inr new => rw [List.mem_singleton.mp new]
    case slot =>
      exact fun edge member data => tidy.slot edge (isOld edge member data) data
    case single =>
      intro left leftIn right rightIn leftData rightData
      exact tidy.single left (isOld left leftIn leftData) right
        (isOld right rightIn rightData) leftData rightData

theorem Tidy.removeEdge {edge : Edge} (tidy : graph.Tidy) :
    (graph.removeEdge edge).Tidy :=
  tidy.subset fun _ member => (List.mem_filter.mp member).1

/-- The data edge that is updated. -/
theorem updateEdge_edge {next : Graph} (tidy : graph.Tidy)
    (nonneg : 0 ≤ dst_input)
    (success : graph.updateEdge src src_output dst dst_input = .ok next) :
    ∃ edge ∈ graph.edges, edge.dst = dst ∧ edge.dst_input = dst_input ∧
      edge.isControlEdge = false ∧
      next = (graph.removeEdge edge).addEdge src src_output dst dst_input := by
  unfold updateEdge at success
  split_ifs at success
  cases found : graph.edges.find?
    (fun edge => edge.dst == dst && edge.dst_input == dst_input) with
  | none => simp [found] at success
  | some edge =>
      rw [found] at success
      have member := List.mem_of_find?_eq_some found
      have ends := List.find?_some found
      rw [Bool.and_eq_true, beq_iff_eq, beq_iff_eq] at ends
      refine ⟨edge, member, ends.1, ends.2, ?_, (Except.ok.inj success).symm⟩
      -- the slot is not a control slot, so a data edge was found
      by_contra control
      have atControl := tidy.control edge member (by simpa using control)
      rw [ends.2, kControlSlot] at atControl
      omega

/-- An input of a node is taken over by another output. -/
theorem updateEdge_ok {next : Graph} (tidy : graph.Tidy)
    (data : src_output ≠ kControlSlot) (nonneg : 0 ≤ dst_input)
    (success : graph.updateEdge src src_output dst dst_input = .ok next) :
    next.nodes = graph.nodes ∧ next.Tidy ∧ ∀ {u a v b}, next.Feeds u a v b ↔
      (graph.Feeds u a v b ∧ ¬ (v = dst ∧ b = dst_input)) ∨
        (u = src ∧ a = src_output ∧ v = dst ∧ b = dst_input) := by
  obtain ⟨edge, member, atDst, atInput, isData, rfl⟩ :=
    updateEdge_edge tidy nonneg success
  have removed : ∀ {u a v b}, (graph.removeEdge edge).Feeds u a v b ↔
      graph.Feeds u a v b ∧ ¬ (v = dst ∧ b = dst_input) := by
    intro u a v b
    constructor
    · rintro ⟨other, otherIn, otherData, rfl, rfl, rfl, rfl⟩
      obtain ⟨old, kept⟩ := List.mem_filter.mp otherIn
      refine ⟨⟨other, old, otherData, rfl, rfl, rfl, rfl⟩, ?_⟩
      rintro ⟨sameDst, sameInput⟩
      have same := tidy.single other old edge member otherData isData
        (sameDst.trans atDst.symm) (sameInput.trans atInput.symm)
      simp [same] at kept
    · rintro ⟨⟨other, old, otherData, rfl, rfl, rfl, rfl⟩, apart⟩
      refine ⟨other, List.mem_filter.mpr ⟨old, ?_⟩, otherData, rfl,
        rfl, rfl, rfl⟩
      rw [bne_iff_ne]
      rintro rfl
      exact apart ⟨atDst, atInput⟩
  refine ⟨rfl, tidy.removeEdge.addEdge data nonneg ?_, ?_⟩
  · intro u a feeds
    exact (removed.mp feeds).2 ⟨rfl, rfl⟩
  · intro u a v b
    rw [feeds_addEdge data, removed]

end TidyEdits

/-- A control edge from one node to another. -/
def ControlEdge (graph : Graph) (src dst : Nat) : Prop :=
  ∃ edge ∈ graph.edges, edge.isControlEdge = true ∧ edge.src = src ∧
    edge.dst = dst

/-- Two graphs with the same control edges, as records. -/
def SameControls (graph next : Graph) : Prop :=
  ∀ edge : Edge, edge.isControlEdge = true →
    (edge ∈ next.edges ↔ edge ∈ graph.edges)

theorem SameControls.trans {middle next : Graph}
    (first : graph.SameControls middle) (second : middle.SameControls next) :
    graph.SameControls next :=
  fun edge control => (second edge control).trans (first edge control)

theorem sameControls_addEdge {src dst : Nat} {src_output dst_input : Int}
    (data : src_output ≠ kControlSlot) :
    graph.SameControls (graph.addEdge src src_output dst dst_input) := by
  intro edge control
  constructor
  · intro member
    cases List.mem_append.mp member with
    | inl old => exact old
    | inr new =>
        rw [List.mem_singleton.mp new] at control
        simp [Edge.isControlEdge, data] at control
  · exact fun old => List.mem_append_left _ old

theorem sameControls_removeEdge {edge : Edge}
    (data : edge.isControlEdge = false) :
    graph.SameControls (graph.removeEdge edge) := by
  intro other control
  have different : other ≠ edge := by
    intro same
    rw [same, data] at control
    cases control
  simp [removeEdge, different]

theorem sameControls_updateEdge {src dst : Nat} {src_output dst_input : Int}
    {next : Graph} (tidy : graph.Tidy) (data : src_output ≠ kControlSlot)
    (nonneg : 0 ≤ dst_input)
    (success : graph.updateEdge src src_output dst dst_input = .ok next) :
    graph.SameControls next := by
  obtain ⟨edge, _, _, _, isData, rfl⟩ := updateEdge_edge tidy nonneg success
  exact (sameControls_removeEdge isData).trans (sameControls_addEdge data)

section AddControlEdge

variable {src dst : Nat}

theorem controlEdge_addControlEdge :
    (graph.addControlEdge src dst).ControlEdge src dst := by
  unfold addControlEdge
  split
  case isTrue there =>
    obtain ⟨edge, member, ends⟩ := List.any_eq_true.mp there
    simp only [Bool.and_eq_true, beq_iff_eq] at ends
    exact ⟨edge, member, ends.1.2, ends.2, ends.1.1⟩
  case isFalse =>
    exact ⟨_, List.mem_append_right _ (List.mem_singleton_self _),
      rfl, rfl, rfl⟩

theorem mem_addControlEdge_of_mem {edge : Edge} (member : edge ∈ graph.edges) :
    edge ∈ (graph.addControlEdge src dst).edges := by
  unfold addControlEdge
  split
  · exact member
  · exact List.mem_append_left _ member

theorem mem_addControlEdge {edge : Edge}
    (member : edge ∈ (graph.addControlEdge src dst).edges) :
    edge ∈ graph.edges ∨ (edge.src = src ∧ edge.dst = dst) := by
  unfold addControlEdge at member
  split at member
  · exact .inl member
  · cases List.mem_append.mp member with
    | inl old => exact .inl old
    | inr new =>
        rw [List.mem_singleton.mp new]
        exact .inr ⟨rfl, rfl⟩

end AddControlEdge

theorem lt_nextNodeId {node : Node} (member : node ∈ graph.nodes) :
    node.id < graph.nextNodeId := by
  unfold nextNodeId
  generalize graph.nodes = nodes at member
  induction nodes with
  | nil => simp at member
  | cons head nodes ih =>
      rw [List.foldr_cons]
      cases List.mem_cons.mp member with
      | inl same =>
          subst same
          omega
      | inr later =>
          have below := ih later
          omega

end NGraphBridge.TF.Graph
