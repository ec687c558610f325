import NGraphBridge.AssignClusters.Fixpoint

/-!
# The clusters and their graph of indices, at every point of the contraction

Contracting an edge changes the graph of indices first and the clusters after
it.  After every try the two say the same, whatever edges were tried before.
-/

namespace NGraphBridge.AssignClusters

open TF Deadness GraphCycles MarkForClustering Relation NGraphBridge.Digraph

/-- The graph of indices is that of the clusters and of the shadow nodes.
`shadows` lists the shadow nodes, each with its static edge. -/
structure Coherent (graph : Graph) (shadows : List (Nat × Edge))
    (state : State) : Prop where
  acyclic : Acyclic state.gc.Edge
  live : ∀ u, state.gc.Live u ↔
    (∃ id, graph.HasNode id ∧ state.index id = u) ∨
    ∃ entry ∈ shadows, entry.1 = u
  index : ∀ {a b}, graph.HasNode a → graph.HasNode b →
    (state.index a = state.index b ↔ state.cluster_map a = state.cluster_map b)
  edge : ∀ {a b}, graph.HasNode a → graph.HasNode b →
    state.cluster_map a ≠ state.cluster_map b →
    (state.gc.Edge (state.index a) (state.index b) ↔
      ∃ u v, OpEdge graph u v ∧ u ∈ (state.cluster a).nodes ∧
      v ∈ (state.cluster b).nodes)
  static : ∀ entry ∈ shadows, StaticEdge graph entry.2
  fresh : ∀ entry ∈ shadows, ∀ id, graph.HasNode id → state.index id ≠ entry.1
  keys : (shadows.map Prod.fst).Nodup
  predecessor : ∀ entry ∈ shadows, ∀ u,
    u ∈ state.gc.ins entry.1 ↔ u = state.index entry.2.src
  successor : ∀ entry ∈ shadows, ∀ u,
    u ∈ state.gc.outs entry.1 ↔ u = state.index entry.2.dst
  members : ∀ {a}, graph.HasNode a → ∀ m, m ∈ (state.cluster a).nodes ↔
    graph.HasNode m ∧ state.cluster_map m = state.cluster_map a

section Coherent

variable {graph : Graph} {linked : Nat → Nat → Prop} {shadowed : Edge → Prop}
  {shadows : List (Nat × Edge)} {start state next : State}

theorem Coupled.entry_eq (coupled : Coupled graph linked shadows state)
    {left right : Nat × Edge} (leftIn : left ∈ shadows)
    (rightIn : right ∈ shadows) (same : left.1 = right.1) : left = right :=
  List.inj_on_of_nodup_map coupled.keys leftIn rightIn same

theorem Coupled.not_quotient_left (coupled : Coupled graph linked shadows state)
    (inside : ∀ {u v}, linked u v → graph.HasNode u ∧ graph.HasNode v)
    {entry : Nat × Edge} (member : entry ∈ shadows) (v : Nat) :
    ¬ quotient linked state.index entry.1 v := by
  rintro ⟨_, x, y, step, atEntry, _⟩
  exact coupled.fresh entry member x (inside step).1 atEntry

theorem Coupled.not_quotient_right
    (coupled : Coupled graph linked shadows state)
    (inside : ∀ {u v}, linked u v → graph.HasNode u ∧ graph.HasNode v)
    {entry : Nat × Edge} (member : entry ∈ shadows) (u : Nat) :
    ¬ quotient linked state.index u entry.1 := by
  rintro ⟨_, x, y, step, _, atEntry⟩
  exact coupled.fresh entry member y (inside step).2 atEntry

/-- The only edge into a shadow node comes from the source of its static
edge. -/
theorem Coupled.into_shadow (coupled : Coupled graph linked shadows state)
    (inside : ∀ {u v}, linked u v → graph.HasNode u ∧ graph.HasNode v)
    {entry : Nat × Edge} (member : entry ∈ shadows) (u : Nat) :
    state.gc.Edge u entry.1 ↔ u = state.index entry.2.src := by
  rw [coupled.edge]
  constructor
  · intro either
    cases either with
    | inl link => exact absurd link (coupled.not_quotient_right inside member u)
    | inr shade =>
        obtain ⟨other, otherIn, shade⟩ := shade
        cases shade with
        | inl out =>
            obtain ⟨atSource, same⟩ := out
            rw [coupled.entry_eq member otherIn same]
            exact atSource
        | inr back =>
            have dstNode := (coupled.ends other otherIn).2
            exact absurd back.2.symm (coupled.fresh entry member _ dstNode)
  · intro atSource
    exact .inr ⟨entry, member, .inl ⟨atSource, rfl⟩⟩

/-- The only edge out of a shadow node leads to the target of its static
edge. -/
theorem Coupled.out_of_shadow (coupled : Coupled graph linked shadows state)
    (inside : ∀ {u v}, linked u v → graph.HasNode u ∧ graph.HasNode v)
    {entry : Nat × Edge} (member : entry ∈ shadows) (v : Nat) :
    state.gc.Edge entry.1 v ↔ v = state.index entry.2.dst := by
  rw [coupled.edge]
  constructor
  · intro either
    cases either with
    | inl link => exact absurd link (coupled.not_quotient_left inside member v)
    | inr shade =>
        obtain ⟨other, otherIn, shade⟩ := shade
        cases shade with
        | inl out =>
            have srcNode := (coupled.ends other otherIn).1
            exact absurd out.1.symm (coupled.fresh entry member _ srcNode)
        | inr back =>
            obtain ⟨same, atTarget⟩ := back
            rw [coupled.entry_eq member otherIn same]
            exact atTarget
  · intro atTarget
    exact .inr ⟨entry, member, .inr ⟨rfl, atTarget⟩⟩

/-- Two clusters have no edge between them but for the links of their
members. -/
theorem Coupled.between (coupled : Coupled graph linked shadows state)
    (inv : Inv graph linked shadowed state) {a b : Nat}
    (aNode : graph.HasNode a) (bNode : graph.HasNode b)
    (different : state.cluster_map a ≠ state.cluster_map b) :
    state.gc.Edge (state.index a) (state.index b) ↔
      ∃ u v, linked u v ∧ u ∈ (state.cluster a).nodes ∧
      v ∈ (state.cluster b).nodes := by
  rw [coupled.edge]
  constructor
  · intro either
    cases either with
    | inl link =>
        obtain ⟨_, u, v, step, atA, atB⟩ := link
        obtain ⟨uNode, vNode⟩ := inv.inside step
        exact ⟨u, v, step,
          (inv.members aNode u).mpr ⟨uNode, inv.same uNode aNode atA⟩,
          (inv.members bNode v).mpr ⟨vNode, inv.same vNode bNode atB⟩⟩
    | inr shade =>
        obtain ⟨entry, member, shade⟩ := shade
        cases shade with
        | inl out => exact absurd out.2 (coupled.fresh entry member b bNode)
        | inr back => exact absurd back.1 (coupled.fresh entry member a aNode)
  · rintro ⟨u, v, step, inA, inB⟩
    obtain ⟨uNode, withA⟩ := (inv.members aNode u).mp inA
    obtain ⟨vNode, withB⟩ := (inv.members bNode v).mp inB
    have apart : state.index a ≠ state.index b :=
      fun same => different (inv.same aNode bNode same)
    exact .inl ⟨apart, u, v, step, (inv.index_iff uNode aNode).mpr withA,
      (inv.index_iff vNode bNode).mpr withB⟩

theorem Coupled.coherent (coupled : Coupled graph (OpEdge graph) shadows state)
    (inv : Inv graph (OpEdge graph) shadowed state)
    (static : ∀ entry ∈ shadows, StaticEdge graph entry.2) :
    Coherent graph shadows state where
  acyclic := inv.gc.acyclic
  live := by
    intro u
    constructor
    · exact coupled.live
    · intro either
      cases either with
      | inl cluster =>
          obtain ⟨id, idNode, rfl⟩ := cluster
          exact inv.live idNode
      | inr shadow =>
          obtain ⟨entry, member, rfl⟩ := shadow
          exact coupled.shadowLive entry member
  index := inv.index_iff
  edge := coupled.between inv
  static := static
  fresh := coupled.fresh
  keys := coupled.keys
  predecessor := by
    intro entry member u
    rw [inv.gc.mirror]
    exact coupled.into_shadow inv.inside member u
  successor := fun entry member u => coupled.out_of_shadow inv.inside member u
  members := inv.members

theorem clusters_run {hasher : Hasher} {order : graph.Enumeration}
    {final : State} (atStart : prepared order hasher = .ok start)
    (success : clusters hasher order = .ok final) :
    ∃ steps, Run graph start steps final := by
  rw [clusters_eq, atStart] at success
  exact contract_run order .start success

end Coherent

/-- From the shadow edges on, the clusters and their graph of indices agree
after every sequence of tries, that of the pass among them. -/
theorem run_coherent {graph : Graph} {hasher : Hasher}
    {order : graph.Enumeration} {start : State} (wf : graph.WF)
    (atStart : prepared order hasher = .ok start) :
    (∀ steps state, Run graph start steps state →
      Coherent graph (shadowNodes order hasher) state) ∧
    ∀ final, clusters hasher order = .ok final →
    ∃ steps, Run graph start steps final := by
  obtain ⟨inv, _⟩ := prepared_inv wf atStart
  obtain ⟨static, coupled⟩ := shadowNodes_coupled wf atStart
  constructor
  · intro steps state run
    obtain ⟨stateInv, stateCoupled⟩ := run.preserves wf
      (fun _ decided coupled => decided.coupled coupled) inv coupled
    exact stateCoupled.coherent stateInv static
  · exact fun final success => clusters_run atStart success

theorem run_coherent_staticGraph :
    ∃ start, prepared staticGraph.byInsertion constantHasher = .ok start ∧
      ∀ steps state, Run staticGraph start steps state →
        Coherent staticGraph [(7, ⟨4, 4, 0, 5, 1⟩)] state := by
  have passes :
      (prepared staticGraph.byInsertion constantHasher).toOption.isSome =
        true := by
    decide
  have atShadows : shadowNodes staticGraph.byInsertion constantHasher =
      [(7, ⟨4, 4, 0, 5, 1⟩)] := by
    decide
  cases atStart : prepared staticGraph.byInsertion constantHasher with
  | error error => simp [atStart, Except.toOption] at passes
  | ok start =>
      refine ⟨start, rfl, ?_⟩
      rw [← atShadows]
      exact (run_coherent staticGraph_wf atStart).1

end NGraphBridge.AssignClusters
