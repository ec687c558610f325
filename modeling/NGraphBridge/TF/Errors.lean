import NGraphBridge.TF.Graph

/-!
# Internal errors

An internal error tells of a broken promise inside the program.  Functions that
keep their promises to each other end without one.
-/

namespace NGraphBridge.TF

def NoInternal {α : Type} (outcome : StatusOr α) : Prop :=
  ∀ error, outcome = .error error → error.code ≠ .internal

section NoInternal

variable {α β : Type}

@[simp] theorem noInternal_ok (value : α) :
    NoInternal (.ok value : StatusOr α) := by
  intro error failed
  simp at failed

theorem noInternal_error {error : Error} (other : error.code ≠ .internal) :
    NoInternal (.error error : StatusOr α) := by
  intro found failed
  cases failed
  exact other

theorem NoInternal.bind {outcome : StatusOr α} {next : α → StatusOr β}
    (first : NoInternal outcome)
    (rest : ∀ value, outcome = .ok value → NoInternal (next value)) :
    NoInternal (outcome >>= next) := by
  cases outcome with
  | error error => exact noInternal_error (first error rfl)
  | ok value => exact rest value rfl

end NoInternal

theorem Node.input_edge_noInternal (node : Node) (in_edges : List Edge)
    (idx : Int) :
    NoInternal (node.input_edge in_edges idx) := by
  unfold Node.input_edge
  split
  case isTrue => exact noInternal_error (by simp [errors.invalidArgument])
  case isFalse =>
    split
    · exact noInternal_ok _
    · exact noInternal_error (by simp [errors.notFound])

/-- Data edges that lead to inputs of a node, each to one of its own. -/
structure Node.Slotted (node : Node) (in_edges : List Edge) : Prop where
  inBounds : ∀ edge ∈ in_edges, edge.isControlEdge = false →
    0 ≤ edge.dst_input ∧ edge.dst_input < node.num_inputs
  distinct : in_edges.Pairwise fun left right => left.isControlEdge = false →
    right.isControlEdge = false → left.dst_input ≠ right.dst_input

theorem Node.fillSlots_noInternal {node : Node} {in_edges : List Edge}
    {slots : Nat → Option Edge} (slotted : node.Slotted in_edges)
    (free : ∀ edge ∈ in_edges, edge.isControlEdge = false →
      slots edge.dst_input.toNat = none) :
    NoInternal (node.fillSlots in_edges slots) := by
  induction in_edges generalizing slots with
  | nil => exact noInternal_ok _
  | cons head in_edges ih =>
      obtain ⟨apart, distinct⟩ := List.pairwise_cons.mp slotted.distinct
      have rest : node.Slotted in_edges :=
        ⟨fun edge member => slotted.inBounds edge (by simp [member]), distinct⟩
      unfold Node.fillSlots
      by_cases control : head.isControlEdge = true
      · rw [if_pos control]
        exact ih rest (fun edge member => free edge (by simp [member]))
      · have data : head.isControlEdge = false := by simpa using control
        have inBounds := slotted.inBounds head (by simp) data
        rw [if_neg control, if_neg (by omega),
          if_neg (by simp [free head (by simp) data])]
        apply ih rest
        intro edge member edgeData
        have edgeInBounds := rest.inBounds edge member edgeData
        have different := apart edge member data edgeData
        rw [Function.update_of_ne (by omega)]
        exact free edge (by simp [member]) edgeData

theorem Node.readSlots_noInternal (slots : Nat → Option Edge)
    (positions : List Nat) :
    NoInternal (Node.readSlots slots positions) := by
  induction positions with
  | nil => exact noInternal_ok _
  | cons position positions ih =>
      unfold Node.readSlots
      split
      · exact noInternal_error (by simp [errors.invalidArgument])
      · apply ih.bind
        intro edges _
        exact noInternal_ok _

theorem Graph.WF.slotted {graph : Graph} (wf : graph.WF)
    (order : graph.Enumeration) {node : Node} (member : node ∈ graph.nodes) :
    node.Slotted (order.in_edges node.id) := by
  have inEdges := order.mem_in_edges node.id
  constructor
  · intro edge into data
    obtain ⟨inGraph, atNode⟩ := (inEdges edge).mp into
    have slots := (wf.slots edge inGraph data).2
    rwa [atNode, wf.node_eq member] at slots
  · have distinct : (order.in_edges node.id).Nodup :=
      (order.inEdgesPerm node.id).nodup_iff.mpr (wf.edgeIds.of_map.filter _)
    refine List.Pairwise.imp_of_mem ?_ distinct
    intro left right leftIn rightIn different leftData rightData sameInput
    obtain ⟨leftGraph, leftAt⟩ := (inEdges left).mp leftIn
    obtain ⟨rightGraph, rightAt⟩ := (inEdges right).mp rightIn
    exact different
      (wf.single left leftGraph right rightGraph leftData rightData
      (leftAt.trans rightAt.symm) sameInput)

theorem Graph.WF.input_edges_noInternal {graph : Graph} (wf : graph.WF)
    (order : graph.Enumeration) {node : Node} (member : node ∈ graph.nodes) :
    NoInternal (node.input_edges (order.in_edges node.id)) := by
  unfold Node.input_edges
  apply (Node.fillSlots_noInternal (wf.slotted order member)
      (fun _ _ _ => rfl)).bind
  intro slots _
  exact Node.readSlots_noInternal _ _

end NGraphBridge.TF
