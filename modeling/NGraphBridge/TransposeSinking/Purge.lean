import NGraphBridge.TransposeSinking.Pass
import Mathlib.Logic.Relation

/-!
# Purging transposes

The marked transposes are deleted one by one, in the order of their addresses.
What is read afterwards does not depend on this order.
-/

namespace NGraphBridge.TransposeSinking

open NGraph (Output Shape)

/-- A node reads an output of another one. -/
def Heap.Feeds (heap : Heap) (producer reader : Nat) : Prop :=
  ∃ input ∈ (heap.node reader).input_values, input.node = producer

/-- What is deleted has one data input and one output, as transposes have, and
no node reads what it computes. -/
structure Purgeable (heap : Heap) (deleted : Nat → Prop) : Prop where
  oneInput : ∀ t, deleted t → (heap.node t).input_values.length = 1
  oneOutput : ∀ id, ∀ input ∈ (heap.node id).input_values, deleted input.node →
    input.index = 0
  acyclic : ∀ id, ¬ Relation.TransGen heap.Feeds id id

/-- The first output that is not one of a deleted node. -/
inductive Follows (heap : Heap) (deleted : Nat → Prop) : Output → Output → Prop
  | outside {output : Output} (notDeleted : ¬ deleted output.node) :
      Follows heap deleted output output
  | through {t : Nat} {output : Output} (isDeleted : deleted t)
      (later : Follows heap deleted (heap.input_value t 0) output) :
      Follows heap deleted ⟨t, 0⟩ output

section Follows

variable {heap : Heap} {deleted : Nat → Prop} {t : Nat}

theorem Follows.notDeleted {output first : Output}
    (follows : Follows heap deleted output first) :
    ¬ deleted first.node := by
  induction follows with
  | outside notDeleted => exact notDeleted
  | through _ _ ih => exact ih

theorem Follows.unique {output first second : Output}
    (left : Follows heap deleted output first)
    (right : Follows heap deleted output second) : first = second := by
  induction left with
  | outside notDeleted =>
      cases right with
      | outside _ => rfl
      | through isDeleted _ => exact absurd isDeleted notDeleted
  | through isDeleted _ ih =>
      cases right with
      | outside notDeleted => exact absurd isDeleted notDeleted
      | through _ later => exact ih later

theorem Purgeable.inputs (purgeable : Purgeable heap deleted)
    (isDeleted : deleted t) :
    (heap.node t).input_values = [heap.input_value t 0] := by
  obtain ⟨arg, isOnly⟩ :=
    List.length_eq_one_iff.mp (purgeable.oneInput t isDeleted)
  rw [Heap.input_value, isOnly]
  rfl

theorem Purgeable.feeds (purgeable : Purgeable heap deleted)
    (isDeleted : deleted t) :
    heap.Feeds (heap.input_value t 0).node t := by
  refine ⟨heap.input_value t 0, ?_, rfl⟩
  rw [purgeable.inputs isDeleted]
  exact List.mem_singleton_self _

theorem Purgeable.input_ne (purgeable : Purgeable heap deleted)
    (isDeleted : deleted t) :
    (heap.input_value t 0).node ≠ t := by
  intro same
  apply purgeable.acyclic t
  apply Relation.TransGen.single
  have feeds := purgeable.feeds isDeleted
  rwa [same] at feeds

/-- What is read at a reader of an output once a transpose is deleted. -/
def bypass (heap : Heap) (t : Nat) (output : Output) : Output :=
  if output = ⟨t, 0⟩ then heap.input_value t 0 else output

theorem deleteTranspose_node (id : Nat) : (deleteTranspose heap t).node id =
    { heap.node id with input_values :=
      (heap.node id).input_values.map (bypass heap t) } :=
  rfl

theorem deleteTranspose_input_value (purgeable : Purgeable heap deleted)
    {u : Nat} (isDeleted : deleted u) :
    (deleteTranspose heap t).input_value u 0 =
      bypass heap t (heap.input_value u 0) := by
  rw [Heap.input_value, deleteTranspose_node, purgeable.inputs isDeleted]
  rfl

theorem Purgeable.feeds_delete (purgeable : Purgeable heap deleted)
    (isDeleted : deleted t) {producer reader : Nat}
    (feeds : (deleteTranspose heap t).Feeds producer reader) :
    Relation.TransGen heap.Feeds producer reader := by
  obtain ⟨input, member, rfl⟩ := feeds
  rw [deleteTranspose_node] at member
  obtain ⟨source, isSource, rfl⟩ := List.mem_map.mp member
  by_cases here : source = ⟨t, 0⟩
  · rw [bypass, if_pos here]
    have reads : heap.Feeds t reader :=
      ⟨source, isSource, congrArg Output.node here⟩
    exact .tail (.single (purgeable.feeds isDeleted)) reads
  · rw [bypass, if_neg here]
    exact .single ⟨source, isSource, rfl⟩

theorem Purgeable.delete (purgeable : Purgeable heap deleted)
    (isDeleted : deleted t) :
    Purgeable (deleteTranspose heap t) deleted where
  oneInput := by
    intro u member
    rw [deleteTranspose_node, List.length_map]
    exact purgeable.oneInput u member
  oneOutput := by
    intro id input member inputDeleted
    rw [deleteTranspose_node] at member
    obtain ⟨source, isSource, rfl⟩ := List.mem_map.mp member
    by_cases here : source = ⟨t, 0⟩
    · rw [bypass, if_pos here] at inputDeleted ⊢
      have isInput : heap.input_value t 0 ∈ (heap.node t).input_values := by
        rw [purgeable.inputs isDeleted]
        exact List.mem_singleton_self _
      exact purgeable.oneOutput t _ isInput inputDeleted
    · rw [bypass, if_neg here] at inputDeleted ⊢
      exact purgeable.oneOutput id source isSource inputDeleted
  acyclic := by
    intro id cycle
    apply purgeable.acyclic id
    exact cycle.lift' (fun n => n) fun _ _ feeds =>
      purgeable.feeds_delete isDeleted feeds

theorem output_cases {output : Output}
    (isFirst : output.node = t → output.index = 0) :
    output = ⟨t, 0⟩ ∨ output.node ≠ t := by
  by_cases same : output.node = t
  · have index := isFirst same
    exact .inl (by rw [← same, ← index])
  · exact .inr same

/-- Deleting one of the transposes does not change where the inputs lead. -/
theorem Follows.of_delete {rest : Nat → Prop}
    (purgeable : Purgeable heap deleted) (isDeleted : deleted t)
    (others : ∀ u, deleted u ↔ u = t ∨ rest u) {target first : Output}
    (follows : Follows (deleteTranspose heap t) rest target first)
    {output : Output} (reads : bypass heap t output = target)
    (isFirst : deleted output.node → output.index = 0) :
    Follows heap deleted output first := by
  have places :=
    output_cases fun same : output.node = t => isFirst (same ▸ isDeleted)
  induction follows generalizing output with
  | @outside target notRest =>
      cases places with
      | inl here =>
          rw [bypass, if_pos here] at reads
          have notDeleted : ¬ deleted target.node := by
            rw [others]
            rintro (same | isRest)
            · exact purgeable.input_ne isDeleted (reads ▸ same)
            · exact notRest isRest
          rw [here]
          refine .through isDeleted ?_
          rw [reads]
          exact .outside notDeleted
      | inr different =>
          have notHere : output ≠ ⟨t, 0⟩ :=
            fun same => different (congrArg Output.node same)
          rw [bypass, if_neg notHere] at reads
          subst reads
          refine .outside ?_
          rw [others]
          rintro (same | isRest)
          · exact different same
          · exact notRest isRest
  | @through u first isRest _ ih =>
      have uDeleted : deleted u := (others u).mpr (.inr isRest)
      have isInput : heap.input_value u 0 ∈ (heap.node u).input_values := by
        rw [purgeable.inputs uDeleted]
        exact List.mem_singleton_self _
      have inputFirst := purgeable.oneOutput u _ isInput
      have beyond : Follows heap deleted ⟨u, 0⟩ first := by
        apply Follows.through uDeleted
        apply ih (deleteTranspose_input_value purgeable uDeleted).symm
          inputFirst
        exact output_cases fun same => inputFirst (same ▸ isDeleted)
      cases places with
      | inl here =>
          rw [bypass, if_pos here] at reads
          rw [here]
          refine .through isDeleted ?_
          rw [reads]
          exact beyond
      | inr different =>
          have notHere : output ≠ ⟨t, 0⟩ :=
            fun same => different (congrArg Output.node same)
          rw [bypass, if_neg notHere] at reads
          rw [reads]
          exact beyond

end Follows

section Purge

variable {heap : Heap}

theorem Purgeable.subset {deleted rest : Nat → Prop}
    (purgeable : Purgeable heap deleted) (subset : ∀ t, rest t → deleted t) :
    Purgeable heap rest where
  oneInput := fun t isRest => purgeable.oneInput t (subset t isRest)
  oneOutput := fun id input member isRest =>
    purgeable.oneOutput id input member (subset _ isRest)
  acyclic := purgeable.acyclic

/-- A node of the purged graph: the same op, and inputs that are not deleted. -/
def Purged (heap : Heap) (deleted : Nat → Prop) (node purged : Node) : Prop :=
  purged.op = node.op ∧ purged.output_shapes = node.output_shapes ∧
    List.Forall₂ (Follows heap deleted) node.input_values purged.input_values

theorem purge_node {order : List Nat} (purgeable : Purgeable heap (· ∈ order))
    (id : Nat) :
    Purged heap (· ∈ order) (heap.node id) ((purge order heap).node id) := by
  induction order generalizing heap with
  | nil =>
      refine ⟨rfl, rfl, ?_⟩
      exact List.forall₂_same.mpr fun input _ => .outside List.not_mem_nil
  | cons t order ih =>
      have isDeleted : t ∈ t :: order := List.mem_cons_self
      have later := (purgeable.delete isDeleted).subset fun u =>
        List.mem_cons_of_mem t
      obtain ⟨op, shapes, inputs⟩ := ih later
      refine ⟨op, shapes, ?_⟩
      rw [deleteTranspose_node, List.forall₂_map_left_iff] at inputs
      rw [purge, List.foldl_cons]
      rw [List.forall₂_iff_get] at inputs ⊢
      refine ⟨inputs.1, fun i bound bound' => ?_⟩
      exact (inputs.2 i bound bound').of_delete purgeable isDeleted
        (fun u => List.mem_cons) rfl
        (purgeable.oneOutput id _ (List.get_mem _ _))

theorem purge_size (order : List Nat) :
    (purge order heap).size = heap.size := by
  induction order generalizing heap with
  | nil => rfl
  | cons t order ih => exact ih

theorem Purged.unique {deleted : Nat → Prop} {node first second : Node}
    (left : Purged heap deleted node first)
    (right : Purged heap deleted node second) :
    first = second := by
  obtain ⟨leftOp, leftShapes, leftInputs⟩ := left
  obtain ⟨rightOp, rightShapes, rightInputs⟩ := right
  have inputs : first.input_values = second.input_values := by
    generalize node.input_values = sources at leftInputs rightInputs
    generalize first.input_values = firsts at leftInputs ⊢
    generalize second.input_values = seconds at rightInputs ⊢
    induction leftInputs generalizing seconds with
    | nil =>
        cases rightInputs
        rfl
    | cons follows _ ih =>
        cases rightInputs with
        | cons follows' rest => rw [follows.unique follows', ih _ rest]
  cases first
  cases second
  simp only [Node.mk.injEq]
  exact ⟨leftOp.trans rightOp.symm, inputs, leftShapes.trans rightShapes.symm⟩

theorem exists_of_forall₂ {α β : Type} {R : α → β → Prop} {sources : List α}
    {images : List β} (related : List.Forall₂ R sources images) {image : β}
    (member : image ∈ images) :
    ∃ source, R source image := by
  induction related with
  | nil => exact absurd member List.not_mem_nil
  | cons here _ ih =>
      cases List.mem_cons.mp member with
      | inl isFirst => exact ⟨_, isFirst ▸ here⟩
      | inr isLater => exact ih isLater

/-- Wherever the transposes are allocated, each input of a node that stays ends
at the first producer that is not deleted. -/
theorem purge_confluent {deleted : Nat → Prop}
    (purgeable : Purgeable heap deleted) {order order' : List Nat}
    (enumerates : ∀ t, t ∈ order ↔ deleted t)
    (enumerates' : ∀ t, t ∈ order' ↔ deleted t) :
    (∀ id, ¬ deleted id →
      Purged heap deleted (heap.node id) ((purge order heap).node id) ∧
      ∀ input ∈ ((purge order heap).node id).input_values,
        ¬ deleted input.node) ∧
    purge order heap = purge order' heap := by
  have sameMembers : (· ∈ order) = deleted :=
    funext fun t => propext (enumerates t)
  have sameMembers' : (· ∈ order') = deleted :=
    funext fun t => propext (enumerates' t)
  have purged := fun id => @purge_node heap order (sameMembers ▸ purgeable) id
  have purged' :=
    fun id => @purge_node heap order' (sameMembers' ▸ purgeable) id
  rw [sameMembers] at purged
  rw [sameMembers'] at purged'
  constructor
  · intro id _
    refine ⟨purged id, fun input member => ?_⟩
    obtain ⟨_, _, inputs⟩ := purged id
    obtain ⟨source, follows⟩ := exists_of_forall₂ inputs member
    exact follows.notDeleted
  · have nodes : (purge order heap).node = (purge order' heap).node :=
      funext fun id => (purged id).unique (purged' id)
    have sizes : (purge order heap).size = (purge order' heap).size := by
      rw [purge_size, purge_size]
    generalize purge order heap = after at *
    generalize purge order' heap = after' at *
    cases after
    cases after'
    simp only [Heap.mk.injEq]
    exact ⟨nodes, sizes⟩

end Purge

/-- Both transposes have several users. -/
def chainHeap : Heap := .ofList [⟨.Parameter [2, 2], [], [[2, 2]]⟩,
  ⟨.Transpose [1, 0], [⟨0, 0⟩], [[2, 2]]⟩,
  ⟨.Transpose [1, 0], [⟨1, 0⟩], [[2, 2]]⟩, ⟨.Unary "Abs", [⟨2, 0⟩], [[2, 2]]⟩,
  ⟨.Binary "Add", [⟨2, 0⟩, ⟨1, 0⟩], [[2, 2]]⟩]

theorem chainHeap_ordered (id : Nat) :
    ∀ input ∈ (chainHeap.node id).input_values,
    input.node < id ∧ input.index = 0 := by
  by_cases below : id < 5
  · exact (by decide : ∀ id < 5, ∀ input ∈ (chainHeap.node id).input_values,
      input.node < id ∧ input.index = 0) id below
  · have isDefault : chainHeap.node id = default := by
      simp only [chainHeap, Heap.ofList, List.getD_eq_getElem?_getD]
      rw [List.getElem?_eq_none (Nat.not_lt.mp below), Option.getD_none]
    rw [isDefault]
    exact fun input member => absurd member List.not_mem_nil

theorem chainHeap_purgeable : Purgeable chainHeap (· ∈ [1, 2]) where
  oneInput := by decide
  oneOutput := fun id input member _ => (chainHeap_ordered id input member).2
  acyclic := by
    intro id cycle
    have increases : ∀ {producer reader},
        Relation.TransGen chainHeap.Feeds producer reader →
        producer < reader := by
      intro producer reader path
      induction path with
      | single feeds =>
          obtain ⟨input, member, rfl⟩ := feeds
          exact (chainHeap_ordered _ input member).1
      | tail _ feeds ih =>
          obtain ⟨input, member, rfl⟩ := feeds
          exact Nat.lt_trans ih (chainHeap_ordered _ input member).1
    exact Nat.lt_irrefl id (increases cycle)

theorem purge_confluent_chain :
    (∀ id, ¬ id ∈ [1, 2] →
      Purged chainHeap (· ∈ [1, 2]) (chainHeap.node id)
        ((purge [2, 1] chainHeap).node id) ∧
      ∀ input ∈ ((purge [2, 1] chainHeap).node id).input_values,
        ¬ input.node ∈ [1, 2]) ∧
    purge [2, 1] chainHeap = purge [1, 2] chainHeap :=
  purge_confluent chainHeap_purgeable (by simp [or_comm]) fun _ => Iff.rfl

end NGraphBridge.TransposeSinking
