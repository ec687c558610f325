import Mathlib.Data.Fintype.Card
import Mathlib.Data.Set.Finite.List
import Mathlib.Logic.Relation
import Mathlib.Order.RelClasses

/-!
# Acyclic relations, insertion and contraction of edges

A directed graph is its edge relation.  This file has the facts about cycles
that an incremental cycle detector and a greedy contraction rest on.
-/

namespace NGraphBridge.Digraph

open Relation

variable {α β : Type*} {edge : α → α → Prop}

/-- No vertex reaches itself by one edge or more. -/
def Acyclic (edge : α → α → Prop) : Prop :=
  ∀ vertex, ¬ TransGen edge vertex vertex

/-- The edge relation with one more edge. -/
def insert (edge : α → α → Prop) (source target : α) : α → α → Prop :=
  fun left right => edge left right ∨ (left = source ∧ right = target)

/-- The edge relation without one edge. -/
def remove (edge : α → α → Prop) (source target : α) : α → α → Prop :=
  fun left right => edge left right ∧ ¬ (left = source ∧ right = target)

/-- The edges between different classes of vertices. -/
def quotient (edge : α → α → Prop) (classOf : α → β) : β → β → Prop :=
  fun left right => left ≠ right ∧
    ∃ source target, edge source target ∧
      classOf source = left ∧ classOf target = right

theorem Acyclic.mono {smaller : α → α → Prop} (acyclic : Acyclic edge)
    (subset : ∀ left right, smaller left right → edge left right) :
    Acyclic smaller := by
  intro vertex cycle
  exact acyclic vertex (TransGen.mono subset _ _ cycle)

theorem Acyclic.irrefl (acyclic : Acyclic edge) (vertex : α) :
    ¬ edge vertex vertex :=
  fun loop => acyclic vertex (.single loop)

theorem acyclic_of_rank [Preorder β] (rank : α → β)
    (increasing : ∀ left right, edge left right → rank left < rank right) :
    Acyclic edge := by
  intro vertex cycle
  have climbs : ∀ left right, TransGen edge left right →
      rank left < rank right := by
    intro left right path
    induction path with
    | single step => exact increasing _ _ step
    | tail _ step ih => exact ih.trans (increasing _ _ step)
  exact lt_irrefl _ (climbs vertex vertex cycle)

/-- A finite graph without cycles can be gone through from its sources. -/
theorem Acyclic.wellFounded (acyclic : Acyclic edge) (vertices : List α)
    (inside : ∀ left right, edge left right → left ∈ vertices) :
    WellFounded edge := by
  let before : {vertex // vertex ∈ vertices} → {vertex // vertex ∈ vertices} →
      Prop :=
    fun left right => TransGen edge left right
  have trans : IsTrans _ before :=
    ⟨fun _ _ _ first second => first.trans second⟩
  have irrefl : Std.Irrefl before := ⟨fun vertex => acyclic vertex⟩
  have finite : Finite {vertex // vertex ∈ vertices} :=
    (List.finite_toSet vertices).to_subtype
  have founded : WellFounded before :=
    Finite.wellFounded_of_trans_of_irrefl before
  have onVertices : ∀ vertex : {vertex // vertex ∈ vertices},
      Acc edge vertex.val := by
    intro vertex
    induction vertex using founded.induction with
    | _ vertex ih =>
        refine .intro _ fun left step => ?_
        exact ih ⟨left, inside left _ step⟩ (.single step)
  exact ⟨fun vertex => .intro _ fun left step =>
    onVertices ⟨left, inside left _ step⟩⟩

/-- A path that uses the inserted edge reaches its source and leaves from its
target. -/
theorem transGen_insert {source target left right : α}
    (path : TransGen (insert edge source target) left right) :
    TransGen edge left right ∨
      (ReflTransGen edge left source ∧ ReflTransGen edge target right) := by
  induction path with
  | single step =>
      rcases step with old | ⟨rfl, rfl⟩
      · exact .inl (.single old)
      · exact .inr ⟨.refl, .refl⟩
  | tail _ step ih =>
      rcases step with old | ⟨rfl, rfl⟩
      · rcases ih with direct | ⟨before, after⟩
        · exact .inl (direct.tail old)
        · exact .inr ⟨before, after.tail old⟩
      · rcases ih with direct | ⟨before, _⟩
        · exact .inr ⟨direct.to_reflTransGen, .refl⟩
        · exact .inr ⟨before, .refl⟩

/-- A cycle only uses edges that can be reached and left again. -/
theorem acyclic_of_inner {bigger : α → α → Prop}
    (inner : ∀ left right, bigger left right → (∃ before, bigger before left) →
      (∃ after, bigger right after) → edge left right)
    (acyclic : Acyclic edge) : Acyclic bigger := by
  have route : ∀ left right, TransGen bigger left right →
      (∃ before, bigger before left) →
      (∃ after, bigger right after) → TransGen edge left right := by
    intro left right path entered
    induction path with
    | single step => exact fun left_ => .single (inner _ _ step entered left_)
    | @tail middle last before step ih =>
        intro left_
        have reached : ∃ previous, bigger previous middle := by
          cases before with
          | single first => exact ⟨_, first⟩
          | tail _ previous => exact ⟨_, previous⟩
        exact (ih ⟨_, step⟩).tail (inner _ _ step reached left_)
  intro vertex cycle
  have entered : ∃ before, bigger before vertex := by
    cases cycle with
    | single step => exact ⟨_, step⟩
    | tail _ step => exact ⟨_, step⟩
  have left_ : ∃ after, bigger vertex after := by
    obtain ⟨next, step, _⟩ := TransGen.head'_iff.mp cycle
    exact ⟨next, step⟩
  exact acyclic vertex (route vertex vertex cycle entered left_)

/-- Inserting an edge makes a cycle exactly when its target already reaches
its source. -/
theorem acyclic_insert_iff {source target : α} (acyclic : Acyclic edge) :
    Acyclic (insert edge source target) ↔
    ¬ ReflTransGen edge target source := by
  constructor
  · intro extended path
    have old : ReflTransGen (insert edge source target) target source :=
      ReflTransGen.mono (fun _ _ step => .inl step) _ _ path
    exact extended source (TransGen.head' (.inr ⟨rfl, rfl⟩) old)
  · intro unreachable vertex cycle
    rcases transGen_insert cycle with direct | ⟨before, after⟩
    · exact acyclic vertex direct
    · exact unreachable (after.trans before)

theorem quotient_path (classOf : α → β) {left right : α}
    (path : ReflTransGen edge left right) :
    ReflTransGen (quotient edge classOf) (classOf left) (classOf right) := by
  induction path with
  | refl => exact .refl
  | @tail middle last _ step ih =>
      by_cases same : classOf middle = classOf last
      · rwa [← same]
      · exact ih.tail ⟨same, middle, last, step, rfl, rfl⟩

/-- A path carries over to another graph along a relation between the vertices,
if every edge does and no vertex stands for two. -/
theorem path_transport {other : β → β → Prop} {stands : α → β → Prop}
    (functional : ∀ vertex first second, stands vertex first →
      stands vertex second →
      first = second)
    (carries : ∀ left right, edge left right →
      ∃ first second, stands left first ∧ stands right second ∧
      other first second)
    {left right : α} {first last : β} (path : ReflTransGen edge left right)
    (atLeft : stands left first) (atRight : stands right last) :
    ReflTransGen other first last := by
  induction path generalizing last with
  | refl =>
      rw [functional _ _ _ atLeft atRight]
  | tail _ step ih =>
      obtain ⟨middle, target, atMiddle, atTarget, carried⟩ := carries _ _ step
      rw [functional _ _ _ atRight atTarget]
      exact (ih atMiddle).tail carried

/-- When the quotient is acyclic, a path that leaves a class never comes
back. -/
theorem class_convex {classOf : α → β}
    (acyclic : Acyclic (quotient edge classOf)) {first middle last : α}
    (before : ReflTransGen edge first middle)
    (after : ReflTransGen edge middle last)
    (same : classOf first = classOf last) : classOf middle = classOf first := by
  by_contra different
  have out := quotient_path classOf before
  have back := quotient_path classOf after
  rw [← same] at back
  rcases ReflTransGen.cases_head out with equal | ⟨next, step, rest⟩
  · exact different equal.symm
  · exact acyclic (classOf first) (TransGen.head' step (rest.trans back))

/-- Two namings of the classes that agree on the ends of edges have acyclic
quotients together. -/
theorem acyclic_quotient_congr {γ : Type*} {classOf : α → β} {other : α → γ}
    (agree : ∀ first second, (∃ third, edge first third ∨ edge third first) →
      (∃ third, edge second third ∨ edge third second) →
      (other first = other second ↔ classOf first = classOf second))
    (acyclic : Acyclic (quotient edge classOf)) :
    Acyclic (quotient edge other) := by
  have translate : ∀ left right, TransGen (quotient edge other) left right →
      ∃ source target, other source = left ∧ other target = right ∧
        (∃ third, edge source third ∨ edge third source) ∧
        (∃ third, edge target third ∨ edge third target) ∧
        TransGen (quotient edge classOf) (classOf source) (classOf target) := by
    have single : ∀ left right, quotient edge other left right →
        ∃ source target, other source = left ∧ other target = right ∧
          (∃ third, edge source third ∨ edge third source) ∧
          (∃ third, edge target third ∨ edge third target) ∧
          quotient edge classOf (classOf source) (classOf target) := by
      rintro left right ⟨different, source, target, step, rfl, rfl⟩
      have sourceOn : ∃ third, edge source third ∨ edge third source :=
        ⟨target, .inl step⟩
      have targetOn : ∃ third, edge target third ∨ edge third target :=
        ⟨source, .inr step⟩
      refine ⟨source, target, rfl, rfl, sourceOn, targetOn, ?_, source,
        target, step, rfl, rfl⟩
      intro same
      exact different ((agree source target sourceOn targetOn).mpr same)
    intro left right path
    induction path with
    | single step =>
        obtain ⟨source, target, atLeft, atRight, sourceOn, targetOn, out⟩ :=
          single _ _ step
        exact ⟨source, target, atLeft, atRight, sourceOn, targetOn, .single out⟩
    | tail _ step ih =>
        obtain ⟨source, middle, atLeft, atMiddle, sourceOn, middleOn, before⟩ :=
          ih
        obtain ⟨next, target, atNext, atRight, nextOn, targetOn, out⟩ :=
          single _ _ step
        have joined : classOf middle = classOf next :=
          (agree middle next middleOn nextOn).mp (atMiddle.trans atNext.symm)
        rw [← joined] at out
        exact ⟨source, target, atLeft, atRight, sourceOn, targetOn,
          before.tail out⟩
  intro vertex cycle
  obtain ⟨source, target, atSource, atTarget, sourceOn, targetOn, path⟩ :=
    translate vertex vertex cycle
  have same : classOf source = classOf target :=
    (agree source target sourceOn targetOn).mp (atSource.trans atTarget.symm)
  rw [same] at path
  exact acyclic _ path

/-- Taking classes apart makes no cycle, when there is none inside them: a finer
naming either keeps the class of a vertex together or leaves the vertex
alone. -/
theorem acyclic_quotient_refine {γ : Type*} {classOf : α → β} {finer : α → γ}
    {on : α → Prop}
    (inside : ∀ left right, edge left right → on left ∧ on right)
    (refines : ∀ first second, on first → on second →
      finer first = finer second →
      classOf first = classOf second)
    (alone : ∀ first second, on first → on second →
      classOf first = classOf second →
      finer first = finer second ∨ ∀ other, on other →
        finer other = finer first →
        other = first)
    (acyclic : Acyclic edge) (coarse : Acyclic (quotient edge classOf)) :
    Acyclic (quotient edge finer) := by
  -- a path leaves a class for good, or stays in it
  have route : ∀ left right, TransGen (quotient edge finer) left right →
      ∃ source target, on source ∧ on target ∧ finer source = left ∧
      finer target = right ∧
        (TransGen (quotient edge classOf) (classOf source) (classOf target) ∨
          (classOf source = classOf target ∧ TransGen edge source target ∧
            ∀ other, on other → finer other = finer target →
            other = target)) := by
    have single : ∀ left right, quotient edge finer left right →
        ∃ source target, on source ∧ on target ∧ finer source = left ∧
        finer target = right ∧
          (quotient edge classOf (classOf source) (classOf target) ∨
            (classOf source = classOf target ∧ edge source target ∧
              (∀ other, on other → finer other = finer source →
                other = source) ∧
              ∀ other, on other → finer other = finer target →
              other = target)) := by
      rintro left right ⟨different, source, target, step, rfl, rfl⟩
      obtain ⟨sourceOn, targetOn⟩ := inside source target step
      refine ⟨source, target, sourceOn, targetOn, rfl, rfl, ?_⟩
      by_cases same : classOf source = classOf target
      · have sourceAlone :=
          (alone source target sourceOn targetOn same).resolve_left different
        have targetAlone :=
          (alone target source targetOn sourceOn same.symm).resolve_left
            (Ne.symm different)
        exact .inr ⟨same, step, sourceAlone, targetAlone⟩
      · exact .inl ⟨same, source, target, step, rfl, rfl⟩
    intro left right path
    induction path with
    | single step =>
        obtain ⟨source, target, sourceOn, targetOn, atLeft, atRight, out⟩ :=
          single _ _ step
        refine ⟨source, target, sourceOn, targetOn, atLeft, atRight, ?_⟩
        cases out with
        | inl crosses => exact .inl (.single crosses)
        | inr stays => exact .inr ⟨stays.1, .single stays.2.1, stays.2.2.2⟩
    | tail _ step ih =>
        obtain ⟨source, middle, sourceOn, middleOn, atLeft, atMiddle, before⟩ :=
          ih
        obtain ⟨next, target, nextOn, targetOn, atNext, atRight, out⟩ :=
          single _ _ step
        refine ⟨source, target, sourceOn, targetOn, atLeft, atRight, ?_⟩
        have meet : finer next = finer middle := atNext.trans atMiddle.symm
        have joined : classOf middle = classOf next :=
          refines middle next middleOn nextOn meet.symm
        cases before with
        | inl crossed =>
            cases out with
            | inl crosses => exact .inl (crossed.tail (joined ▸ crosses))
            | inr stays => exact .inl (by rwa [← stays.1, ← joined])
        | inr stayed =>
            cases out with
            | inl crosses => exact .inl (.single (by rwa [stayed.1, joined]))
            | inr stays =>
                have same : next = middle := stayed.2.2 next nextOn meet
                rw [same] at stays
                exact .inr ⟨stayed.1.trans stays.1, stayed.2.1.tail stays.2.1,
                  stays.2.2.2⟩
  intro vertex cycle
  obtain ⟨source, target, sourceOn, targetOn, atSource, atTarget, path⟩ :=
    route vertex vertex cycle
  have same : finer source = finer target := atSource.trans atTarget.symm
  cases path with
  | inl crosses =>
      rw [refines source target sourceOn targetOn same] at crosses
      exact coarse _ crosses
  | inr stays =>
      rw [stays.2.2 source sourceOn same] at stays
      exact acyclic _ stays.2.1

section Contract

variable [DecidableEq α]

/-- Rename `dropped` to `kept`. -/
def merge (kept dropped vertex : α) : α :=
  if vertex = dropped then kept else vertex

@[simp] theorem merge_dropped (kept dropped : α) :
    merge kept dropped dropped = kept := by
  simp [merge]

theorem merge_of_ne {kept dropped vertex : α} (different : vertex ≠ dropped) :
    merge kept dropped vertex = vertex := by
  simp [merge, different]

@[simp] theorem merge_kept (kept dropped : α) :
    merge kept dropped kept = kept := by
  simp [merge]

/-- The edges left when the edge from `kept` to `dropped` is contracted. -/
def contract (edge : α → α → Prop) (kept dropped : α) : α → α → Prop :=
  fun left right => ∃ source target, remove edge kept dropped source target ∧
    merge kept dropped source = left ∧ merge kept dropped target = right

/-- A path of the contracted graph lifts to the graph, with a jump allowed
from either contracted vertex to the other. -/
theorem contract_path {kept dropped left right : α}
    (path : TransGen (contract edge kept dropped) left right) :
    ∃ source target, merge kept dropped source = left ∧
      merge kept dropped target = right ∧
      (TransGen (remove edge kept dropped) source target ∨
        (∃ first last, merge kept dropped first = kept ∧
          merge kept dropped last = kept ∧
          TransGen (remove edge kept dropped) source first ∧
          TransGen (remove edge kept dropped) last target)) := by
  induction path with
  | single step =>
      obtain ⟨source, target, old, rfl, rfl⟩ := step
      exact ⟨source, target, rfl, rfl, .inl (.single old)⟩
  | tail _ step ih =>
      obtain ⟨source, target, old, sourceClass, rfl⟩ := step
      obtain ⟨first, last, rfl, lastClass, route⟩ := ih
      by_cases joined : last = source
      · subst joined
        refine ⟨first, target, rfl, rfl, ?_⟩
        rcases route with direct | ⟨out, back, outClass, backClass,
          before, after⟩
        · exact .inl (direct.tail old)
        · exact .inr ⟨out, back, outClass, backClass, before, after.tail old⟩
      · have lastKept : merge kept dropped last = kept := by
          have equal := lastClass.trans sourceClass.symm
          by_contra other
          have lastPlain : last ≠ dropped := by
            rintro rfl
            simp at other
          have sourcePlain : source ≠ dropped := by
            rintro rfl
            rw [merge_dropped] at equal
            exact other equal
          rw [merge_of_ne lastPlain, merge_of_ne sourcePlain] at equal
          exact joined equal
        have sourceKept : merge kept dropped source = kept := by
          rw [sourceClass, ← lastClass, lastKept]
        refine ⟨first, target, rfl, rfl, .inr ?_⟩
        rcases route with direct | ⟨out, back, outClass, backClass, before, _⟩
        · exact ⟨last, source, lastKept, sourceKept, direct, .single old⟩
        · exact ⟨out, source, outClass, sourceKept, before, .single old⟩

theorem merge_eq_kept {kept dropped vertex : α}
    (class_ : merge kept dropped vertex = kept) :
    vertex = kept ∨ vertex = dropped := by
  by_cases same : vertex = dropped
  · exact .inr same
  · exact .inl (by rwa [merge_of_ne same] at class_)

/-- Contracting an edge that is the only way from its source to its target
keeps the graph acyclic. -/
theorem acyclic_contract {kept dropped : α} (acyclic : Acyclic edge)
    (edgeThere : edge kept dropped)
    (only : ¬ ReflTransGen (remove edge kept dropped) kept dropped) :
    Acyclic (contract edge kept dropped) := by
  have old : ∀ left right, remove edge kept dropped left right →
      edge left right :=
    fun _ _ step => step.1
  have stuck : ∀ first last, merge kept dropped first = kept →
      merge kept dropped last = kept →
      ¬ TransGen (remove edge kept dropped) first last := by
    intro first last firstClass lastClass path
    rcases merge_eq_kept firstClass with rfl | rfl
    · rcases merge_eq_kept lastClass with rfl | rfl
      · exact acyclic _ (TransGen.mono old _ _ path)
      · exact only path.to_reflTransGen
    · rcases merge_eq_kept lastClass with rfl | rfl
      · exact acyclic _ (TransGen.head edgeThere (TransGen.mono old _ _ path))
      · exact acyclic _ (TransGen.mono old _ _ path)
  intro vertex cycle
  obtain ⟨source, target, sourceClass, targetClass, route⟩ :=
    contract_path cycle
  have classes := sourceClass.trans targetClass.symm
  have cases_ : source = target ∨ (merge kept dropped source = kept ∧
      merge kept dropped target = kept) := by
    by_cases equal : source = target
    · exact .inl equal
    · right
      by_cases sourceDropped : source = dropped
      · subst sourceDropped
        rw [merge_dropped] at classes ⊢
        exact ⟨rfl, classes.symm⟩
      · by_cases targetDropped : target = dropped
        · subst targetDropped
          rw [merge_dropped] at classes ⊢
          exact ⟨classes, rfl⟩
        · rw [merge_of_ne sourceDropped, merge_of_ne targetDropped] at classes
          exact absurd classes equal
  rcases route with direct | ⟨out, back, outClass, backClass, before, after⟩
  · rcases cases_ with rfl | ⟨sourceKept, targetKept⟩
    · exact acyclic _ (TransGen.mono old _ _ direct)
    · exact stuck source target sourceKept targetKept direct
  · rcases cases_ with rfl | ⟨sourceKept, targetKept⟩
    · exact stuck back out backClass outClass (after.trans before)
    · exact stuck source out sourceKept outClass before

end Contract

end NGraphBridge.Digraph
