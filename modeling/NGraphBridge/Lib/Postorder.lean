import Mathlib.Logic.Relation

/-!
# Postorder

A depth-first walk against the edges of a graph puts every vertex behind the
ones that it reads. It ends where no path leads back for ever.
-/

namespace NGraphBridge.Postorder

open Relation

variable {α : Type*} (reads : α → List α)

abbrev Edge (source target : α) : Prop := source ∈ reads target

/-- Every vertex of a list comes behind the ones that it reads. -/
def Behind (list : List α) : Prop :=
  ∀ earlier vertex rest, list = earlier ++ vertex :: rest →
    ∀ source ∈ reads vertex, source ∈ earlier

/-- What a visit to a vertex makes of the list of the vertices that are done. -/
structure Visits (vertex : α) (done result : List α) : Prop where
  behind : Behind reads result
  kept : ∀ other ∈ done, other ∈ result
  visited : vertex ∈ result
  reached : ∀ other ∈ result, other ∈ done ∨
    ReflTransGen (Edge reads) other vertex

variable [DecidableEq α]

noncomputable def visit (vertex : α) (accessible : Acc (Edge reads) vertex) :
    List α → List α :=
  Acc.rec (motive := fun _ _ => List α → List α)
    (fun vertex _ below done =>
      if vertex ∈ done then done
      else (reads vertex).attach.foldl
        (fun done source => below source.1 source.2 done) done ++
        [vertex])
    accessible

variable {reads}

omit [DecidableEq α] in
theorem behind_nil : Behind reads [] := by
  intro earlier vertex rest split
  exact absurd split.symm (by simp)

omit [DecidableEq α] in
theorem Behind.snoc {list : List α} {last : α} (behind : Behind reads list)
    (sources : ∀ source ∈ reads last, source ∈ list) :
    Behind reads (list ++ [last]) := by
  intro earlier vertex rest split
  cases List.eq_nil_or_concat rest with
  | inl isEnd =>
      subst isEnd
      obtain ⟨sameList, sameLast⟩ := List.append_inj' split rfl
      obtain rfl := (List.cons.inj sameLast).1
      exact sameList ▸ sources
  | inr isInner =>
      obtain ⟨inner, final, rfl⟩ := isInner
      have split : list ++ [last] = (earlier ++ vertex :: inner) ++
          [final] := by
        rw [split, List.concat_eq_append, List.append_assoc, List.cons_append]
      exact behind earlier vertex inner (List.append_inj' split rfl).1

omit [DecidableEq α] in
/-- Visits to several vertices, one after the other. -/
theorem visits_foldl {β : Type*} {vertex : β → α} {step : List α → β → List α}
    {list : List β} (each : ∀ place ∈ list, ∀ done, Behind reads done →
      Visits reads (vertex place) done (step done place)) {done : List α}
    (behind : Behind reads done) :
    Behind reads (list.foldl step done) ∧
      (∀ other ∈ done, other ∈ list.foldl step done) ∧
      (∀ place ∈ list, vertex place ∈ list.foldl step done) ∧
      ∀ other ∈ list.foldl step done, other ∈ done ∨
        ∃ place ∈ list, ReflTransGen (Edge reads) other (vertex place) := by
  induction list generalizing done with
  | nil =>
      exact ⟨behind, fun _ member => member,
        fun _ member => absurd member List.not_mem_nil,
        fun _ member => .inl member⟩
  | cons place list ih =>
      have here := each place List.mem_cons_self done behind
      obtain ⟨later, kept, visited, reached⟩ := ih
        (fun other member => each other (List.mem_cons_of_mem place member))
        here.behind
      refine ⟨later, fun other member => kept other (here.kept other member),
        ?_, ?_⟩
      · intro other member
        cases List.mem_cons.mp member with
        | inl same => exact same ▸ kept _ here.visited
        | inr member => exact visited other member
      · intro other member
        cases reached other member with
        | inl before =>
            refine (here.reached other before).imp_right fun path => ?_
            exact ⟨place, List.mem_cons_self, path⟩
        | inr after =>
            obtain ⟨source, isLater, path⟩ := after
            exact .inr ⟨source, List.mem_cons_of_mem place isLater, path⟩

theorem visit_visits {vertex : α} (accessible : Acc (Edge reads) vertex)
    {done : List α} (behind : Behind reads done) :
    Visits reads vertex done (visit reads vertex accessible done) := by
  induction accessible generalizing done with
  | intro vertex below ih =>
      have unfolded : visit reads vertex (.intro vertex below) done =
          if vertex ∈ done then done
          else (reads vertex).attach.foldl
            (fun done source =>
              visit reads source.1 (below source.1 source.2) done) done ++
              [vertex] := rfl
      rw [unfolded]
      by_cases isDone : vertex ∈ done
      · rw [if_pos isDone]
        exact ⟨behind, fun _ member => member, isDone,
          fun _ member => .inl member⟩
      · rw [if_neg isDone]
        obtain ⟨later, kept, visited, reached⟩ :=
          @visits_foldl α reads _ Subtype.val
            (fun done source =>
              visit reads source.1 (below source.1 source.2) done)
            (reads vertex).attach
            (fun source _ done behind => ih source.1 source.2 behind)
            done behind
        refine ⟨later.snoc fun source member =>
          visited ⟨source, member⟩ (List.mem_attach _ _),
          fun other member => List.mem_append_left _ (kept other member), by
          simp, ?_⟩
        intro other member
        cases List.mem_append.mp member with
        | inl before =>
            refine (reached other before).imp_right fun found => ?_
            obtain ⟨source, _, path⟩ := found
            exact path.tail source.2
        | inr isVertex =>
            rw [List.mem_singleton.mp isVertex]
            exact .inr .refl

end NGraphBridge.Postorder
