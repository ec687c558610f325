import Mathlib.Logic.Function.Basic
import Mathlib.Logic.Relation
import Mathlib.Algebra.BigOperators.Group.List.Basic
import Mathlib.Algebra.GroupWithZero.Nat
import Mathlib.Algebra.Order.BigOperators.Group.List
import Mathlib.Algebra.Order.Group.Nat
import Mathlib.Data.List.Nodup

/-!
# Depth-first search with an explicit stack

The search marks vertices as visited, follows the successors that are
allowed, and gives up as soon as it meets a successor to stop at.  It runs on
fuel; `budget` is enough of it.
-/

namespace NGraphBridge.DepthFirst

open Relation

variable {α : Type*}

structure Result (α : Type*) where
  visited : α → Bool
  /-- The vertices in the order they were visited. -/
  delta : List α
  /-- False when the search met a vertex to stop at. -/
  completed : Bool

section Search

variable (next : α → List α) (stop allow : α → Bool)

/-- Push the successors to look at; `none` when one of them is to stop at. -/
def push (visited : α → Bool) : List α → List α → Option (List α)
  | [], stack => some stack
  | successor :: successors, stack =>
      if stop successor then none
      else if !visited successor && allow successor then
        push visited successors (successor :: stack)
      else push visited successors stack

def run [DecidableEq α] : Nat → (α → Bool) → List α → List α → Result α
  | 0, visited, delta, _ => ⟨visited, delta, true⟩
  | _ + 1, visited, delta, [] => ⟨visited, delta, true⟩
  | fuel + 1, visited, delta, vertex :: stack =>
      if visited vertex then run fuel visited delta stack
      else
        let visited := Function.update visited vertex true
        let delta := delta ++ [vertex]
        match push stop allow visited (next vertex) stack with
        | none => ⟨visited, delta, false⟩
        | some stack => run fuel visited delta stack

/-- One unit for the start, and one for every edge. -/
def budget (vertices : List α) : Nat :=
  (vertices.map (fun vertex => (next vertex).length)).sum + 1

/-- What a state of the search can still push. -/
def pending (vertices : List α) (visited : α → Bool) : Nat :=
  (vertices.map
    (fun vertex => if visited vertex then 0 else (next vertex).length)).sum

end Search

variable {next : α → List α} {stop allow : α → Bool}

theorem push_none {visited : α → Bool} {successors stack : List α}
    (stopped : push stop allow visited successors stack = none) :
    ∃ vertex ∈ successors, stop vertex = true := by
  induction successors generalizing stack with
  | nil => simp [push] at stopped
  | cons head tail ih =>
      by_cases atHead : stop head = true
      · exact ⟨head, by simp, atHead⟩
      · have later : ∃ vertex ∈ tail, stop vertex = true := by
          simp only [push, atHead, Bool.false_eq_true, if_false] at stopped
          split at stopped <;> exact ih stopped
        obtain ⟨vertex, member, isStop⟩ := later
        exact ⟨vertex, by simp [member], isStop⟩

theorem push_some {visited : α → Bool} {successors stack pushed : List α}
    (success : push stop allow visited successors stack = some pushed) :
    (∀ vertex ∈ successors, stop vertex = false) ∧
      pushed.length ≤ stack.length + successors.length ∧
      ∀ vertex, vertex ∈ pushed ↔ vertex ∈ stack ∨
        (vertex ∈ successors ∧ visited vertex = false ∧
          allow vertex = true) := by
  induction successors generalizing stack with
  | nil =>
      simp only [push, Option.some.injEq] at success
      subst success
      simp
  | cons head tail ih =>
      by_cases atHead : stop head = true
      · simp [push, atHead] at success
      · simp only [push, atHead, Bool.false_eq_true, if_false] at success
        have goOn : stop head = false := by simpa using atHead
        split at success
        · rename_i taken
          have fresh : visited head = false ∧ allow head = true := by
            simpa using taken
          obtain ⟨noStop, short, members⟩ := ih success
          refine ⟨?_, ?_, ?_⟩
          · intro vertex member
            rcases List.mem_cons.mp member with rfl | later
            · exact goOn
            · exact noStop vertex later
          · simp only [List.length_cons] at short ⊢
            omega
          · intro vertex
            rw [members vertex]
            simp only [List.mem_cons]
            constructor
            · rintro ((rfl | old) | ⟨later, unseen, allowed⟩)
              · exact .inr ⟨.inl rfl, fresh⟩
              · exact .inl old
              · exact .inr ⟨.inr later, unseen, allowed⟩
            · rintro (old | ⟨rfl | later, unseen, allowed⟩)
              · exact .inl (.inr old)
              · exact .inl (.inl rfl)
              · exact .inr ⟨later, unseen, allowed⟩
        · rename_i skipped
          obtain ⟨noStop, short, members⟩ := ih success
          refine ⟨?_, ?_, ?_⟩
          · intro vertex member
            rcases List.mem_cons.mp member with rfl | later
            · exact goOn
            · exact noStop vertex later
          · simp only [List.length_cons]
            omega
          · intro vertex
            rw [members vertex]
            simp only [List.mem_cons]
            constructor
            · rintro (old | ⟨later, unseen, allowed⟩)
              · exact .inl old
              · exact .inr ⟨.inr later, unseen, allowed⟩
            · rintro (old | ⟨rfl | later, unseen, allowed⟩)
              · exact .inl old
              · exact absurd (by simp [unseen, allowed]) skipped
              · exact .inr ⟨later, unseen, allowed⟩

theorem pending_visit [DecidableEq α] (next : α → List α)
    {vertices : List α} (distinct : vertices.Nodup)
    {visited : α → Bool} {vertex : α} (member : vertex ∈ vertices)
    (fresh : visited vertex = false) :
    pending next vertices (Function.update visited vertex true) +
      (next vertex).length = pending next vertices visited := by
  induction vertices with
  | nil => simp at member
  | cons head tail ih =>
      obtain ⟨headFresh, tailDistinct⟩ := List.nodup_cons.mp distinct
      simp only [pending, List.map_cons, List.sum_cons] at ih ⊢
      by_cases same : vertex = head
      · subst same
        have tailSame : tail.map (fun candidate =>
              if Function.update visited vertex true candidate = true then 0
              else (next candidate).length) =
            tail.map (fun candidate =>
              if visited candidate = true then 0
              else (next candidate).length) := by
          apply List.map_congr_left
          intro candidate inTail
          have different : candidate ≠ vertex := by
            rintro rfl
            exact headFresh inTail
          simp [Function.update_of_ne different]
        rw [tailSame]
        simp [fresh]
        omega
      · have inTail : vertex ∈ tail :=
          (List.mem_cons.mp member).resolve_left same
        have rest := ih tailDistinct inTail
        have headSame : Function.update visited vertex true head =
            visited head :=
          Function.update_of_ne (Ne.symm same) true visited
        rw [headSame]
        omega

/-- The edges the search follows: to allowed vertices that were not visited
when it began. -/
def Follows (next : α → List α) (allow before : α → Bool)
    (left right : α) : Prop :=
  right ∈ next left ∧ allow right = true ∧ before right = false

/-- The state of a search from `start`: what was visited since it began is
`delta`, all of it was reached, and what it leads to is visited or waiting. -/
structure Inv (next : α → List α) (stop allow before : α → Bool) (start : α)
    (visited : α → Bool) (delta stack : List α) : Prop where
  marks : ∀ vertex, visited vertex = true ↔
    before vertex = true ∨ vertex ∈ delta
  distinct : delta.Nodup
  new : ∀ vertex ∈ delta, before vertex = false
  reached : ∀ vertex ∈ delta ++ stack,
    ReflTransGen (Follows next allow before) start vertex
  closed : ∀ vertex ∈ delta, ∀ successor ∈ next vertex,
    stop successor = false ∧ (allow successor = true →
      before successor = true ∨ successor ∈ delta ∨ successor ∈ stack)
  startNew : before start = false
  begun : start ∈ delta ∨ start ∈ stack

/-- What a finished search found. -/
structure Outcome (next : α → List α) (stop allow before : α → Bool) (start : α)
    (result : Result α) : Prop where
  marks : ∀ vertex, result.visited vertex = true ↔
    before vertex = true ∨ vertex ∈ result.delta
  distinct : result.delta.Nodup
  new : ∀ vertex ∈ result.delta, before vertex = false
  reached : ∀ vertex ∈ result.delta,
    ReflTransGen (Follows next allow before) start vertex
  stopped : result.completed = false → ∃ vertex ∈ result.delta,
    ∃ successor ∈ next vertex, stop successor = true
  closed : result.completed = true → start ∈ result.delta ∧
    ∀ vertex ∈ result.delta, ∀ successor ∈ next vertex,
      stop successor = false ∧ (allow successor = true →
        before successor = true ∨ successor ∈ result.delta)

variable {before : α → Bool} {root : α}

theorem Inv.start (fresh : before root = false) :
    Inv next stop allow before root before [] [root] where
  marks := by simp
  distinct := List.nodup_nil
  new := by simp
  reached := by simp [ReflTransGen.refl]
  closed := by simp
  startNew := fresh
  begun := .inr (by simp)

theorem Inv.finish {visited : α → Bool} {delta : List α}
    (inv : Inv next stop allow before root visited delta []) :
    Outcome next stop allow before root ⟨visited, delta, true⟩ where
  marks := inv.marks
  distinct := inv.distinct
  new := inv.new
  reached := by simpa using inv.reached
  stopped := by simp
  closed := by
    intro _
    refine ⟨by simpa using inv.begun, ?_⟩
    intro vertex member successor edge
    simpa using inv.closed vertex member successor edge

/-- A vertex popped a second time changes nothing. -/
theorem Inv.skip {visited : α → Bool} {delta stack : List α} {vertex : α}
    (inv : Inv next stop allow before root visited delta (vertex :: stack))
    (seen : visited vertex = true) :
    Inv next stop allow before root visited delta stack where
  marks := inv.marks
  distinct := inv.distinct
  new := inv.new
  reached := by
    intro candidate member
    apply inv.reached
    rcases List.mem_append.mp member with done | waiting
    · exact List.mem_append.mpr (.inl done)
    · exact List.mem_append.mpr (.inr (List.mem_cons_of_mem _ waiting))
  closed := by
    intro source member successor edge
    obtain ⟨goOn, known⟩ := inv.closed source member successor edge
    refine ⟨goOn, fun allowed => ?_⟩
    rcases known allowed with old | done | waiting
    · exact .inl old
    · exact .inr (.inl done)
    · rcases List.mem_cons.mp waiting with rfl | later
      · exact (inv.marks _).mp seen |>.imp_right .inl
      · exact .inr (.inr later)
  startNew := inv.startNew
  begun := by
    rcases inv.begun with done | waiting
    · exact .inl done
    · rcases List.mem_cons.mp waiting with rfl | later
      · rcases (inv.marks _).mp seen with old | done
        · rw [inv.startNew] at old
          exact absurd old (by simp)
        · exact .inl done
      · exact .inr later

theorem Inv.unknown {visited : α → Bool} {delta stack : List α} {vertex : α}
    (inv : Inv next stop allow before root visited delta stack)
    (fresh : visited vertex = false) :
    before vertex = false ∧ vertex ∉ delta := by
  have unmarked : ¬ (before vertex = true ∨ vertex ∈ delta) := by
    rw [← inv.marks, fresh]
    simp
  exact ⟨by simpa using fun old => unmarked (.inl old),
    fun member => unmarked (.inr member)⟩

theorem pending_le_budget {vertices : List α} (visited : α → Bool) :
    1 + pending next vertices visited ≤ budget next vertices := by
  have bound : pending next vertices visited ≤
      (vertices.map (fun vertex => (next vertex).length)).sum := by
    apply List.sum_le_sum
    intro vertex _
    split <;> omega
  simp only [budget]
  omega

theorem Inv.distinct_visit {visited : α → Bool} {delta stack : List α}
    {vertex : α} (inv : Inv next stop allow before root visited delta stack)
    (fresh : visited vertex = false) : (delta ++ [vertex]).Nodup := by
  refine List.Nodup.append inv.distinct (List.nodup_singleton _) ?_
  intro candidate member same
  rw [List.mem_singleton] at same
  subst same
  exact (inv.unknown fresh).2 member

theorem Inv.new_visit {visited : α → Bool} {delta stack : List α}
    {vertex : α} (inv : Inv next stop allow before root visited delta stack)
    (fresh : visited vertex = false) :
    ∀ candidate ∈ delta ++ [vertex], before candidate = false := by
  intro candidate member
  rcases List.mem_append.mp member with old | same
  · exact inv.new candidate old
  · rw [List.mem_singleton] at same
    subst same
    exact (inv.unknown fresh).1

variable [DecidableEq α]

theorem Inv.marks_visit {visited : α → Bool} {delta stack : List α} {vertex : α}
    (inv : Inv next stop allow before root visited delta (vertex :: stack))
    (candidate : α) :
    Function.update visited vertex true candidate = true ↔
      before candidate = true ∨ candidate ∈ delta ++ [vertex] := by
  by_cases same : candidate = vertex
  · subst same
    simp
  · rw [Function.update_of_ne same, inv.marks]
    simp [same]

/-- Visiting a fresh vertex whose successors were pushed. -/
theorem Inv.visit {visited : α → Bool} {delta stack pushed : List α}
    {vertex : α}
    (inv : Inv next stop allow before root visited delta (vertex :: stack))
    (fresh : visited vertex = false)
    (success : push stop allow (Function.update visited vertex true)
      (next vertex) stack = some pushed) :
    Inv next stop allow before root (Function.update visited vertex true)
      (delta ++ [vertex]) pushed := by
  obtain ⟨noStop, _, members⟩ := push_some success
  have vertexReached : ReflTransGen (Follows next allow before) root vertex :=
    inv.reached vertex (by simp)
  refine ⟨inv.marks_visit, inv.distinct_visit fresh,
    inv.new_visit fresh, ?_, ?_, inv.startNew, ?_⟩
  · intro candidate member
    rcases List.mem_append.mp member with done | waiting
    · rcases List.mem_append.mp done with old | same
      · exact inv.reached candidate (by simp [old])
      · rw [List.mem_singleton] at same
        subst same
        exact vertexReached
    · rcases (members candidate).mp waiting with old | ⟨edge, unseen, allowed⟩
      · exact inv.reached candidate (by simp [old])
      · refine vertexReached.tail ⟨edge, allowed, ?_⟩
        have unmarked : ¬ (before candidate = true ∨
            candidate ∈ delta ++ [vertex]) := by
          rw [← inv.marks_visit candidate, unseen]
          simp
        simpa using fun old => unmarked (.inl old)
  · intro source member successor edge
    rcases List.mem_append.mp member with old | same
    · obtain ⟨goOn, known⟩ := inv.closed source old successor edge
      refine ⟨goOn, fun allowed => ?_⟩
      rcases known allowed with before | done | waiting
      · exact .inl before
      · exact .inr (.inl (by simp [done]))
      · rcases List.mem_cons.mp waiting with rfl | later
        · exact .inr (.inl (by simp))
        · exact .inr (.inr ((members successor).mpr (.inl later)))
    · rw [List.mem_singleton] at same
      subst same
      refine ⟨noStop successor edge, fun allowed => ?_⟩
      cases seen : Function.update visited source true successor with
      | true =>
          exact ((inv.marks_visit successor).mp seen).imp_right .inl
      | false =>
          exact .inr
            (.inr ((members successor).mpr (.inr ⟨edge, seen, allowed⟩)))
  · rcases inv.begun with done | waiting
    · exact .inl (by simp [done])
    · rcases List.mem_cons.mp waiting with rfl | later
      · exact .inl (by simp)
      · exact .inr ((members root).mpr (.inl later))

/-- Visiting a fresh vertex that has a successor to stop at. -/
theorem Inv.halt {visited : α → Bool} {delta stack : List α} {vertex : α}
    (inv : Inv next stop allow before root visited delta (vertex :: stack))
    (fresh : visited vertex = false)
    (stopped : push stop allow (Function.update visited vertex true)
      (next vertex) stack = none) :
    Outcome next stop allow before root
      ⟨Function.update visited vertex true, delta ++ [vertex], false⟩ := by
  refine ⟨inv.marks_visit, inv.distinct_visit fresh,
    inv.new_visit fresh, ?_, ?_,
    by simp⟩
  · intro candidate member
    rcases List.mem_append.mp member with old | same
    · exact inv.reached candidate (by simp [old])
    · rw [List.mem_singleton] at same
      subst same
      exact inv.reached _ (by simp)
  · intro _
    exact ⟨vertex, by simp, push_none stopped⟩

/-- A search with fuel for what it can still push reaches its outcome. -/
theorem Inv.run {vertices : List α} (allVertices : vertices.Nodup)
    (inside : ∀ vertex ∈ vertices, ∀ successor ∈ next vertex,
      successor ∈ vertices)
    {fuel : Nat} {visited : α → Bool} {delta stack : List α}
    (inv : Inv next stop allow before root visited delta stack)
    (stackInside : ∀ vertex ∈ stack, vertex ∈ vertices)
    (enough : stack.length + pending next vertices visited ≤ fuel) :
    Outcome next stop allow before root
      (run next stop allow fuel visited delta stack) := by
  induction fuel generalizing visited delta stack with
  | zero =>
      have empty : stack = [] := List.eq_nil_of_length_eq_zero (by omega)
      subst empty
      exact inv.finish
  | succ fuel ih =>
      cases stack with
      | nil => exact inv.finish
      | cons vertex stack =>
          have vertexInside := stackInside vertex (by simp)
          have restInside : ∀ candidate ∈ stack, candidate ∈ vertices := by
            intro candidate member
            exact stackInside candidate (by simp [member])
          simp only [List.length_cons] at enough
          unfold DepthFirst.run
          cases seen : visited vertex with
          | true =>
              simp only [if_true]
              exact ih (inv.skip seen) restInside (by omega)
          | false =>
              simp only [Bool.false_eq_true, if_false]
              cases outcome : push stop allow
                  (Function.update visited vertex true) (next vertex) stack with
              | none => exact inv.halt seen outcome
              | some pushed =>
                  obtain ⟨_, short, members⟩ := push_some outcome
                  have less := pending_visit next allVertices
                    vertexInside seen
                  refine ih (inv.visit seen outcome) ?_ (by omega)
                  intro candidate member
                  rcases (members candidate).mp member with old | ⟨edge, _⟩
                  · exact restInside candidate old
                  · exact inside vertex vertexInside candidate edge

theorem run_outcome (next : α → List α) (stop allow : α → Bool)
    {vertices : List α} (allVertices : vertices.Nodup)
    (inside : ∀ vertex ∈ vertices, ∀ successor ∈ next vertex,
      successor ∈ vertices)
    (rootInside : root ∈ vertices) (fresh : before root = false) :
    Outcome next stop allow before root
      (run next stop allow (budget next vertices) before [] [root]) := by
  apply (Inv.start fresh).run allVertices inside
  · simpa using rootInside
  · simpa using pending_le_budget before

/-- A search with nothing to stop at completes. -/
theorem run_completed (next : α → List α) (allow : α → Bool) (fuel : Nat)
    (visited : α → Bool) (delta stack : List α) :
    (run next (fun _ => false) allow fuel visited delta stack).completed =
      true := by
  induction fuel generalizing visited delta stack with
  | zero => simp [run]
  | succ fuel ih =>
      cases stack with
      | nil => simp [run]
      | cons vertex stack =>
          unfold run
          by_cases seen : visited vertex = true
          · simp only [seen, if_true]
            exact ih visited delta stack
          · simp only [seen]
            cases pushed : push (fun _ => false) allow
                (Function.update visited vertex true) (next vertex) stack with
            | none =>
                obtain ⟨_, _, impossible⟩ := push_none pushed
                simp at impossible
            | some stack => exact ih _ _ stack

end NGraphBridge.DepthFirst
