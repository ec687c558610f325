import Mathlib.Data.List.Sort
import Mathlib.Order.Basic

/-!
# Finite sets as increasing lists

A set is the strictly increasing list of its elements.  The representation is
canonical, so equality of sets is equality of lists, and walking the list is
walking the set in increasing order.
-/

namespace NGraphBridge

/-- A finite set, listed in strictly increasing order. -/
structure OrderedSet (α : Type u) [LinearOrder α] where
  elems : List α
  sorted : elems.Pairwise (· < ·)

namespace OrderedSet

variable {α : Type u} [LinearOrder α]

instance : Membership α (OrderedSet α) where
  mem set value := value ∈ set.elems

@[simp] theorem mem_elems {set : OrderedSet α} {value : α} :
    value ∈ set.elems ↔ value ∈ set :=
  Iff.rfl

instance (value : α) (set : OrderedSet α) : Decidable (value ∈ set) :=
  inferInstanceAs (Decidable (value ∈ set.elems))

instance : EmptyCollection (OrderedSet α) where
  emptyCollection := ⟨[], List.Pairwise.nil⟩

@[simp] theorem notMem_empty (value : α) : value ∉ (∅ : OrderedSet α) :=
  List.not_mem_nil

theorem elems_injective :
    Function.Injective (OrderedSet.elems : OrderedSet α → List α) := by
  intro left right equality
  cases left
  cases right
  cases equality
  rfl

instance : DecidableEq (OrderedSet α) := fun left right =>
  decidable_of_iff (left.elems = right.elems) elems_injective.eq_iff

/-- Insert `value` into an increasing list, keeping a value already there. -/
def insertElem (value : α) : List α → List α
  | [] => [value]
  | head :: tail =>
      if value < head then value :: head :: tail
      else if value = head then head :: tail
      else head :: insertElem value tail

theorem mem_insertElem {value candidate : α} {list : List α} :
    candidate ∈ insertElem value list ↔
      candidate = value ∨ candidate ∈ list := by
  induction list with
  | nil => simp [insertElem]
  | cons head tail ih =>
      by_cases below : value < head
      · simp [insertElem, below]
      · by_cases same : value = head
        · subst same
          simp [insertElem]
        · simp only [insertElem, below, same, if_false, List.mem_cons, ih]
          tauto

theorem insertElem_sorted (value : α) {list : List α}
    (sorted : list.Pairwise (· < ·)) :
    (insertElem value list).Pairwise (· < ·) := by
  induction list with
  | nil => simp [insertElem]
  | cons head tail ih =>
      obtain ⟨headBelow, tailSorted⟩ := List.pairwise_cons.mp sorted
      by_cases below : value < head
      · simp only [insertElem, below, if_true]
        refine List.pairwise_cons.mpr ⟨?_, sorted⟩
        intro candidate member
        rcases List.mem_cons.mp member with rfl | inTail
        · exact below
        · exact below.trans (headBelow candidate inTail)
      · by_cases same : value = head
        · simpa [insertElem, below, same] using sorted
        · simp only [insertElem, below, same, if_false]
          refine List.pairwise_cons.mpr ⟨?_, ih tailSorted⟩
          intro candidate member
          rcases mem_insertElem.mp member with rfl | inTail
          · exact lt_of_le_of_ne (not_lt.mp below) (Ne.symm same)
          · exact headBelow candidate inTail

def insert (value : α) (set : OrderedSet α) : OrderedSet α :=
  ⟨insertElem value set.elems, insertElem_sorted value set.sorted⟩

@[simp] theorem mem_insert {value candidate : α} {set : OrderedSet α} :
    candidate ∈ set.insert value ↔ candidate = value ∨ candidate ∈ set :=
  mem_insertElem

/-- The set of the values of a list. -/
def ofList (list : List α) : OrderedSet α :=
  list.foldr insert ∅

@[simp] theorem mem_ofList {list : List α} {value : α} :
    value ∈ ofList list ↔ value ∈ list := by
  induction list with
  | nil => simp [ofList]
  | cons head tail ih =>
      simp only [ofList, List.foldr_cons, mem_insert, List.mem_cons] at ih ⊢
      rw [ih]

end OrderedSet

end NGraphBridge
