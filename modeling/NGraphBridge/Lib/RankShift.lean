import Mathlib.Data.List.Basic
import Mathlib.Data.List.Sort
import Mathlib.Data.List.Nodup
import Mathlib.Logic.Function.Basic
import Mathlib.Order.Basic

/-!
# Giving the keys of a list the values of another

The keys get the values position by position.  When the values are the keys'
own old values in sorted order, the keys at the front of the list can only go
down and the keys at the back can only go up.
-/

namespace NGraphBridge

section Reassign

variable {α β : Type*} [DecidableEq α]

/-- Assign `values` to `keys`, one after the other. -/
def reassign : List α → List β → (α → β) → α → β
  | key :: keys, value :: values, rank =>
      reassign keys values (Function.update rank key value)
  | _, _, rank => rank

theorem reassign_of_notMem {keys : List α} {values : List β} {rank : α → β}
    {key : α} (absent : key ∉ keys) :
    reassign keys values rank key = rank key := by
  induction keys generalizing values rank with
  | nil => simp [reassign]
  | cons head keys ih =>
      cases values with
      | nil => simp [reassign]
      | cons value values =>
          simp only [List.mem_cons, not_or] at absent
          rw [reassign, ih absent.2, Function.update_of_ne absent.1]

theorem reassign_getElem {keys : List α} {values : List β} {rank : α → β}
    (distinct : keys.Nodup) (sameLength : keys.length = values.length)
    (position : Nat) (inKeys : position < keys.length)
    (inValues : position < values.length) :
    reassign keys values rank keys[position] = values[position] := by
  induction keys generalizing values rank position with
  | nil => simp at inKeys
  | cons head keys ih =>
      obtain ⟨fresh, restDistinct⟩ := List.nodup_cons.mp distinct
      cases values with
      | nil => simp at sameLength
      | cons value values =>
          cases position with
          | zero =>
              simp only [reassign, List.getElem_cons_zero]
              rw [reassign_of_notMem fresh, Function.update_self]
          | succ position =>
              simp only [reassign, List.getElem_cons_succ]
              exact ih restDistinct (by simpa using sameLength) position
                (by simpa using inKeys) (by simpa using inValues)

end Reassign

section Sublist

variable {β : Type*} [Preorder β] {part whole : List β}

/-- In a sorted list, the front is at most a sublist, place by place. -/
theorem sublist_front_le (sub : part.Sublist whole)
    (sorted : whole.Pairwise (· ≤ ·)) (position : Nat)
    (inPart : position < part.length) (inWhole : position < whole.length) :
    whole[position] ≤ part[position] := by
  induction sub generalizing position with
  | slnil => simp at inPart
  | @cons part whole head sub ih =>
      obtain ⟨headBelow, restSorted⟩ := List.pairwise_cons.mp sorted
      cases position with
      | zero =>
          exact headBelow _ (sub.subset (List.getElem_mem inPart))
      | succ position =>
          have inFront : position < part.length := by omega
          have inRest : position < whole.length := by simpa using inWhole
          have step : whole[position] ≤ part[position] :=
            ih restSorted position inFront inRest
          have partSorted : part.Pairwise (· ≤ ·) := restSorted.sublist sub
          have next : part[position] ≤ part[position + 1] :=
            List.pairwise_iff_getElem.mp partSorted _ _ inFront inPart
              (by omega)
          exact step.trans next
  | @cons_cons part whole head sub ih =>
      obtain ⟨_, restSorted⟩ := List.pairwise_cons.mp sorted
      cases position with
      | zero => exact le_refl _
      | succ position =>
          exact ih restSorted position (by simpa using inPart)
            (by simpa using inWhole)

/-- In a sorted list, the back is at least a sublist, place by place. -/
theorem sublist_back_le (sub : part.Sublist whole)
    (sorted : whole.Pairwise (· ≤ ·)) (position : Nat)
    (inPart : position < part.length)
    (inWhole : whole.length - part.length + position < whole.length) :
    part[position] ≤ whole[whole.length - part.length + position] := by
  induction sub generalizing position with
  | slnil => simp at inPart
  | @cons part whole head sub ih =>
      obtain ⟨_, restSorted⟩ := List.pairwise_cons.mp sorted
      have short := sub.length_le
      have shift : (head :: whole).length - part.length + position =
          (whole.length - part.length + position) + 1 := by
        simp only [List.length_cons]
        omega
      simp only [shift, List.getElem_cons_succ]
      exact ih restSorted position inPart (by omega)
  | @cons_cons part whole head sub ih =>
      obtain ⟨headBelow, restSorted⟩ := List.pairwise_cons.mp sorted
      have short := sub.length_le
      cases position with
      | zero =>
          rcases List.mem_cons.mp (List.getElem_mem inWhole) with same | later
          · exact le_of_eq same.symm
          · exact headBelow _ later
      | succ position =>
          have inFront : position < part.length := by simpa using inPart
          have shift : (head :: whole).length - (head :: part).length +
              (position + 1) = (whole.length - part.length + position) + 1 := by
            simp only [List.length_cons]
            omega
          simp only [shift, List.getElem_cons_succ]
          exact ih restSorted position inFront (by omega)

end Sublist

section Resort

variable {α β : Type*} [LinearOrder β]
  {keys : List α} {values : List β} {rank : α → β}

/-- The values are the old values of the keys, sorted. -/
structure Resorts (keys : List α) (values : List β) (rank : α → β) : Prop where
  distinct : keys.Nodup
  injective : ∀ left ∈ keys, ∀ right ∈ keys, rank left = rank right →
    left = right
  permutation : values.Perm (keys.map rank)
  sorted : values.Pairwise (· ≤ ·)

theorem Resorts.sameLength (resorts : Resorts keys values rank) :
    keys.length = values.length := by
  simpa using resorts.permutation.length_eq.symm

theorem Resorts.strict (resorts : Resorts keys values rank) :
    values.Pairwise (· < ·) := by
  have oldDistinct : (keys.map rank).Nodup :=
    (List.nodup_map_iff_inj_on resorts.distinct).mpr
      (fun left leftIn right rightIn =>
        resorts.injective left leftIn right rightIn)
  have distinct : values.Nodup := resorts.permutation.nodup_iff.mpr oldDistinct
  exact (resorts.sorted.and distinct).imp
    (fun pair => lt_of_le_of_ne pair.1 pair.2)

/-- Positions in a list sorted by rank follow the ranks. -/
theorem position_lt {part : List α} (sorted : (part.map rank).Pairwise (· ≤ ·))
    {left right : α} (leftIn : left ∈ part) (rightIn : right ∈ part)
    (below : rank left < rank right) :
    ∃ first second : Nat, first < second ∧ part[first]? = some left ∧
      part[second]? = some right := by
  obtain ⟨first, firstIn, rfl⟩ := List.getElem_of_mem leftIn
  obtain ⟨second, secondIn, rfl⟩ := List.getElem_of_mem rightIn
  refine ⟨first, second, ?_, List.getElem?_eq_getElem firstIn,
    List.getElem?_eq_getElem secondIn⟩
  by_contra notBefore
  rcases Nat.lt_or_eq_of_le (Nat.le_of_not_lt notBefore) with after | rfl
  · have ordered := List.pairwise_iff_getElem.mp sorted second first
      (by simpa using secondIn) (by simpa using firstIn) after
    simp only [List.getElem_map] at ordered
    exact absurd below (not_lt.mpr ordered)
  · exact absurd below (lt_irrefl _)

variable [DecidableEq α]

theorem Resorts.mem (resorts : Resorts keys values rank) {key : α}
    (member : key ∈ keys) :
    ∃ other ∈ keys, rank other = reassign keys values rank key := by
  obtain ⟨position, inKeys, rfl⟩ := List.getElem_of_mem member
  have inValues : position < values.length := resorts.sameLength ▸ inKeys
  rw [reassign_getElem resorts.distinct resorts.sameLength position
    inKeys inValues]
  have old : values[position] ∈ keys.map rank :=
    resorts.permutation.mem_iff.mp (List.getElem_mem inValues)
  exact List.mem_map.mp old

theorem Resorts.lt_of_lt (resorts : Resorts keys values rank)
    {first second : Nat} (before : first < second)
    (firstIn : first < keys.length) (secondIn : second < keys.length) :
    reassign keys values rank keys[first] <
      reassign keys values rank keys[second] := by
  have sameLength := resorts.sameLength
  have firstInValues : first < values.length := sameLength ▸ firstIn
  have secondInValues : second < values.length := sameLength ▸ secondIn
  rw [reassign_getElem resorts.distinct sameLength first firstIn firstInValues,
    reassign_getElem resorts.distinct sameLength second secondIn secondInValues]
  exact List.pairwise_iff_getElem.mp resorts.strict _ _ _ _ before

theorem Resorts.injective_after (resorts : Resorts keys values rank)
    {left right : α} (leftIn : left ∈ keys) (rightIn : right ∈ keys)
    (same : reassign keys values rank left = reassign keys values rank right) :
    left = right := by
  obtain ⟨first, firstIn, rfl⟩ := List.getElem_of_mem leftIn
  obtain ⟨second, secondIn, rfl⟩ := List.getElem_of_mem rightIn
  rcases lt_trichotomy first second with before | rfl | after
  · exact absurd same (resorts.lt_of_lt before firstIn secondIn).ne
  · rfl
  · exact absurd same (resorts.lt_of_lt after secondIn firstIn).ne'

section Halves

variable {front back : List α}

/-- The front half of the keys, sorted by the old values, can only go down. -/
theorem Resorts.front_le (resorts : Resorts (front ++ back) values rank)
    (frontSorted : (front.map rank).Pairwise (· ≤ ·)) {key : α}
    (member : key ∈ front) :
    reassign (front ++ back) values rank key ≤ rank key := by
  obtain ⟨position, inFront, rfl⟩ := List.getElem_of_mem member
  have sub : (front.map rank).Sublist values := by
    apply List.sublist_of_subperm_of_pairwise _ frontSorted resorts.sorted
    apply List.Subperm.trans _ resorts.permutation.symm.subperm
    rw [List.map_append]
    exact (List.sublist_append_left _ _).subperm
  have sameLength := resorts.sameLength
  have inKeys : position < (front ++ back).length := by
    rw [List.length_append]
    omega
  have inValues : position < values.length := sameLength ▸ inKeys
  have atKey : (front ++ back)[position] = front[position] :=
    List.getElem_append_left inFront
  have new := @reassign_getElem α β _ _ _ rank resorts.distinct
    sameLength position inKeys inValues
  rw [atKey] at new
  rw [new]
  have below := sublist_front_le sub resorts.sorted position (by simpa) inValues
  simpa using below

/-- The back half of the keys, sorted by the old values, can only go up. -/
theorem Resorts.le_back (resorts : Resorts (front ++ back) values rank)
    (backSorted : (back.map rank).Pairwise (· ≤ ·)) {key : α}
    (member : key ∈ back) :
    rank key ≤ reassign (front ++ back) values rank key := by
  obtain ⟨position, inBack, rfl⟩ := List.getElem_of_mem member
  have sub : (back.map rank).Sublist values := by
    apply List.sublist_of_subperm_of_pairwise _ backSorted resorts.sorted
    apply List.Subperm.trans _ resorts.permutation.symm.subperm
    rw [List.map_append]
    exact (List.sublist_append_right _ _).subperm
  have sameLength := resorts.sameLength
  have inKeys : front.length + position < (front ++ back).length := by
    rw [List.length_append]
    omega
  have inValues : front.length + position < values.length := sameLength ▸ inKeys
  have atKey : (front ++ back)[front.length + position] = back[position] := by
    rw [List.getElem_append_right (by omega)]
    simp
  have new := @reassign_getElem α β _ _ _ rank resorts.distinct sameLength
    (front.length + position) inKeys inValues
  rw [atKey] at new
  rw [new]
  have shift : values.length - (back.map rank).length + position =
      front.length + position := by
    rw [← sameLength, List.length_append, List.length_map]
    omega
  have above := sublist_back_le sub resorts.sorted position (by simpa)
    (by rw [shift]; exact inValues)
  simpa only [shift, List.getElem_map] using above

theorem Resorts.lt_of_getElem? (resorts : Resorts keys values rank)
    {first second : Nat} {left right : α} (before : first < second)
    (atFirst : keys[first]? = some left)
    (atSecond : keys[second]? = some right) :
    reassign keys values rank left < reassign keys values rank right := by
  obtain ⟨firstIn, rfl⟩ := List.getElem?_eq_some_iff.mp atFirst
  obtain ⟨secondIn, rfl⟩ := List.getElem?_eq_some_iff.mp atSecond
  exact resorts.lt_of_lt before firstIn secondIn

/-- The reassigned ranks go up along every edge, once the new edges lead from
the front to the back and nothing else crosses the keys against the ranks. -/
theorem Resorts.increasing (edge : α → α → Prop) {lower upper : β}
    (resorts : Resorts (front ++ back) values rank)
    (frontSorted : (front.map rank).Pairwise (· ≤ ·))
    (backSorted : (back.map rank).Pairwise (· ≤ ·))
    (within : ∀ key ∈ front ++ back, lower ≤ rank key ∧ rank key ≤ upper)
    (into : ∀ source, ∀ target ∈ front, edge source target →
      source ∈ front ∨ rank source < lower)
    (outOf : ∀ source ∈ back, ∀ target, edge source target →
      target ∈ back ∨ upper < rank target)
    (old : ∀ source target, edge source target →
      rank source < rank target ∨ (source ∈ front ∧ target ∈ back))
    {source target : α} (step : edge source target) :
    reassign (front ++ back) values rank source <
      reassign (front ++ back) values rank target := by
  have apart : ∀ key ∈ front, key ∉ back := by
    intro key inFront inBack
    exact (List.disjoint_of_nodup_append resorts.distinct) inFront inBack
  have bounds : ∀ key ∈ front ++ back,
      lower ≤ reassign (front ++ back) values rank key ∧
        reassign (front ++ back) values rank key ≤ upper := by
    intro key member
    obtain ⟨other, otherIn, same⟩ := resorts.mem member
    rw [← same]
    exact within other otherIn
  by_cases sourceFront : source ∈ front
  · by_cases targetFront : target ∈ front
    · have up : rank source < rank target := by
        rcases old source target step with up | ⟨_, inBack⟩
        · exact up
        · exact absurd inBack (apart target targetFront)
      obtain ⟨first, second, before, atFirst, atSecond⟩ :=
        position_lt frontSorted sourceFront targetFront up
      have firstIn := (List.getElem?_eq_some_iff.mp atFirst).1
      have secondIn := (List.getElem?_eq_some_iff.mp atSecond).1
      apply resorts.lt_of_getElem? before
      · rw [List.getElem?_append_left firstIn, atFirst]
      · rw [List.getElem?_append_left secondIn, atSecond]
    · by_cases targetBack : target ∈ back
      · obtain ⟨first, firstIn, atFirst⟩ := List.getElem_of_mem sourceFront
        obtain ⟨second, secondIn, atSecond⟩ := List.getElem_of_mem targetBack
        have before : first < front.length + second := by omega
        apply resorts.lt_of_getElem? before
        · rw [List.getElem?_append_left firstIn,
            List.getElem?_eq_getElem firstIn, atFirst]
        · rw [List.getElem?_append_right (by omega), Nat.add_sub_cancel_left,
            List.getElem?_eq_getElem secondIn, atSecond]
      · have up : rank source < rank target := by
          rcases old source target step with up | ⟨_, inBack⟩
          · exact up
          · exact absurd inBack targetBack
        have absent : target ∉ front ++ back := by
          simp [targetFront, targetBack]
        rw [reassign_of_notMem absent]
        exact (resorts.front_le frontSorted sourceFront).trans_lt up
  · by_cases sourceBack : source ∈ back
    · rcases outOf source sourceBack target step with targetBack | above
      · have up : rank source < rank target := by
          rcases old source target step with up | ⟨inFront, _⟩
          · exact up
          · exact absurd inFront sourceFront
        obtain ⟨first, second, before, atFirst, atSecond⟩ :=
          position_lt backSorted sourceBack targetBack up
        apply resorts.lt_of_getElem? (Nat.add_lt_add_left before front.length)
        · rw [List.getElem?_append_right (by omega),
            Nat.add_sub_cancel_left, atFirst]
        · rw [List.getElem?_append_right (by omega),
            Nat.add_sub_cancel_left, atSecond]
      · have absent : target ∉ front ++ back := by
          intro member
          exact absurd above (not_lt.mpr (within target member).2)
        rw [reassign_of_notMem absent]
        exact (bounds source (by simp [sourceBack])).2.trans_lt above
    · have absent : source ∉ front ++ back := by simp [sourceFront, sourceBack]
      rw [reassign_of_notMem absent]
      by_cases targetFront : target ∈ front
      · rcases into source target targetFront step with inFront | below
        · exact absurd inFront sourceFront
        · exact below.trans_le (bounds target (by simp [targetFront])).1
      · have up : rank source < rank target := by
          rcases old source target step with up | ⟨inFront, _⟩
          · exact up
          · exact absurd inFront sourceFront
        by_cases targetBack : target ∈ back
        · exact up.trans_le (resorts.le_back backSorted targetBack)
        · have targetAbsent : target ∉ front ++ back := by
            simp [targetFront, targetBack]
          rwa [reassign_of_notMem targetAbsent]

end Halves

end Resort

end NGraphBridge
