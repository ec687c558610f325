import Mathlib.Data.List.Forall2
import Mathlib.Data.List.Nodup
import Mathlib.Data.List.Perm.Subperm

/-!
# Orders of axes

An order lists every axis once; it rearranges any list with one entry for each
axis.  The entry at place `i` of the rearranged list is the entry for the axis
`order[i]`.
-/

namespace NGraphBridge.Axes

variable {α β γ : Type*}

/-- Every axis below `rank`, once. -/
def IsOrder (order : List Nat) (rank : Nat) : Prop :=
  order.Perm (List.range rank)

instance (order : List Nat) (rank : Nat) : Decidable (IsOrder order rank) :=
  inferInstanceAs (Decidable (order.Perm _))

/-- All axes that `order` names are axes of a list. -/
def Inside (order : List Nat) (rank : Nat) : Prop := ∀ axis ∈ order, axis < rank

def permute (order : List Nat) (list : List α) : List α :=
  order.filterMap (list[·]?)

/-- The order that takes `order` back. -/
def inverse (order : List Nat) : List Nat :=
  (List.range order.length).map order.idxOf

theorem IsOrder.inside {order : List Nat} {rank : Nat}
    (isOrder : IsOrder order rank) :
    Inside order rank :=
  fun _ member => List.mem_range.mp (isOrder.mem_iff.mp member)

theorem IsOrder.length {order : List Nat} {rank : Nat}
    (isOrder : IsOrder order rank) :
    order.length = rank := by
  rw [List.Perm.length_eq isOrder, List.length_range]

theorem IsOrder.nodup {order : List Nat} {rank : Nat}
    (isOrder : IsOrder order rank) :
    order.Nodup :=
  (List.Perm.nodup_iff isOrder).mpr List.nodup_range

theorem IsOrder.mem {order : List Nat} {rank axis : Nat}
    (isOrder : IsOrder order rank) (below : axis < rank) : axis ∈ order :=
  isOrder.mem_iff.mpr (List.mem_range.mpr below)

theorem isOrder_range (rank : Nat) : IsOrder (List.range rank) rank :=
  List.Perm.refl _

theorem isOrder_of_nodup {order : List Nat} {rank : Nat} (nodup : order.Nodup)
    (inside : Inside order rank) (length : order.length = rank) :
    IsOrder order rank := by
  have subperm : order.Subperm (List.range rank) :=
    List.subperm_of_subset nodup fun axis member =>
      List.mem_range.mpr (inside axis member)
  exact subperm.perm_of_length_le (by simp [length])

theorem Inside.tail {order : List Nat} {axis rank : Nat}
    (inside : Inside (axis :: order) rank) :
    Inside order rank :=
  fun other member => inside other (List.mem_cons_of_mem _ member)

theorem permute_cons {list : List α} {axis : Nat} (order : List Nat)
    (below : axis < list.length) :
    permute (axis :: order) list = list[axis] :: permute order list := by
  rw [permute, List.filterMap_cons, List.getElem?_eq_getElem below]
  rfl

theorem getElem?_permute {order : List Nat} {list : List α}
    (inside : Inside order list.length) (i : Nat) :
    (permute order list)[i]? = order[i]?.bind (list[·]?) := by
  induction order generalizing i with
  | nil => simp [permute]
  | cons axis order ih =>
      have below := inside axis (by simp)
      rw [permute_cons order below]
      cases i with
      | zero => simp [below]
      | succ i => simpa using ih inside.tail i

theorem length_permute {order : List Nat} {list : List α}
    (inside : Inside order list.length) :
    (permute order list).length = order.length := by
  induction order with
  | nil => rfl
  | cons axis order ih =>
      rw [permute_cons order (inside axis (by simp)), List.length_cons,
        List.length_cons, ih inside.tail]

theorem getElem_permute {order : List Nat} {list : List α}
    (inside : Inside order list.length) {i : Nat} (bound : i < order.length)
    (here : i < (permute order list).length) (below : order[i] < list.length) :
    (permute order list)[i] = list[order[i]] := by
  apply Option.some.inj
  rw [← List.getElem?_eq_getElem, getElem?_permute inside,
    List.getElem?_eq_getElem bound, Option.bind_some, List.getElem?_eq_getElem]

theorem mem_permute {order : List Nat} {list : List α} {x : α}
    (member : x ∈ permute order list) : x ∈ list := by
  obtain ⟨axis, _, found⟩ := List.mem_filterMap.mp member
  exact List.mem_of_getElem? found

theorem permute_permute {first second : List Nat} {list : List α}
    (inside : Inside first list.length)
    (insideFirst : Inside second first.length) :
    permute second (permute first list) =
      permute (permute second first) list := by
  induction second with
  | nil => rfl
  | cons axis second ih =>
      have below := insideFirst axis (by simp)
      have belowList : first[axis] < list.length :=
        inside _ (List.getElem_mem below)
      rw [permute_cons second below, permute_cons _ belowList,
        permute_cons second (length_permute inside ▸ below),
        ih insideFirst.tail, getElem_permute inside below _ belowList]

theorem permute_range {order : List Nat} {rank : Nat}
    (inside : Inside order rank) :
    permute order (List.range rank) = order := by
  induction order with
  | nil => rfl
  | cons axis order ih =>
      have below := inside axis (by simp)
      rw [permute_cons order (by simpa using below), List.getElem_range,
        ih inside.tail]

theorem range_permute (list : List α) :
    permute (List.range list.length) list = list := by
  apply List.ext_getElem?
  intro i
  have inside : Inside (List.range list.length) list.length :=
    fun _ member => List.mem_range.mp member
  rw [getElem?_permute inside]
  by_cases bound : i < list.length
  · simp [bound]
  · simp [bound]

theorem permute_zipWith {order : List Nat} (f : α → β → γ) {left : List α}
    {right : List β} (inside : Inside order left.length)
    (same : left.length = right.length) :
    permute order (List.zipWith f left right) =
      List.zipWith f (permute order left) (permute order right) := by
  induction order with
  | nil => rfl
  | cons axis order ih =>
      have below := inside axis (by simp)
      have belowZip : axis < (List.zipWith f left right).length := by
        rw [List.length_zipWith]
        omega
      rw [permute_cons order belowZip, permute_cons order below,
        permute_cons order (same ▸ below), List.zipWith_cons_cons,
        List.getElem_zipWith, ih inside.tail]

theorem permute_zip {order : List Nat} {left : List α} {right : List β}
    (inside : Inside order left.length) (same : left.length = right.length) :
    permute order (left.zip right) = (permute order left).zip
      (permute order right) :=
  permute_zipWith Prod.mk inside same

theorem permute_perm {order : List Nat} {list : List α}
    (isOrder : IsOrder order list.length) :
    (permute order list).Perm list := by
  have rearranged := List.Perm.filterMap (list[·]?) isOrder
  have whole := range_permute list
  rw [permute] at whole
  rwa [whole] at rearranged

theorem forall₂_permute {R : α → β → Prop} {order : List Nat} {left : List α}
    {right : List β} (inside : Inside order left.length)
    (related : List.Forall₂ R left right) :
    List.Forall₂ R (permute order left) (permute order right) := by
  have same := related.length_eq
  induction order with
  | nil => exact .nil
  | cons axis order ih =>
      have below := inside axis (by simp)
      rw [permute_cons order below, permute_cons order (same ▸ below)]
      exact .cons (related.get below (same ▸ below)) (ih inside.tail)

theorem getD_of_lt {list : List α} {i : Nat} (bound : i < list.length) (x : α) :
    list.getD i x = list[i] := by
  rw [List.getD_eq_getElem?_getD, List.getElem?_eq_getElem bound,
    Option.getD_some]

/-- The image of a list, if every entry has one. -/
def collect (f : α → Option β) : List α → Option (List β)
  | [] => some []
  | x :: list => (f x).bind fun y => (collect f list).map (y :: ·)

theorem collect_iff {f : α → Option β} {list : List α} {image : List β} :
    collect f list = some image ↔
    List.Forall₂ (fun x y => f x = some y) list image := by
  induction list generalizing image with
  | nil => simp [collect, eq_comm]
  | cons x list ih =>
      rw [collect, Option.bind_eq_some_iff]
      constructor
      · intro found
        obtain ⟨y, here, rest⟩ := found
        obtain ⟨tail, collected, rfl⟩ := Option.map_eq_some_iff.mp rest
        exact .cons here (ih.mp collected)
      · intro related
        cases related with
        | @cons _ y _ tail here rest =>
            exact ⟨y, here, by rw [ih.mpr rest, Option.map_some]⟩

theorem collect_permute {f : α → Option β} {order : List Nat} {list : List α}
    {image : List β} (inside : Inside order list.length)
    (found : collect f list = some image) :
    collect f (permute order list) = some (permute order image) :=
  collect_iff.mpr (forall₂_permute inside (collect_iff.mp found))

section Inverse

variable {order : List Nat} {rank : Nat}

theorem length_inverse (order : List Nat) :
    (inverse order).length = order.length := by
  simp [inverse]

theorem getElem_inverse {axis : Nat} (below : axis < (inverse order).length) :
    (inverse order)[axis] = order.idxOf axis := by
  simp [inverse]

theorem IsOrder.inverse (isOrder : IsOrder order rank) :
    IsOrder (inverse order) rank := by
  apply isOrder_of_nodup
  case nodup =>
    apply List.Nodup.map_on _ List.nodup_range
    intro axis axisBelow other otherBelow same
    rw [List.mem_range, isOrder.length] at axisBelow otherBelow
    exact (List.idxOf_inj (isOrder.mem axisBelow)).mp same
  case inside =>
    intro place member
    obtain ⟨axis, below, rfl⟩ := List.mem_map.mp member
    rw [List.mem_range, isOrder.length] at below
    rw [← isOrder.length]
    exact List.idxOf_lt_length_of_mem (isOrder.mem below)
  case length => rw [length_inverse, isOrder.length]

theorem permute_inverse_self (isOrder : IsOrder order rank) :
    permute (Axes.inverse order) order = List.range rank := by
  have inside : Inside (Axes.inverse order) order.length :=
    isOrder.length ▸ isOrder.inverse.inside
  apply List.ext_getElem
  · rw [length_permute inside, length_inverse, isOrder.length,
      List.length_range]
  · intro axis bound _
    have below : axis < (Axes.inverse order).length := by
      rwa [length_permute inside] at bound
    have isAxis : axis < rank := by
      rwa [length_inverse, isOrder.length] at below
    have place := List.idxOf_lt_length_of_mem (isOrder.mem isAxis)
    rw [getElem_permute inside below _ (by rwa [getElem_inverse below]),
      List.getElem_range]
    simp only [getElem_inverse below]
    exact List.getElem_idxOf place

theorem permute_self_inverse (isOrder : IsOrder order rank) :
    permute order (Axes.inverse order) = List.range rank := by
  have inside : Inside order (Axes.inverse order).length := by
    rw [length_inverse, isOrder.length]
    exact isOrder.inside
  apply List.ext_getElem
  · rw [length_permute inside, isOrder.length, List.length_range]
  · intro place bound _
    have placeBound : place < order.length := by
      rwa [length_permute inside] at bound
    have below := inside _ (List.getElem_mem placeBound)
    rw [getElem_permute inside placeBound _ below, List.getElem_range,
      getElem_inverse below]
    exact isOrder.nodup.idxOf_getElem place placeBound

theorem inverse_permute {list : List α} (isOrder : IsOrder order list.length) :
    permute (Axes.inverse order) (permute order list) = list := by
  rw [permute_permute isOrder.inside (isOrder.length ▸ isOrder.inverse.inside),
    permute_inverse_self isOrder, range_permute]

theorem permute_inverse {list : List α} (isOrder : IsOrder order list.length) :
    permute order (permute (Axes.inverse order) list) = list := by
  have inside : Inside order (Axes.inverse order).length := by
    rw [length_inverse, isOrder.length]
    exact isOrder.inside
  rw [permute_permute isOrder.inverse.inside inside,
    permute_self_inverse isOrder, range_permute]

theorem getElem_inverse_self (isOrder : IsOrder order rank) {i : Nat}
    (bound : i < order.length)
    (inverseBound : order[i] < (Axes.inverse order).length) :
    (Axes.inverse order)[order[i]] = i := by
  rw [getElem_inverse]
  exact isOrder.nodup.idxOf_getElem i bound

theorem permute_injective {left right : List α}
    (isOrder : IsOrder order left.length) (lengths : left.length = right.length)
    (same : permute order left = permute order right) :
    left = right := by
  rw [← inverse_permute isOrder, same, inverse_permute (lengths ▸ isOrder)]

theorem collect_permute_eq {f : α → Option β} {list : List α}
    (isOrder : IsOrder order list.length) :
    collect f (permute order list) = (collect f list).map (permute order) := by
  cases found : collect f list with
  | some image => rw [collect_permute isOrder.inside found, Option.map_some]
  | none =>
      cases permuted : collect f (permute order list) with
      | none => rfl
      | some image =>
          have inside : Inside (Axes.inverse order)
              (permute order list).length := by
            rw [length_permute isOrder.inside, isOrder.length]
            exact isOrder.inverse.inside
          have back := collect_permute inside permuted
          rw [inverse_permute isOrder, found] at back
          exact absurd back (by simp)

theorem IsOrder.permute {second : List Nat} (isOrder : IsOrder order rank)
    (isSecond : IsOrder second rank) : IsOrder (permute second order) rank :=
  (permute_perm (isOrder.length ▸ isSecond)).trans isOrder

theorem inverse_range (rank : Nat) :
    Axes.inverse (List.range rank) = List.range rank := by
  have inside : Inside (Axes.inverse (List.range rank)) rank :=
    (isOrder_range rank).inverse.inside
  rw [← permute_range inside, permute_inverse_self (isOrder_range rank)]

theorem inverse_inverse (isOrder : IsOrder order rank) :
    Axes.inverse (Axes.inverse order) = order := by
  have insideTwice : Inside (Axes.inverse (Axes.inverse order)) rank :=
    isOrder.inverse.inverse.inside
  have back : permute (Axes.inverse (Axes.inverse order))
      (permute (Axes.inverse order) order) =
      order := inverse_permute (isOrder.length.symm ▸ isOrder.inverse)
  rwa [permute_inverse_self isOrder, permute_range insideTwice] at back

/-- To change one entry and rearrange is to rearrange and change the entry at
its place. -/
theorem inverse_permute_set {list : List α}
    (isOrder : IsOrder order list.length) {i : Nat}
    (bound : i < order.length) (x : α) :
    permute (Axes.inverse order) (list.set i x) =
      (permute (Axes.inverse order) list).set order[i] x := by
  have insideSet : Inside (Axes.inverse order) (list.set i x).length := by
    rw [List.length_set]
    exact isOrder.inverse.inside
  have lengths : (permute (Axes.inverse order) list).length = order.length := by
    rw [length_permute isOrder.inverse.inside, length_inverse]
  apply List.ext_getElem
  · rw [length_permute insideSet, List.length_set, lengths, length_inverse]
  · intro axis bound' _
    have below : axis < (Axes.inverse order).length := by
      rwa [length_permute insideSet] at bound'
    have isAxis : axis < list.length := by
      rwa [length_inverse, isOrder.length] at below
    have member : axis ∈ order := isOrder.mem isAxis
    have placeBound := List.idxOf_lt_length_of_mem member
    have place := List.getElem_idxOf placeBound
    have placeBelow : (Axes.inverse order)[axis] < list.length := by
      rw [getElem_inverse below]
      exact isOrder.length ▸ placeBound
    rw [getElem_permute insideSet below _ (by rwa [List.length_set]),
      List.getElem_set, List.getElem_set,
      getElem_permute isOrder.inverse.inside below _ placeBelow]
    simp only [getElem_inverse below]
    have iff : i = order.idxOf axis ↔ order[i] = axis := by
      constructor
      · intro same
        simp only [same]
        exact place
      · intro same
        rw [← same, isOrder.nodup.idxOf_getElem i bound]
    simp only [iff]

theorem permute_set {list : List α} (isOrder : IsOrder order list.length)
    {i : Nat} (bound : i < order.length) (x : α) :
    permute order (list.set order[i] x) = (permute order list).set i x := by
  have lengths : (permute order list).length = list.length := by
    rw [length_permute isOrder.inside, isOrder.length]
  have swapped := inverse_permute_set (lengths.symm ▸ isOrder) bound x
  rw [inverse_permute isOrder] at swapped
  have setLength : ((permute order list).set i x).length = list.length := by
    rw [List.length_set, lengths]
  rw [← swapped, permute_inverse (setLength.symm ▸ isOrder)]

theorem getD_permute {list : List α} (isOrder : IsOrder order list.length)
    {i : Nat} (bound : i < order.length)
    (x : α) : (permute order list).getD i x = list.getD order[i] x := by
  rw [List.getD_eq_getElem?_getD, List.getD_eq_getElem?_getD,
    getElem?_permute isOrder.inside, List.getElem?_eq_getElem bound,
    Option.bind_some]

end Inverse

end NGraphBridge.Axes
