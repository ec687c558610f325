import Mathlib.Algebra.BigOperators.Ring.List
import Mathlib.Algebra.GroupWithZero.Nat
import NGraphBridge.Lib.Tensor

/-!
# Transposition and row-major order

A tensor with the dimensions of its transpose but its own elements is the
transpose exactly if the axes with more than one entry stay in order.
-/

namespace NGraphBridge.Tensor

open Axes

/-- Axes of another dimension than one do not overtake each other. -/
def Keeps (order shape : List Nat) : Prop :=
  (order.filter fun axis => shape.getD axis 1 ≠ 1).Pairwise (· < ·)

instance (order shape : List Nat) : Decidable (Keeps order shape) :=
  inferInstanceAs (Decidable (List.Pairwise _ _))

/-- The elements under permuted dimensions. -/
def relabel {V : Type*} (order : List Nat) (tensor : Tensor V)
    (isOrder : IsOrder order tensor.rank) : Tensor V where
  shape := permute order tensor.shape
  data := tensor.data
  full := by rw [tensor.full, (permute_perm isOrder).prod_eq]

/-- The tensor whose elements are their places. -/
def places (shape : List Nat) : Tensor Nat :=
  ⟨shape, List.range shape.prod, List.length_range⟩

theorem get_places {shape index : List Nat} (valid : Valid shape index) :
    (places shape).get index = linear shape index := by
  have below := valid.linear_lt
  rw [get, places, getD_of_lt (by simpa using below), List.getElem_range]

theorem linear_injective {shape index other : List Nat}
    (valid : Valid shape index) (otherValid : Valid shape other)
    (same : linear shape index = linear shape other) :
    index = other := by
  rw [← unlinear_linear valid, same, unlinear_linear otherValid]

/-- The place of an index that is paired with the dimensions. -/
def placeOf : List (Nat × Nat) → Nat
  | [] => 0
  | pair :: pairs => pair.2 * (pairs.map Prod.fst).prod + placeOf pairs

section Place

variable {shape index order : List Nat}

theorem placeOf_zip (valid : Valid shape index) :
    placeOf (shape.zip index) = linear shape index := by
  induction valid with
  | nil => rfl
  | @cons i dim index shape _ rest ih =>
      have lengths := Valid.length rest
      rw [List.zip_cons_cons, placeOf, ih,
        List.map_fst_zip (Nat.le_of_eq lengths.symm), linear]

def Wide (pair : Nat × Nat) : Bool := pair.1 ≠ 1

theorem prod_filter_wide (pairs : List (Nat × Nat)) :
    ((pairs.filter Wide).map Prod.fst).prod = (pairs.map Prod.fst).prod := by
  induction pairs with
  | nil => rfl
  | cons pair pairs ih =>
      rw [List.map_cons, List.prod_cons, ← ih]
      by_cases isOne : pair.1 = 1
      · rw [List.filter_cons_of_neg (by simp [Wide, isOne]), isOne, one_mul]
      · rw [List.filter_cons_of_pos (by simp [Wide, isOne]), List.map_cons,
          List.prod_cons]

theorem placeOf_filter {pairs : List (Nat × Nat)}
    (inside : ∀ pair ∈ pairs, pair.2 < pair.1) :
    placeOf (pairs.filter Wide) = placeOf pairs := by
  induction pairs with
  | nil => rfl
  | cons pair pairs ih =>
      have rest := ih fun other member =>
        inside other (List.mem_cons_of_mem _ member)
      by_cases isOne : pair.1 = 1
      · have isZero : pair.2 = 0 := by
          have below := inside pair (by simp)
          omega
        rw [List.filter_cons_of_neg (by simp [Wide, isOne]), rest, placeOf,
          isZero, Nat.zero_mul, Nat.zero_add]
      · rw [List.filter_cons_of_pos (by simp [Wide, isOne]), placeOf, placeOf,
          prod_filter_wide, rest]

theorem inside_zip (valid : Valid shape index) : ∀ pair ∈ shape.zip index,
    pair.2 < pair.1 := by
  induction valid with
  | nil => simp
  | cons below _ ih =>
      intro pair member
      cases List.mem_cons.mp member with
      | inl isFirst =>
          rw [isFirst]
          exact below
      | inr isLater => exact ih pair isLater

theorem filter_permute {α : Type*} {p : α → Bool} {list : List α}
    (inside : Inside order list.length) :
    (permute order list).filter p =
      permute (order.filter fun axis => list[axis]?.any p) list := by
  induction order with
  | nil => rfl
  | cons axis order ih =>
      have below := inside axis (by simp)
      have found : list[axis]? = some list[axis] :=
        List.getElem?_eq_getElem below
      rw [permute_cons order below]
      by_cases holds : p list[axis] = true
      · rw [List.filter_cons_of_pos holds,
          List.filter_cons_of_pos (by simp [found, holds]),
          permute_cons _ below, ih inside.tail]
      · rw [List.filter_cons_of_neg holds,
          List.filter_cons_of_neg (by simp [found, holds]), ih inside.tail]

/-- An order that keeps the wide axes leaves every element at its place. -/
theorem linear_permute_of_keeps (isOrder : IsOrder order shape.length)
    (keeps : Keeps order shape) (valid : Valid shape index) :
    linear (permute order shape) (permute order index) =
      linear shape index := by
  have lengths : shape.length = index.length := valid.length.symm
  have zipLength : (shape.zip index).length = shape.length := by
    rw [List.length_zip, ← lengths, Nat.min_self]
  have isOrderZip : IsOrder order (shape.zip index).length :=
    zipLength.symm ▸ isOrder
  have wide : ∀ axis ∈ List.range shape.length,
      (shape.zip index)[axis]?.any Wide =
      decide (shape.getD axis 1 ≠ 1) := by
    intro axis member
    have below := List.mem_range.mp member
    have belowZip : axis < (shape.zip index).length := zipLength.symm ▸ below
    rw [List.getElem?_eq_getElem belowZip, getD_of_lt below, List.getElem_zip,
      Option.any_some, Wide]
  have sameAxes : order.filter (fun axis => (shape.zip index)[axis]?.any Wide) =
      (List.range shape.length).filter fun axis =>
        (shape.zip index)[axis]?.any Wide := by
    rw [List.filter_congr fun axis member =>
      wide axis (isOrder.mem_iff.mp member), List.filter_congr wide]
    refine List.Perm.eq_of_pairwise ?_ keeps (List.pairwise_lt_range.filter _)
      (isOrder.filter _)
    intro a b _ _ below above
    omega
  calc linear (permute order shape) (permute order index)
      = placeOf ((permute order shape).zip (permute order index)) :=
        (placeOf_zip (valid_permute isOrder valid)).symm
    _ = placeOf (permute order
      (shape.zip index)) := by rw [permute_zip isOrder.inside lengths]
    _ = placeOf ((permute order (shape.zip index)).filter Wide) :=
        (placeOf_filter fun pair member =>
            inside_zip valid pair (mem_permute member)).symm
    _ = placeOf ((shape.zip index).filter Wide) := by
        rw [filter_permute isOrderZip.inside, sameAxes, ← zipLength,
          ← filter_permute (isOrder_range _).inside, range_permute]
    _ = placeOf (shape.zip index) := placeOf_filter (inside_zip valid)
    _ = linear shape index := placeOf_zip valid

/-- A dimension of one between the others. -/
theorem linear_insert_one {front back first rest : List Nat}
    (lengths : first.length = front.length) :
    linear (front ++ 1 :: back) (first ++ 0 :: rest) = linear (front ++ back)
      (first ++ rest) := by
  induction front generalizing first with
  | nil =>
      obtain rfl := List.length_eq_zero_iff.mp lengths
      rw [List.nil_append, List.nil_append, List.nil_append, List.nil_append,
        linear, Nat.zero_mul, Nat.zero_add]
  | cons dim front ih =>
      cases first with
      | nil => exact absurd lengths (by simp)
      | cons place first =>
          have rest := ih (Nat.succ.inj lengths)
          have prods : (front ++ 1 :: back).prod = (front ++ back).prod := by
            rw [List.prod_append, List.prod_cons, one_mul, List.prod_append]
          rw [List.cons_append, List.cons_append, List.cons_append,
            List.cons_append, linear, linear, rest, prods]

end Place

section Reshape

variable {V : Type*} [Inhabited V] {tensor : Tensor V} {front back : List Nat}

theorem reshape_insert_one (isShape : tensor.shape = front ++ back) :
    ∃ reshaped, tensor.reshape (front ++ 1 :: back) = some reshaped ∧
      reshaped.shape = front ++ 1 :: back ∧
      ∀ first rest, first.length = front.length →
        reshaped.get (first ++ 0 :: rest) = tensor.get (first ++ rest) := by
  have full : tensor.data.length = (front ++ 1 :: back).prod := by
    rw [tensor.full, isShape, List.prod_append, List.prod_append,
      List.prod_cons, one_mul]
  refine ⟨⟨_, tensor.data, full⟩, dif_pos full, rfl, ?_⟩
  intro first rest lengths
  rw [get, get, isShape, linear_insert_one lengths]

end Reshape

section Unit

variable {shape order : List Nat}

/-- The index with a one on one axis. -/
def unit (rank axis : Nat) : List Nat := (List.replicate rank 0).set axis 1

theorem valid_unit {axis : Nat} (positive : 0 ∉ shape)
    (wide : shape.getD axis 1 ≠ 1) :
    Valid shape (unit shape.length axis) := by
  rw [Valid, List.forall₂_iff_get]
  refine ⟨by simp [unit], fun place bound shapeBound => ?_⟩
  have notZero : shape[place] ≠ 0 :=
    fun isZero => positive (isZero ▸ List.getElem_mem shapeBound)
  simp only [List.get_eq_getElem, unit, List.getElem_set]
  by_cases same : axis = place
  · subst same
    rw [getD_of_lt shapeBound] at wide
    simp only [if_pos]
    omega
  · simp only [if_neg same, List.getElem_replicate]
    omega

theorem linear_replicate (shape : List Nat) (rank : Nat) :
    linear shape (List.replicate rank 0) = 0 := by
  induction shape generalizing rank with
  | nil => rfl
  | cons dim shape ih =>
      cases rank with
      | zero => rfl
      | succ rank => rw [List.replicate_succ, linear, ih, Nat.zero_mul]

theorem linear_unit {axis : Nat} (below : axis < shape.length) :
    linear shape (unit shape.length axis) = (shape.drop (axis + 1)).prod := by
  induction shape generalizing axis with
  | nil => exact absurd below (Nat.not_lt_zero axis)
  | cons dim shape ih =>
      cases axis with
      | zero =>
          rw [unit, List.length_cons, List.replicate_succ,
            List.set_cons_zero, linear, linear_replicate]
          simp
      | succ axis =>
          have rest := ih (Nat.lt_of_succ_lt_succ below)
          rw [unit] at rest
          rw [unit, List.length_cons, List.replicate_succ, List.set_cons_succ,
            linear, rest]
          simp

theorem permute_unit {place : Nat} (isOrder : IsOrder order shape.length)
    (bound : place < order.length) :
    permute order (unit shape.length order[place]) =
      unit shape.length place := by
  have zeros : permute order (List.replicate shape.length 0) =
      List.replicate shape.length 0 := by
    have isOrderZeros :
        IsOrder order (List.replicate shape.length 0).length := by
      rwa [List.length_replicate]
    refine List.eq_replicate_iff.mpr ⟨?_, fun x member => ?_⟩
    · rw [length_permute isOrderZeros.inside, isOrder.length]
    · exact (List.mem_replicate.mp (mem_permute member)).2
  rw [unit, permute_set (by rwa [List.length_replicate]) bound, zeros, unit]

/-- A wide axis has a longer stride than the wide axes behind it. -/
theorem stride_lt (positive : 0 ∉ shape) {first second : Nat}
    (before : first < second) (bound : second < shape.length)
    (wide : shape[second] ≠ 1) :
    (shape.drop (second + 1)).prod < (shape.drop (first + 1)).prod := by
  have split : shape.drop (first + 1) =
      (shape.drop (first + 1)).take (second - (first + 1)) ++
      shape.drop second := by
    have parts := List.take_append_drop (second - (first + 1))
      (shape.drop (first + 1))
    rw [List.drop_drop, show first + 1 + (second - (first + 1)) =
      second by omega] at parts
    exact parts.symm
  have prodPos : ∀ dims : List Nat, (∀ dim ∈ dims, dim ∈ shape) →
      0 < dims.prod := by
    intro dims members
    exact Nat.pos_of_ne_zero
      (List.prod_ne_zero fun member => positive (members 0 member))
  have dimWide : 2 ≤ shape[second] := by
    have notZero : shape[second] ≠ 0 :=
      fun isZero => positive (isZero ▸ List.getElem_mem bound)
    omega
  have behind :=
    prodPos (shape.drop (second + 1)) fun _ member =>
      List.mem_of_mem_drop member
  have between := prodPos ((shape.drop (first + 1)).take (second - (first + 1)))
    fun _ member => List.mem_of_mem_drop (List.mem_of_mem_take member)
  rw [split, List.prod_append, List.drop_eq_getElem_cons bound, List.prod_cons]
  calc (shape.drop (second + 1)).prod <
    2 * (shape.drop (second + 1)).prod := by omega
    _ ≤ shape[second] * (shape.drop (second + 1)).prod :=
    Nat.mul_le_mul_right _ dimWide
    _ ≤ _ := Nat.le_mul_of_pos_left _ between

/-- If every element is at its place, the wide axes are kept. -/
theorem keeps_of_linear_permute (isOrder : IsOrder order shape.length)
    (positive : 0 ∉ shape) (placed : ∀ index, Valid shape index →
      linear (permute order shape) (permute order index) = linear shape index) :
    Keeps order shape := by
  have permutedLength : (permute order shape).length = shape.length := by
    rw [length_permute isOrder.inside, isOrder.length]
  have stride : ∀ place (bound : place < order.length),
      shape.getD order[place] 1 ≠ 1 →
      ((permute order shape).drop (place + 1)).prod =
        (shape.drop (order[place] + 1)).prod := by
    intro place bound wide
    have axisBound := isOrder.inside _ (List.getElem_mem bound)
    have here := placed _ (valid_unit positive wide)
    rw [permute_unit isOrder bound, linear_unit axisBound] at here
    rw [← here, ← permutedLength,
      linear_unit (by rwa [length_permute isOrder.inside])]
  rw [Keeps, List.pairwise_filter, List.pairwise_iff_getElem]
  intro i j iBound jBound before iWide jWide
  rw [decide_eq_true_eq] at iWide jWide
  have iAxis := isOrder.inside _ (List.getElem_mem iBound)
  have jAxis := isOrder.inside _ (List.getElem_mem jBound)
  have positivePermuted : 0 ∉ permute order shape :=
    fun member => positive (mem_permute member)
  have jPermuted : j < (permute order shape).length := by
    rwa [length_permute isOrder.inside]
  have decreasing := stride_lt positivePermuted before jPermuted (by
    rw [getElem_permute isOrder.inside jBound _ jAxis]
    rwa [getD_of_lt jAxis] at jWide)
  rw [stride i iBound iWide, stride j jBound jWide] at decreasing
  by_contra notBelow
  have different : order[i] ≠ order[j] := by
    intro same
    have := (isOrder.nodup.getElem_inj_iff).mp same
    omega
  have increasing :=
    stride_lt positive (show order[j] < order[i] by omega) iAxis (by
    rwa [getD_of_lt iAxis] at iWide)
  omega

end Unit

section Relabel

variable {V : Type*} [Inhabited V] {order : List Nat}

theorem relabel_eq_transpose {tensor : Tensor V}
    (isOrder : IsOrder order tensor.rank) (keeps : Keeps order tensor.shape) :
    tensor.relabel order isOrder = tensor.transpose order := by
  refine eq_transpose isOrder rfl fun index valid => ?_
  rw [get, get]
  dsimp only [relabel]
  rw [linear_permute_of_keeps isOrder keeps valid]

theorem keeps_of_relabel {shape : List Nat}
    (isOrder : IsOrder order (places shape).rank) (positive : 0 ∉ shape)
    (same : (places shape).relabel order isOrder =
      (places shape).transpose order) : Keeps order shape := by
  apply keeps_of_linear_permute isOrder positive
  intro index valid
  have moved := valid_permute isOrder valid
  have here := congrArg (fun tensor => tensor.get (permute order index)) same
  rw [get_transpose_permute isOrder valid] at here
  have below : linear (permute order shape) (permute order index) <
      shape.prod := by
    have sameProd : (permute order shape).prod = shape.prod :=
      (permute_perm isOrder).prod_eq
    exact sameProd ▸ moved.linear_lt
  have value : ((places shape).relabel order isOrder).get
      (permute order index) =
      linear (permute order shape) (permute order index) := by
    rw [get]
    dsimp only [relabel, places]
    rw [getD_of_lt (by simpa using below), List.getElem_range]
  exact value.symm.trans (here.trans (@get_places shape index valid))

end Relabel

end NGraphBridge.Tensor
