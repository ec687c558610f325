import Mathlib.Algebra.BigOperators.Group.List.Basic
import NGraphBridge.Lib.Axes

/-!
# Tensors

A tensor is a shape and its elements in row-major order.  Elements are read by
an index, which has one entry below each dimension.
-/

namespace NGraphBridge

structure Tensor (V : Type*) where
  shape : List Nat
  data : List V
  full : data.length = shape.prod

namespace Tensor

open Axes

/-- An index into a tensor of the given shape. -/
def Valid (shape index : List Nat) : Prop := List.Forall₂ (· < ·) index shape

/-- The place of an index in row-major order. -/
def linear : List Nat → List Nat → Nat
  | _ :: shape, i :: index => i * shape.prod + linear shape index
  | _, _ => 0

/-- The index at a place. -/
def unlinear : List Nat → Nat → List Nat
  | [], _ => []
  | _ :: shape, place =>
      place / shape.prod :: unlinear shape (place % shape.prod)

section Places

variable {shape index : List Nat}

theorem Valid.length (valid : Valid shape index) :
    index.length = shape.length :=
  List.Forall₂.length_eq valid

theorem Valid.linear_lt (valid : Valid shape index) :
    linear shape index < shape.prod := by
  induction valid with
  | nil => exact Nat.one_pos
  | @cons i d index shape below _ ih =>
      rw [linear, List.prod_cons]
      calc i * shape.prod + linear shape index < i * shape.prod +
        shape.prod := by omega
        _ = (i + 1) * shape.prod := (Nat.succ_mul _ _).symm
        _ ≤ d * shape.prod := Nat.mul_le_mul_right _ below

theorem unlinear_linear (valid : Valid shape index) :
    unlinear shape (linear shape index) = index := by
  induction valid with
  | nil => rfl
  | @cons i d index shape _ rest ih =>
      have below := Valid.linear_lt rest
      have positive : 0 < shape.prod := by omega
      rw [linear, unlinear, Nat.mul_comm, Nat.mul_add_div positive,
        Nat.div_eq_of_lt below, Nat.mul_add_mod, Nat.mod_eq_of_lt below, ih,
        Nat.add_zero]

theorem valid_unlinear {place : Nat} (below : place < shape.prod) :
    Valid shape (unlinear shape place) := by
  induction shape generalizing place with
  | nil => exact .nil
  | cons d shape ih =>
      rw [List.prod_cons] at below
      have positive : 0 < shape.prod :=
        Nat.pos_of_mul_pos_left (Nat.zero_lt_of_lt below)
      exact .cons (Nat.div_lt_of_lt_mul (by rwa [Nat.mul_comm]))
        (ih (Nat.mod_lt _ positive))

theorem linear_unlinear {place : Nat} (below : place < shape.prod) :
    linear shape (unlinear shape place) = place := by
  induction shape generalizing place with
  | nil =>
      rw [List.prod_nil] at below
      exact (Nat.lt_one_iff.mp below).symm
  | cons d shape ih =>
      rw [List.prod_cons] at below
      have positive : 0 < shape.prod :=
        Nat.pos_of_mul_pos_left (Nat.zero_lt_of_lt below)
      rw [unlinear, linear, ih (Nat.mod_lt _ positive), Nat.mul_comm]
      exact Nat.div_add_mod _ _

end Places

section Elements

variable {V W : Type*}

def rank (tensor : Tensor V) : Nat := tensor.shape.length

/-- The tensor with the given elements. -/
def ofFn (shape : List Nat) (f : List Nat → V) : Tensor V where
  shape := shape
  data := (List.range shape.prod).map fun place => f (unlinear shape place)
  full := by simp

@[simp] theorem shape_ofFn (shape : List Nat) (f : List Nat → V) :
    (ofFn shape f).shape = shape :=
  rfl

variable [Inhabited V] [Inhabited W]

def get (tensor : Tensor V) (index : List Nat) : V :=
  tensor.data.getD (linear tensor.shape index) default

theorem get_ofFn {shape index : List Nat} (f : List Nat → V)
    (valid : Valid shape index) :
    (ofFn shape f).get index = f index := by
  have below := valid.linear_lt
  rw [get, ofFn, List.getD_eq_getElem?_getD, List.getElem?_map,
    List.getElem?_eq_getElem (by simpa using below)]
  simp [unlinear_linear valid]

theorem ext {left right : Tensor V} (shape : left.shape = right.shape)
    (elements : ∀ index, Valid left.shape index →
      left.get index = right.get index) :
    left = right := by
  have data : left.data = right.data := by
    apply List.ext_getElem
    · rw [left.full, right.full, shape]
    · intro place leftBelow rightBelow
      have below : place < left.shape.prod := left.full ▸ leftBelow
      have here := elements (unlinear left.shape place) (valid_unlinear below)
      rw [get, get, ← shape, linear_unlinear below, List.getD_eq_getElem?_getD,
        List.getD_eq_getElem?_getD, List.getElem?_eq_getElem leftBelow,
        List.getElem?_eq_getElem rightBelow] at here
      exact here
  cases left
  cases right
  cases shape
  cases data
  rfl

theorem ofFn_congr {shape : List Nat} {f g : List Nat → V}
    (agree : ∀ index, Valid shape index → f index = g index) :
    ofFn shape f = ofFn shape g := by
  refine ext rfl fun index valid => ?_
  have valid : Valid shape index := valid
  rw [get_ofFn f valid, get_ofFn g valid, agree index valid]

theorem eq_of_empty {left right : Tensor V} (shape : left.shape = right.shape)
    (empty : 0 ∈ left.shape) : left = right := by
  apply ext shape
  intro index valid
  obtain ⟨i, bound, isZero⟩ := List.getElem_of_mem empty
  have below := List.Forall₂.get valid (valid.length.symm ▸ bound) bound
  simp only [List.get_eq_getElem, isZero] at below
  omega

/-- An operation on each element. -/
def map (f : V → W) (tensor : Tensor V) : Tensor W where
  shape := tensor.shape
  data := tensor.data.map f
  full := by rw [List.length_map, tensor.full]

theorem get_map {f : V → W} {tensor : Tensor V} {index : List Nat}
    (valid : Valid tensor.shape index) :
    (tensor.map f).get index = f (tensor.get index) := by
  have below : linear tensor.shape index < tensor.data.length :=
    tensor.full ▸ valid.linear_lt
  rw [get, get, map, List.getD_eq_getElem?_getD, List.getD_eq_getElem?_getD,
    List.getElem?_map, List.getElem?_eq_getElem below]
  rfl

/-- Axis `i` of the result is axis `order[i]` of the tensor. -/
def transpose (order : List Nat) (tensor : Tensor V) : Tensor V :=
  ofFn (permute order tensor.shape) fun index =>
    tensor.get (permute (inverse order) index)

@[simp] theorem shape_transpose (order : List Nat) (tensor : Tensor V) :
    (tensor.transpose order).shape = permute order tensor.shape :=
  rfl

theorem rank_transpose {order : List Nat} {tensor : Tensor V}
    (isOrder : IsOrder order tensor.rank) :
    (tensor.transpose order).rank = tensor.rank := by
  rw [rank, shape_transpose, length_permute isOrder.inside, isOrder.length]

theorem get_transpose {order index : List Nat} {tensor : Tensor V}
    (valid : Valid (permute order tensor.shape) index) :
    (tensor.transpose order).get index =
      tensor.get (permute (inverse order) index) :=
  get_ofFn _ valid

theorem valid_permute {order shape index : List Nat}
    (isOrder : IsOrder order shape.length) (valid : Valid shape index) :
    Valid (permute order shape) (permute order index) :=
  forall₂_permute (valid.length.symm ▸ isOrder.inside) valid

theorem valid_inverse {order shape index : List Nat}
    (isOrder : IsOrder order shape.length)
    (valid : Valid (permute order shape) index) :
    Valid shape (permute (inverse order) index) := by
  have lengths : (permute order shape).length = shape.length := by
    rw [length_permute isOrder.inside, isOrder.length]
  have there := @valid_permute
    (inverse order) _ _ (lengths.symm ▸ isOrder.inverse) valid
  rwa [inverse_permute isOrder] at there

theorem get_transpose_permute {order index : List Nat} {tensor : Tensor V}
    (isOrder : IsOrder order tensor.rank) (valid : Valid tensor.shape index) :
    (tensor.transpose order).get (permute order index) = tensor.get index := by
  rw [get_transpose (valid_permute isOrder valid),
    inverse_permute (valid.length.symm ▸ isOrder)]

theorem eq_transpose {order : List Nat} {tensor other : Tensor V}
    (isOrder : IsOrder order tensor.rank)
    (shape : other.shape = permute order tensor.shape)
    (elements : ∀ index, Valid tensor.shape index →
      other.get (permute order index) = tensor.get index) :
    other = tensor.transpose order := by
  apply ext shape
  intro index valid
  rw [shape] at valid
  have before := valid_inverse isOrder valid
  have lengths : index.length = tensor.shape.length := by
    rw [valid.length, length_permute isOrder.inside, isOrder.length, rank]
  have back : permute order (permute (inverse order) index) = index :=
    permute_inverse (lengths.symm ▸ isOrder)
  have here := elements _ before
  rw [back] at here
  rw [here, get_transpose valid]

theorem transpose_transpose {first second : List Nat} {tensor : Tensor V}
    (isFirst : IsOrder first tensor.rank)
    (isSecond : IsOrder second tensor.rank) :
    (tensor.transpose first).transpose second =
      tensor.transpose (permute second first) := by
  have insideFirst : Inside second first.length :=
    isFirst.length.symm ▸ isSecond.inside
  apply eq_transpose (isFirst.permute isSecond)
  · rw [shape_transpose, shape_transpose,
      permute_permute isFirst.inside insideFirst]
  · intro index valid
    have insideIndex : Inside first index.length :=
      valid.length.symm ▸ isFirst.inside
    have isSecond' : IsOrder second (tensor.transpose first).rank := by
      rwa [rank_transpose isFirst]
    rw [← permute_permute insideIndex insideFirst,
      get_transpose_permute isSecond' (valid_permute isFirst valid),
      get_transpose_permute isFirst valid]

theorem transpose_range (tensor : Tensor V) :
    tensor.transpose (List.range tensor.rank) = tensor := by
  symm
  apply eq_transpose (isOrder_range _)
  · rw [rank, range_permute]
  · intro index valid
    rw [rank, ← valid.length, range_permute]

theorem transpose_scalar {order : List Nat} {tensor : Tensor V}
    (isOrder : IsOrder order tensor.rank)
    (scalar : (tensor.transpose order).shape = []) :
    tensor.transpose order = tensor := by
  have rank : tensor.rank = 0 := by
    rw [← rank_transpose isOrder, Tensor.rank, scalar, List.length_nil]
  have empty : order = [] :=
    List.eq_nil_of_length_eq_zero (isOrder.length.trans rank)
  have plain := transpose_range tensor
  rw [rank, List.range_zero] at plain
  rw [empty, plain]

theorem transpose_inverse {order : List Nat} {tensor : Tensor V}
    (isOrder : IsOrder order tensor.rank) :
    (tensor.transpose (inverse order)).transpose order = tensor := by
  rw [transpose_transpose isOrder.inverse isOrder, permute_self_inverse isOrder,
    transpose_range]

theorem inverse_transpose {order : List Nat} {tensor : Tensor V}
    (isOrder : IsOrder order tensor.rank) :
    (tensor.transpose order).transpose (inverse order) = tensor := by
  rw [transpose_transpose isOrder isOrder.inverse, permute_inverse_self isOrder,
    transpose_range]

theorem map_transpose {order : List Nat} {tensor : Tensor V} (f : V → W)
    (isOrder : IsOrder order tensor.rank) :
    (tensor.transpose order).map f = (tensor.map f).transpose order := by
  apply @eq_transpose _ _ order (tensor.map f) _ isOrder rfl
  intro index valid
  have valid : Valid tensor.shape index := valid
  rw [get_map (valid_permute isOrder valid),
    get_transpose_permute isOrder valid, get_map valid]

end Elements

/-- A dimension of one is stretched to the other dimension. -/
def stretch (left right : Nat) : Option Nat :=
  if left = right then some left else if left = 1 then some right
  else if right = 1 then some left else none

def stretchAll (left right : List Nat) : Option (List Nat) :=
  if left.length = right.length then
    collect (fun pair => stretch pair.1 pair.2) (left.zip right)
  else none

/-- A shape with ones in front, for a higher rank. -/
def extend (rank : Nat) (shape : List Nat) : List Nat :=
  List.replicate (rank - shape.length) 1 ++ shape

/-- The entry that a stretched dimension is read at. -/
def clip (shape index : List Nat) : List Nat :=
  List.zipWith (fun dim i => if dim = 1 then 0 else i) shape index

section Stretch

variable {left right result index order : List Nat}

theorem stretch_cases {left right dim : Nat}
    (fits : stretch left right = some dim) :
    (left = dim ∨ left = 1) ∧ (right = dim ∨ right = 1) := by
  unfold stretch at fits
  split at fits
  · simp_all
  · split at fits
    · simp_all
    · split at fits <;> simp_all

theorem stretchAll_iff : stretchAll left right = some result ↔
    left.length = right.length ∧
      List.Forall₂ (fun pair dim => stretch pair.1 pair.2 = some dim)
        (left.zip right) result := by
  unfold stretchAll
  split
  next lengths => rw [collect_iff, and_iff_right lengths]
  next differ => simp [differ]

theorem stretchAll_length (fits : stretchAll left right = some result) :
    left.length = result.length ∧ right.length = result.length := by
  obtain ⟨lengths, related⟩ := stretchAll_iff.mp fits
  have same := related.length_eq
  rw [List.length_zip] at same
  omega

theorem stretchAll_getElem (fits : stretchAll left right = some result)
    {i : Nat} (leftBound : i < left.length) (rightBound : i < right.length)
    (bound : i < result.length) :
    stretch left[i] right[i] = some result[i] := by
  obtain ⟨_, related⟩ := stretchAll_iff.mp fits
  have zipBound : i < (left.zip right).length := by
    rw [List.length_zip]
    omega
  have here := related.get zipBound bound
  simpa using here

theorem stretchAll_permute (isOrder : IsOrder order left.length)
    (lengths : left.length = right.length) :
    stretchAll (permute order left) (permute order right) =
      (stretchAll left right).map (permute order) := by
  have isOrderZip : IsOrder order (left.zip right).length := by
    rwa [List.length_zip, ← lengths, Nat.min_self]
  have permuted :
      (permute order left).length = (permute order right).length := by
    rw [length_permute isOrder.inside,
      length_permute (lengths ▸ isOrder.inside)]
  rw [stretchAll, stretchAll, if_pos permuted, if_pos lengths,
    ← permute_zip isOrder.inside lengths, collect_permute_eq isOrderZip]

theorem clip_permute (isOrder : IsOrder order left.length)
    (lengths : left.length = index.length) :
    clip (permute order left) (permute order index) =
      permute order (clip left index) :=
  (permute_zipWith _ isOrder.inside lengths).symm

/-- A clipped index is an index of the stretched operand. -/
theorem valid_clip
    (fits : ∀ pair ∈ left.zip result, pair.1 = pair.2 ∨ pair.1 = 1)
    (lengths : left.length = result.length) (valid : Valid result index) :
    Valid left (clip left index) := by
  induction valid generalizing left with
  | nil =>
      obtain rfl := List.length_eq_zero_iff.mp lengths
      exact .nil
  | @cons i dim index result below _ ih =>
      cases left with
      | nil => simp at lengths
      | cons first left =>
          have here := fits (first, dim) (by simp)
          rw [clip, List.zipWith_cons_cons]
          refine .cons ?_
            (ih (fun pair member => fits pair (by simp [member]))
              (by simpa using lengths))
          by_cases isOne : first = 1
          · simp [isOne]
          · rw [if_neg isOne]
            have same : first = dim := here.resolve_right isOne
            rw [same]
            exact below

theorem clip_valid (valid : Valid left index) : clip left index = index := by
  induction valid with
  | nil => rfl
  | @cons i dim index left below _ ih =>
      rw [clip, List.zipWith_cons_cons, ← clip, ih]
      by_cases isOne : dim = 1
      · rw [if_pos isOne]
        have isZero : i = 0 := by omega
        rw [isZero]
      · rw [if_neg isOne]

theorem stretchAll_left (fits : stretchAll left right = some result) :
    ∀ pair ∈ left.zip result, pair.1 = pair.2 ∨ pair.1 = 1 := by
  intro pair member
  obtain ⟨leftLength, rightLength⟩ := stretchAll_length fits
  obtain ⟨i, bound, rfl⟩ := List.getElem_of_mem member
  rw [List.length_zip] at bound
  have here := stretchAll_getElem fits (i := i) (by omega) (by omega) (by omega)
  rw [List.getElem_zip]
  exact (stretch_cases here).1

theorem stretchAll_right (fits : stretchAll left right = some result) :
    ∀ pair ∈ right.zip result, pair.1 = pair.2 ∨ pair.1 = 1 := by
  intro pair member
  obtain ⟨leftLength, rightLength⟩ := stretchAll_length fits
  obtain ⟨i, bound, rfl⟩ := List.getElem_of_mem member
  rw [List.length_zip] at bound
  have here := stretchAll_getElem fits (i := i) (by omega) (by omega) (by omega)
  rw [List.getElem_zip]
  exact (stretch_cases here).2

theorem extend_length {rank : Nat} {shape : List Nat}
    (fits : shape.length ≤ rank) :
    (extend rank shape).length = rank := by
  rw [extend, List.length_append, List.length_replicate]
  omega

theorem extend_self {rank : Nat} {shape : List Nat}
    (fits : rank ≤ shape.length) :
    extend rank shape = shape := by
  rw [extend, Nat.sub_eq_zero_of_le fits, List.replicate_zero, List.nil_append]

theorem extend_prod (rank : Nat) (shape : List Nat) :
    (extend rank shape).prod = shape.prod := by
  rw [extend, List.prod_append, List.prod_replicate, one_pow, one_mul]

end Stretch

section Binary

variable {V : Type*} [Inhabited V]

omit [Inhabited V] in
/-- The same elements under another shape, if it has as many. -/
def reshape (shape : List Nat) (tensor : Tensor V) : Option (Tensor V) :=
  if full : tensor.data.length = shape.prod then some ⟨shape, tensor.data, full⟩
  else none

omit [Inhabited V] in
/-- A tensor of higher rank, with dimensions of one in front. -/
def expand (rank : Nat) (tensor : Tensor V) : Tensor V where
  shape := extend rank tensor.shape
  data := tensor.data
  full := by rw [extend_prod, tensor.full]

/-- The elements of two tensors combined, dimensions of one being stretched. -/
def binary (f : V → V → V) (left right : Tensor V) : Option (Tensor V) :=
  let wideLeft := left.expand right.rank
  let wideRight := right.expand left.rank
  (stretchAll wideLeft.shape wideRight.shape).map fun shape =>
    ofFn shape fun index =>
    f (wideLeft.get (clip wideLeft.shape index))
      (wideRight.get (clip wideRight.shape index))

theorem expand_self {rank : Nat} {tensor : Tensor V}
    (fits : rank ≤ tensor.rank) :
    tensor.expand rank = tensor := by
  have shape := extend_self fits
  refine ext shape fun index _ => ?_
  rw [get, get]
  dsimp only [expand]
  rw [shape]

theorem binary_expand (f : V → V → V) (left right : Tensor V) :
    binary f left right = binary f (left.expand right.rank)
      (right.expand left.rank) := by
  have ranks : (left.expand right.rank).rank =
      (right.expand left.rank).rank := by
    dsimp only [rank, expand]
    simp only [extend, List.length_append, List.length_replicate]
    omega
  rw [binary, binary, expand_self (Nat.le_of_eq ranks.symm),
    expand_self (Nat.le_of_eq ranks)]

theorem binary_eq {f : V → V → V} {left right : Tensor V}
    (ranks : left.rank = right.rank) :
    binary f left right = (stretchAll left.shape right.shape).map fun shape =>
      ofFn shape fun index =>
        f (left.get (clip left.shape index))
          (right.get (clip right.shape index)) := by
  rw [binary, expand_self (Nat.le_of_eq ranks.symm),
    expand_self (Nat.le_of_eq ranks)]

theorem shape_binary (f : V → V → V) (left right : Tensor V) :
    (binary f left right).map Tensor.shape =
      stretchAll (extend right.rank left.shape)
        (extend left.rank right.shape) := by
  rw [binary, Option.map_map]
  exact Option.map_id'

theorem stretch_comm (left right : Nat) :
    stretch left right = stretch right left := by
  unfold stretch
  by_cases same : left = right
  · rw [same]
  · rw [if_neg same, if_neg (Ne.symm same)]
    by_cases leftOne : left = 1
    · have rightOther : right ≠ 1 :=
        fun rightOne => same (leftOne.trans rightOne.symm)
      rw [if_pos leftOne, if_neg rightOther, if_pos leftOne]
    · rw [if_neg leftOne, if_neg leftOne]

theorem stretchAll_comm (left right : List Nat) :
    stretchAll left right = stretchAll right left := by
  have oneWay : ∀ {left right result : List Nat},
      stretchAll left right = some result →
      stretchAll right left = some result := by
    intro left right result fits
    obtain ⟨leftLength, rightLength⟩ := stretchAll_length fits
    refine stretchAll_iff.mpr ⟨rightLength.trans leftLength.symm, ?_⟩
    rw [List.forall₂_iff_get]
    refine ⟨by rw [List.length_zip]; omega, fun i bound resultBound => ?_⟩
    rw [List.length_zip] at bound
    have here := stretchAll_getElem fits (i := i) (by omega)
      (by omega) resultBound
    simp only [List.get_eq_getElem, List.getElem_zip]
    rwa [stretch_comm]
  cases fits : stretchAll left right with
  | some result => exact (oneWay fits).symm
  | none =>
      cases swapped : stretchAll right left with
      | none => rfl
      | some result => exact absurd (fits.symm.trans (oneWay swapped)) (by simp)

theorem binary_swap (f : V → V → V) (left right : Tensor V) :
    binary f left right = binary (fun y x => f x y) right left := by
  rw [binary, binary, stretchAll_comm]

/-- Operands of one rank can be transposed before or after they are combined. -/
theorem binary_transpose {f : V → V → V} {left right : Tensor V}
    {order : List Nat} (isOrder : IsOrder order left.rank)
    (ranks : left.rank = right.rank) :
    binary f (left.transpose order) (right.transpose order) =
      (binary f left right).map (transpose order) := by
  have isOrderRight : IsOrder order right.rank := ranks ▸ isOrder
  have ranks' : (left.transpose order).rank = (right.transpose order).rank := by
    rw [rank_transpose isOrder, rank_transpose isOrderRight, ranks]
  rw [binary_eq ranks, binary_eq ranks', shape_transpose, shape_transpose,
    stretchAll_permute isOrder ranks, Option.map_map, Option.map_map]
  cases fits : stretchAll left.shape right.shape with
  | none => rfl
  | some shape =>
      rw [Option.map_some, Option.map_some]
      congr 1
      obtain ⟨leftLength, rightLength⟩ := stretchAll_length fits
      have isOrderShape : IsOrder order shape.length := leftLength ▸ isOrder
      refine eq_transpose isOrderShape rfl fun index valid => ?_
      have valid : Valid shape index := valid
      have leftIndex : left.shape.length = index.length :=
        leftLength.trans valid.length.symm
      have rightIndex : right.shape.length = index.length :=
        rightLength.trans valid.length.symm
      have validLeft := valid_clip (stretchAll_left fits) leftLength valid
      have validRight := valid_clip (stretchAll_right fits) rightLength valid
      rw [Function.comp_apply, get_ofFn _ (valid_permute isOrderShape valid),
        get_ofFn _ valid, clip_permute isOrder leftIndex,
        clip_permute isOrderRight rightIndex,
        get_transpose_permute isOrder validLeft,
        get_transpose_permute isOrderRight validRight]

end Binary

end Tensor

end NGraphBridge
