import Mathlib.Algebra.BigOperators.Group.Finset.Sigma
import Mathlib.Algebra.BigOperators.Ring.Finset
import NGraphBridge.Lib.Tensor

/-!
# The inner product of two tensors

Elements are multiplied place by place. A transposition of both tensors changes
the places only. A linear map has an adjoint, which is read off the tensors with
one entry.
-/

namespace NGraphBridge.Tensor

open Axes

theorem getD_data {V : Type*} [Inhabited V] {tensor : Tensor V} {place : Nat}
    (below : place < tensor.shape.prod) :
    tensor.data.getD place default =
      tensor.get (unlinear tensor.shape place) := by
  rw [get, linear_unlinear below]

variable {R : Type*} [CommSemiring R] [Inhabited R]

/-- The sum over all elements of the products. -/
def inner (left right : Tensor R) : R :=
  ∑ place ∈ Finset.range left.shape.prod,
    left.data.getD place default * right.data.getD place default

variable {left right : Tensor R} {order : List Nat}

theorem inner_eq (shapes : left.shape = right.shape) :
    inner left right = ∑ place ∈ Finset.range left.shape.prod,
      left.get (unlinear left.shape place) *
        right.get (unlinear left.shape place) := by
  apply Finset.sum_congr rfl
  intro place member
  have below := Finset.mem_range.mp member
  rw [getD_data below, shapes, getD_data (shapes ▸ below)]

/-- A transposition is a bijection of the places. -/
theorem inner_transpose (isOrder : IsOrder order left.rank)
    (shapes : left.shape = right.shape) :
    inner (left.transpose order) (right.transpose order) =
      inner left right := by
  have isOrderRight : IsOrder order right.rank := by
    rw [rank, ← shapes]
    exact isOrder
  have moved : (left.transpose order).shape =
      (right.transpose order).shape := by
    rw [shape_transpose, shape_transpose, shapes]
  rw [inner_eq shapes, inner_eq moved, shape_transpose]
  apply Finset.sum_nbij'
    (fun place => linear left.shape
      (permute (inverse order) (unlinear (permute order left.shape) place)))
    (fun place => linear (permute order left.shape)
      (permute order (unlinear left.shape place)))
  · intro place member
    have valid := valid_unlinear (Finset.mem_range.mp member)
    exact Finset.mem_range.mpr (valid_inverse isOrder valid).linear_lt
  · intro place member
    have valid := valid_unlinear (Finset.mem_range.mp member)
    exact Finset.mem_range.mpr (valid_permute isOrder valid).linear_lt
  · intro place member
    have below := Finset.mem_range.mp member
    have valid := valid_unlinear below
    have length : (unlinear (permute order left.shape) place).length =
        left.rank := by
      rw [valid.length, length_permute isOrder.inside, isOrder.length]
    rw [unlinear_linear (valid_inverse isOrder valid),
      permute_inverse (length.symm ▸ isOrder), linear_unlinear below]
  · intro place member
    have below := Finset.mem_range.mp member
    have valid := valid_unlinear below
    have length : (unlinear left.shape place).length = left.rank := valid.length
    rw [unlinear_linear (valid_permute isOrder valid),
      inverse_permute (length.symm ▸ isOrder), linear_unlinear below]
  · intro place member
    have valid := valid_unlinear (Finset.mem_range.mp member)
    rw [unlinear_linear (valid_inverse isOrder valid), get_transpose valid,
      get_transpose (shapes ▸ valid)]

theorem inner_transpose_left (isOrder : IsOrder order left.rank)
    (shapes : (left.transpose order).shape = right.shape) :
    inner (left.transpose order) right =
      inner left (right.transpose (inverse order)) := by
  have ranks : left.rank = (left.transpose order).rank :=
    (rank_transpose isOrder).symm
  have isInverse : IsOrder (inverse order) (left.transpose order).rank := by
    rw [← ranks]
    exact isOrder.inverse
  rw [← inner_transpose isInverse shapes, inverse_transpose isOrder]

section Linear

variable {shape index : List Nat}

/-- The tensor that has a one at a place. -/
def oneAt (shape : List Nat) (place : Nat) : Tensor R :=
  ofFn shape fun index => if linear shape index = place then 1 else 0

/-- What a function makes of a tensor is the sum of what it makes of the
entries. -/
def IsLinear (shape : List Nat) (f : Tensor R → R) : Prop :=
  ∀ value : Tensor R, value.shape = shape → f value =
    ∑ place ∈ Finset.range shape.prod,
    value.data.getD place default * f (oneAt shape place)

theorem isLinear_zero : IsLinear shape fun _ : Tensor R => 0 := by
  intro value _
  simp

theorem isLinear_get (valid : Valid shape index) :
    IsLinear shape fun value : Tensor R => value.get index := by
  intro value isShape
  have inside := Finset.mem_range.mpr valid.linear_lt
  dsimp only
  rw [Finset.sum_eq_single_of_mem (linear shape index) inside, oneAt,
    get_ofFn _ valid, if_pos rfl, mul_one, get, isShape]
  intro place _ other
  rw [oneAt, get_ofFn _ valid, if_neg (Ne.symm other), mul_zero]

theorem IsLinear.mul_right {f : Tensor R → R} (isLinear : IsLinear shape f)
    (factor : R) :
    IsLinear shape fun value => f value * factor := by
  intro value isShape
  dsimp only
  rw [isLinear value isShape, Finset.sum_mul]
  simp only [mul_assoc]

theorem IsLinear.sum {ι : Type*} {indices : Finset ι} {f : ι → Tensor R → R}
    (areLinear : ∀ i ∈ indices, IsLinear shape (f i)) :
    IsLinear shape fun value => ∑ i ∈ indices, f i value := by
  intro value isShape
  calc ∑ i ∈ indices, f i value
      = ∑ i ∈ indices, ∑ place ∈ Finset.range shape.prod,
          value.data.getD place default * f i (oneAt shape place) := by
        apply Finset.sum_congr rfl
        intro i member
        exact areLinear i member value isShape
    _ = ∑ place ∈ Finset.range shape.prod, ∑ i ∈ indices,
          value.data.getD place default * f i (oneAt shape place) :=
    Finset.sum_comm
    _ = ∑ place ∈ Finset.range shape.prod,
          value.data.getD place default * ∑ i ∈ indices,
          f i (oneAt shape place) := by
        simp only [Finset.mul_sum]

/-- The adjoint of a map into the tensors of the shape of `out`. -/
def adjoint (shape : List Nat) (f : Tensor R → List Nat → R) (out : Tensor R) :
    Tensor R :=
  ofFn shape fun index => ∑ place ∈ Finset.range out.shape.prod,
    f (oneAt shape (linear shape index)) (unlinear out.shape place) *
    out.data.getD place default

theorem inner_adjoint {f : Tensor R → List Nat → R} {value out : Tensor R}
    (areLinear : ∀ index, Valid out.shape index →
      IsLinear value.shape fun value => f value index) :
    inner (ofFn out.shape (f value)) out =
      inner value (adjoint value.shape f out) := by
  calc inner (ofFn out.shape (f value)) out
      = ∑ place ∈ Finset.range out.shape.prod,
      (∑ source ∈ Finset.range value.shape.prod,
          value.data.getD source default *
            f (oneAt value.shape source) (unlinear out.shape place)) *
          out.data.getD place default := by
        apply Finset.sum_congr rfl
        intro place member
        have below : place < out.shape.prod := Finset.mem_range.mp member
        have valid := valid_unlinear below
        have split := areLinear _ valid value rfl
        dsimp only at split
        rw [@getD_data _ _ (ofFn out.shape (f value)) _ below, shape_ofFn,
          get_ofFn _ valid, split]
    _ = ∑ source ∈ Finset.range value.shape.prod,
    ∑ place ∈ Finset.range out.shape.prod,
          value.data.getD source default *
            (f (oneAt value.shape source) (unlinear out.shape place) *
              out.data.getD place default) := by
        rw [Finset.sum_comm]
        simp only [Finset.sum_mul, mul_assoc]
    _ = inner value (adjoint value.shape f out) := by
        apply Finset.sum_congr rfl
        intro source member
        have below := Finset.mem_range.mp member
        have valid := valid_unlinear below
        rw [@getD_data _ _ (adjoint value.shape f out) _ below, adjoint,
          shape_ofFn, get_ofFn _ valid, linear_unlinear below, Finset.mul_sum]

end Linear

end NGraphBridge.Tensor
