import NGraphBridge.Lib.Tensor

/-!
# Stretching scalars and vectors

A tensor of lower rank is stretched along the last axes of a shape.
-/

namespace NGraphBridge.Tensor

open Axes

section Shapes

variable {shape front : List Nat} {n last rank : Nat}

theorem stretchAll_cons (left right : Nat) (lefts rights : List Nat) :
    stretchAll (left :: lefts) (right :: rights) =
      (stretch left right).bind fun dim =>
        (stretchAll lefts rights).map (dim :: ·) := by
  rw [stretchAll, stretchAll, List.length_cons, List.length_cons]
  by_cases lengths : lefts.length = rights.length
  · rw [if_pos lengths, if_pos (congrArg (· + 1) lengths)]
    rfl
  · rw [if_neg lengths, if_neg (fun same => lengths (Nat.succ.inj same))]
    cases stretch left right with
    | none => rfl
    | some dim => rfl

theorem stretch_self (dim : Nat) : stretch dim dim = some dim := if_pos rfl

theorem stretch_one (dim : Nat) : stretch 1 dim = some dim := by
  by_cases same : 1 = dim
  · rw [← same, stretch_self]
  · rw [stretch, if_neg same, if_pos rfl]

theorem stretchAll_self (shape : List Nat) :
    stretchAll shape shape = some shape := by
  induction shape with
  | nil => rfl
  | cons dim shape ih =>
      rw [stretchAll_cons, stretch_self, ih, Option.bind_some, Option.map_some]

theorem stretchAll_ones (shape : List Nat) :
    stretchAll (List.replicate shape.length 1) shape = some shape := by
  induction shape with
  | nil => rfl
  | cons dim shape ih =>
      rw [List.length_cons, List.replicate_succ, stretchAll_cons, stretch_one,
        ih, Option.bind_some, Option.map_some]

theorem stretchAll_vector (front : List Nat) (n last : Nat) :
    stretchAll (List.replicate front.length 1 ++ [n]) (front ++ [last]) =
      (stretch n last).map fun dim => front ++ [dim] := by
  induction front with
  | nil =>
      rw [List.length_nil, List.replicate_zero, List.nil_append,
        List.nil_append, stretchAll_cons]
      cases stretch n last with
      | none => rfl
      | some dim => rfl
  | cons first front ih =>
      rw [List.length_cons, List.replicate_succ, List.cons_append,
        List.cons_append, stretchAll_cons, stretch_one, ih, Option.bind_some,
        Option.map_map]
      rfl

theorem extend_nil (rank : Nat) : extend rank [] = List.replicate rank 1 := by
  rw [extend, List.length_nil, Nat.sub_zero, List.append_nil]

theorem extend_vector (rank n : Nat) : extend (rank + 1)
    [n] = List.replicate rank 1 ++ [n] := by
  rw [extend, List.length_singleton, Nat.add_sub_cancel]

end Shapes

section Places

variable {index : List Nat} {rank : Nat}

theorem Valid.append {front back first second : List Nat}
    (validFirst : Valid front first) (validSecond : Valid back second) :
    Valid (front ++ back) (first ++ second) := by
  induction validFirst with
  | nil => exact validSecond
  | cons below _ ih => exact .cons below ih

theorem valid_zeros {shape : List Nat} (nonempty : 0 ∉ shape) :
    Valid shape (List.replicate shape.length 0) := by
  induction shape with
  | nil => exact .nil
  | cons dim shape ih =>
      have positive : 0 < dim :=
        Nat.pos_of_ne_zero fun isZero => nonempty (by simp [isZero])
      exact .cons positive
        (ih fun empty => nonempty (List.mem_cons_of_mem _ empty))

theorem linear_ones (rank : Nat) (shape index : List Nat) :
    linear (List.replicate rank 1 ++ shape) (List.replicate rank 0 ++ index) =
      linear shape index := by
  induction rank with
  | zero => rfl
  | succ rank ih =>
      rw [List.replicate_succ, List.replicate_succ, List.cons_append,
        List.cons_append, linear, ih, Nat.zero_mul, Nat.zero_add]

theorem clip_ones (isRank : index.length = rank) :
    clip (List.replicate rank 1) index = List.replicate rank 0 := by
  subst isRank
  induction index with
  | nil => rfl
  | cons i index ih =>
      rw [List.length_cons, List.replicate_succ, List.replicate_succ, clip,
        List.zipWith_cons_cons, if_pos rfl, ← clip, ih]

theorem clip_vector {n i : Nat} (isRank : index.length = rank) :
    clip (List.replicate rank 1 ++ [n]) (index ++ [i]) =
      List.replicate rank 0 ++ clip [n] [i] := by
  have lengths : (List.replicate rank 1).length = index.length := by
    rw [List.length_replicate, isRank]
  rw [clip, List.zipWith_append lengths]
  exact congrArg (· ++ clip [n] [i]) (clip_ones isRank)

end Places

section Elements

variable {V : Type*} [Inhabited V] {tensor : Tensor V} {index : List Nat}

theorem get_expand_scalar (scalar : tensor.shape = []) :
    (tensor.expand index.length).get
      (clip (tensor.expand index.length).shape index) =
      tensor.get [] := by
  have shape : (tensor.expand index.length).shape =
      List.replicate index.length 1 := by
    rw [← extend_nil, ← scalar]
    rfl
  have place := linear_ones index.length [] []
  rw [List.append_nil, List.append_nil] at place
  rw [get, shape, clip_ones rfl, place, get, scalar]
  rfl

theorem get_expand_vector {n i : Nat} (vector : tensor.shape = [n]) :
    (tensor.expand (index ++ [i]).length).get
      (clip (tensor.expand (index ++ [i]).length).shape (index ++ [i])) =
      tensor.get (clip [n] [i]) := by
  have shape : (tensor.expand (index ++ [i]).length).shape =
      List.replicate index.length 1 ++ [n] := by
    rw [← extend_vector, ← vector, List.length_append]
    rfl
  rw [get, shape, clip_vector rfl, linear_ones, get, vector]
  rfl

theorem get_expand_self (valid : Valid tensor.shape index) :
    (tensor.expand index.length).get
      (clip (tensor.expand index.length).shape index) =
      tensor.get index := by
  rw [expand_self (Nat.le_of_eq valid.length), clip_valid valid]

end Elements

end NGraphBridge.Tensor
