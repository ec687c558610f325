import NGraphBridge.Lib.Tensor

/-!
# Parts of a tensor

A slice takes entries of every axis that follow each other, or one entry of an
axis that is dropped. Reading goes through a broadcast shape.
-/

namespace NGraphBridge.Tensor

/-- Where the part of an axis begins, and how long it is unless the axis is
dropped. -/
abbrev SliceAxis := Nat × Option Nat

def sliceShape (axes : List SliceAxis) : List Nat := axes.filterMap Prod.snd

/-- The index of the tensor at an index of the slice. -/
def sliceSource : List SliceAxis → List Nat → List Nat
  | (start, none) :: axes, index => start :: sliceSource axes index
  | (start, some _) :: axes, i :: index => (start + i) :: sliceSource axes index
  | _, _ => []

section Slice

variable {V : Type*} [Inhabited V]

def slice (axes : List SliceAxis) (tensor : Tensor V) : Tensor V :=
  ofFn (sliceShape axes) fun index => tensor.get (sliceSource axes index)

/-- The entries at a place of an axis, without the axis. -/
def entry (axis i : Nat) (tensor : Tensor V) : Tensor V :=
  ofFn (tensor.shape.eraseIdx axis) fun index =>
    tensor.get (index.insertIdx axis i)

/-- All of every axis but one, of which one entry is taken. -/
def entryAxes : List Nat → Nat → Nat → List SliceAxis
  | [], _, _ => []
  | _ :: shape, 0, i => (i, none) :: shape.map fun dim => (0, some dim)
  | dim :: shape, axis + 1, i => (0, some dim) :: entryAxes shape axis i

theorem sliceShape_whole (shape : List Nat) :
    sliceShape (shape.map fun dim => (0, some dim)) = shape := by
  induction shape with
  | nil => rfl
  | cons dim shape ih =>
      rw [List.map_cons, sliceShape, List.filterMap_cons, ← sliceShape, ih]

theorem sliceSource_whole {shape index : List Nat}
    (lengths : index.length = shape.length) :
    sliceSource (shape.map fun dim => (0, some dim)) index = index := by
  induction shape generalizing index with
  | nil =>
      rw [List.length_eq_zero_iff.mp lengths]
      rfl
  | cons dim shape ih =>
      cases index with
      | nil => exact absurd lengths (by simp)
      | cons i index =>
          rw [List.map_cons, sliceSource, ih (Nat.succ.inj lengths),
            Nat.zero_add]

theorem sliceShape_entry {shape : List Nat} {axis : Nat} (i : Nat)
    (below : axis < shape.length) :
    sliceShape (entryAxes shape axis i) = shape.eraseIdx axis := by
  induction shape generalizing axis with
  | nil => exact absurd below (Nat.not_lt_zero _)
  | cons dim shape ih =>
      cases axis with
      | zero =>
          rw [entryAxes, sliceShape, List.filterMap_cons, ← sliceShape,
            sliceShape_whole]
          rfl
      | succ axis =>
          have rest := ih (Nat.lt_of_succ_lt_succ below)
          rw [entryAxes, sliceShape, List.filterMap_cons, ← sliceShape, rest]
          rfl

theorem sliceSource_entry {shape index : List Nat} {axis : Nat} (i : Nat)
    (below : axis < shape.length) (lengths : index.length + 1 = shape.length) :
    sliceSource (entryAxes shape axis i) index = index.insertIdx axis i := by
  induction shape generalizing axis index with
  | nil => exact absurd below (Nat.not_lt_zero _)
  | cons dim shape ih =>
      cases axis with
      | zero =>
          rw [entryAxes, sliceSource, sliceSource_whole (Nat.succ.inj lengths)]
          rfl
      | succ axis =>
          have restBelow := Nat.lt_of_succ_lt_succ below
          cases index with
          | nil =>
              have isShort : shape.length = 0 := (Nat.succ.inj lengths).symm
              exact absurd restBelow (by omega)
          | cons j index =>
              rw [entryAxes, sliceSource, ih restBelow (Nat.succ.inj lengths),
                Nat.zero_add]
              rfl

theorem slice_entry {tensor : Tensor V} {axis : Nat} (i : Nat)
    (below : axis < tensor.rank) :
    tensor.slice (entryAxes tensor.shape axis i) = tensor.entry axis i := by
  have below : axis < tensor.shape.length := below
  have shape := sliceShape_entry i below
  rw [slice, entry, shape]
  apply ofFn_congr
  intro index valid
  have lengths := valid.length
  rw [List.length_eraseIdx_of_lt below] at lengths
  rw [sliceSource_entry i below (by omega)]

end Slice

end NGraphBridge.Tensor
