import Mathlib.Data.List.Sections
import Mathlib.Order.Bounds.Basic
import Mathlib.Order.MinMax
import Mathlib.Tactic.Convert
import NGraphBridge.Lib.Tensor

/-!
# Windows over a tensor

A window is moved along every axis by a stride. What it covers of the padding is
left out.
-/

namespace NGraphBridge.Tensor

/-- The entries of an axis that the window covers at a place. -/
def windowAxis (dim size stride pad i : Nat) : List Nat :=
  (List.range size).filterMap fun offset =>
    if pad ≤ i * stride + offset ∧ i * stride + offset < pad + dim then
      some (i * stride + offset - pad)
    else none

def windowAxes : List Nat → List Nat → List Nat → List Nat → List Nat →
    List (List Nat)
  | dim :: shape, size :: kernel, stride :: strides, pad :: pads, i :: index =>
      windowAxis dim size stride pad i :: windowAxes shape kernel strides
        pads index
  | _, _, _, _, _ => []

/-- The indices that the window covers at an index of the result. -/
def window (shape kernel strides pads index : List Nat) : List (List Nat) :=
  (windowAxes shape kernel strides pads index).sections

def largest {V : Type*} [Inhabited V] (max : V → V → V) : List V → V
  | [] => default
  | first :: rest => rest.foldl max first

section Greatest

variable {V : Type*} [LinearOrder V]

theorem isGreatest_foldl_max (start : V) (values : List V) :
    IsGreatest {value | value ∈ start :: values} (values.foldl max start) := by
  induction values generalizing start with
  | nil =>
      refine ⟨List.mem_cons_self, fun value member => ?_⟩
      exact le_of_eq (List.mem_singleton.mp member)
  | cons next values ih =>
      obtain ⟨member, bound⟩ := ih (max start next)
      have reaches : max start next ≤ values.foldl max (max start next) :=
        bound List.mem_cons_self
      rw [List.foldl_cons]
      constructor
      · cases List.mem_cons.mp member with
        | inl isMax =>
            rw [isMax]
            cases max_choice start next with
            | inl isStart =>
                rw [isStart]
                exact List.mem_cons_self
            | inr isNext =>
                rw [isNext]
                exact List.mem_cons_of_mem _ List.mem_cons_self
        | inr isLater =>
            exact List.mem_cons_of_mem _ (List.mem_cons_of_mem _ isLater)
      · intro value member
        cases List.mem_cons.mp member with
        | inl isStart =>
            rw [isStart]
            exact le_trans (le_max_left start next) reaches
        | inr isLater =>
            cases List.mem_cons.mp isLater with
            | inl isNext =>
                rw [isNext]
                exact le_trans (le_max_right start next) reaches
            | inr isRest => exact bound (List.mem_cons_of_mem _ isRest)

theorem isGreatest_largest [Inhabited V] {values : List V}
    (nonempty : values ≠ []) :
    IsGreatest {value | value ∈ values} (largest max values) := by
  cases values with
  | nil => exact absurd rfl nonempty
  | cons first rest => exact isGreatest_foldl_max first rest

end Greatest

/-- The number of places of a window within an axis. -/
def windowPlaces (dim size stride : Nat) : Nat :=
  if size ≤ dim then (dim - size) / stride + 1 else 0

def pooledShape (shape kernel strides : List Nat) : List Nat :=
  List.zipWith (fun dim axis => windowPlaces dim axis.1 axis.2) shape
    (kernel.zip strides)

/-- The window at an index covers an index of the tensor. -/
def Covers (kernel strides index source : List Nat) : Prop :=
  List.Forall₂ (fun axis place => axis.1 * axis.2.2 ≤ place ∧
      place < axis.1 * axis.2.2 + axis.2.1)
    (index.zip (kernel.zip strides)) source

/-- Every element is the greatest one that the window covers. -/
structure IsMaxPool {V : Type*} [Inhabited V] [LinearOrder V]
    (kernel strides : List Nat) (data result : Tensor V) : Prop where
  shape : result.shape = pooledShape data.shape kernel strides
  greatest : ∀ index, Valid result.shape index →
    IsGreatest {value | ∃ source, Valid data.shape source ∧
      Covers kernel strides index source ∧
      data.get source = value} (result.get index)

section Covers

variable {shape kernel strides index source order : List Nat}

theorem covers_cons {size stride i place : Nat} :
    Covers (size :: kernel) (stride :: strides) (i :: index) (place :: source) ↔
      (i * stride ≤ place ∧ place < i * stride + size) ∧
      Covers kernel strides index source :=
  List.forall₂_cons

theorem mem_windowAxis {dim size stride i place : Nat} :
    place ∈ windowAxis dim size stride 0 i ↔
      (i * stride ≤ place ∧ place < i * stride + size) ∧ place < dim := by
  rw [windowAxis, List.mem_filterMap]
  constructor
  · intro covered
    obtain ⟨offset, member, here⟩ := covered
    have below := List.mem_range.mp member
    split at here
    next inside =>
      have place := Option.some.inj here
      omega
    next => exact absurd here (by simp)
  · intro covered
    refine ⟨place - i * stride, List.mem_range.mpr (by omega), ?_⟩
    rw [if_pos (by omega)]
    congr 1
    omega

theorem pooledShape_cons {dim size stride : Nat} :
    pooledShape (dim :: shape) (size :: kernel) (stride :: strides) =
      windowPlaces dim size stride :: pooledShape shape kernel strides :=
  rfl

/-- The indices of a window without padding. -/
theorem mem_window (kernelLength : kernel.length = shape.length)
    (stridesLength : strides.length = shape.length)
    (indexLength : index.length = shape.length) :
    source ∈ window shape kernel strides (List.replicate shape.length 0) index ↔
      Valid shape source ∧ Covers kernel strides index source := by
  rw [window, List.mem_sections]
  induction shape generalizing kernel strides index source with
  | nil =>
      obtain rfl := List.length_eq_zero_iff.mp kernelLength
      obtain rfl := List.length_eq_zero_iff.mp stridesLength
      obtain rfl := List.length_eq_zero_iff.mp indexLength
      cases source with
      | nil => exact ⟨fun _ => ⟨.nil, .nil⟩, fun _ => .nil⟩
      | cons place source => exact ⟨nofun, fun covered => nomatch covered.1⟩
  | cons dim shape ih =>
      match kernel, strides, index, kernelLength, stridesLength,
        indexLength with
      | size :: kernel, stride :: strides, i :: index, kernelLength,
        stridesLength, indexLength =>
          rw [List.length_cons, List.replicate_succ, windowAxes]
          cases source with
          | nil => exact ⟨nofun, fun covered => nomatch covered.1⟩
          | cons place source =>
              have rest := @ih kernel strides index source
                (Nat.succ.inj kernelLength)
                (Nat.succ.inj stridesLength) (Nat.succ.inj indexLength)
              have valid : Valid (dim :: shape) (place :: source) ↔
                  place < dim ∧ Valid shape source :=
                List.forall₂_cons
              rw [List.forall₂_cons, mem_windowAxis, rest, covers_cons, valid]
              constructor
              · intro covered
                exact ⟨⟨covered.1.2, covered.2.1⟩, covered.1.1, covered.2.2⟩
              · intro covered
                exact ⟨⟨covered.2.1, covered.1.1⟩, covered.1.2, covered.2.2⟩

theorem mul_add_le_of_lt_windowPlaces {dim size stride i : Nat}
    (below : i < windowPlaces dim size stride) : i * stride + size ≤ dim := by
  unfold windowPlaces at below
  split at below
  next fits =>
    have bound : i * stride ≤ dim - size :=
      calc i * stride ≤ (dim - size) / stride * stride :=
        Nat.mul_le_mul_right _ (by omega)
        _ ≤ dim - size := Nat.div_mul_le_self _ _
    omega
  next => exact absurd below (Nat.not_lt_zero i)

/-- Every window covers something. -/
theorem exists_covered (positive : ∀ size ∈ kernel, 0 < size)
    (kernelLength : kernel.length = shape.length)
    (stridesLength : strides.length = shape.length)
    (valid : Valid (pooledShape shape kernel strides) index) :
    ∃ source, Valid shape source ∧ Covers kernel strides index source := by
  induction shape generalizing kernel strides index with
  | nil =>
      cases valid with
      | nil => exact ⟨[], .nil, .nil⟩
  | cons dim shape ih =>
      match kernel, strides, kernelLength, stridesLength with
      | size :: kernel, stride :: strides, kernelLength, stridesLength =>
          rw [List.forall_mem_cons] at positive
          cases valid with
          | @cons i _ index _ below rest =>
              obtain ⟨source, validSource, covers⟩ :=
                ih positive.2 (Nat.succ.inj kernelLength)
                  (Nat.succ.inj stridesLength) rest
              have inside : i * stride + size ≤ dim :=
                mul_add_le_of_lt_windowPlaces below
              refine ⟨i * stride :: source, .cons (by omega) validSource, ?_⟩
              rw [covers_cons]
              exact ⟨⟨Nat.le_refl _, by omega⟩, covers⟩

theorem length_pooledShape (kernelLength : kernel.length = shape.length)
    (stridesLength : strides.length = shape.length) :
    (pooledShape shape kernel strides).length = shape.length := by
  rw [pooledShape, List.length_zipWith, List.length_zip]
  omega

theorem pooledShape_permute (isOrder : Axes.IsOrder order shape.length)
    (kernelLength : kernel.length = shape.length)
    (stridesLength : strides.length = shape.length) :
    pooledShape (Axes.permute order shape) (Axes.permute order kernel)
      (Axes.permute order strides) =
      Axes.permute order (pooledShape shape kernel strides) := by
  have pairs : shape.length = (kernel.zip strides).length := by
    rw [List.length_zip]
    omega
  rw [pooledShape, pooledShape, Axes.permute_zipWith _ isOrder.inside pairs,
    Axes.permute_zip (kernelLength ▸ isOrder.inside)
      (kernelLength.trans stridesLength.symm)]

theorem covers_permute (isOrder : Axes.IsOrder order index.length)
    (kernelLength : kernel.length = index.length)
    (stridesLength : strides.length = index.length)
    (covers : Covers kernel strides index source) :
    Covers (Axes.permute order kernel) (Axes.permute order strides)
      (Axes.permute order index) (Axes.permute order source) := by
  have pairs : index.length = (kernel.zip strides).length := by
    rw [List.length_zip]
    omega
  have inside : Axes.Inside order (index.zip (kernel.zip strides)).length := by
    rw [List.length_zip, ← pairs, Nat.min_self]
    exact isOrder.inside
  rw [Covers, ← Axes.permute_zip (kernelLength ▸ isOrder.inside)
    (kernelLength.trans stridesLength.symm),
    ← Axes.permute_zip isOrder.inside pairs]
  exact Axes.forall₂_permute inside covers

end Covers

section MaxPool

variable {V : Type*} [Inhabited V] [LinearOrder V]
  {kernel strides order : List Nat} {data result : Tensor V}

/-- The largest elements of the windows. -/
theorem isMaxPool_window (positive : ∀ size ∈ kernel, 0 < size)
    (kernelLength : kernel.length = data.rank)
    (stridesLength : strides.length = data.rank) :
    IsMaxPool kernel strides data
      (ofFn (pooledShape data.shape kernel strides) fun index =>
      largest max
        ((window data.shape kernel strides (List.replicate data.rank 0)
            index).map
        data.get)) where
  shape := rfl
  greatest := by
    intro index valid
    have valid : Valid (pooledShape data.shape kernel strides) index := valid
    have indexLength : index.length = data.shape.length :=
      valid.length.trans (length_pooledShape kernelLength stridesLength)
    have covered := fun source =>
      @mem_window data.shape kernel strides index source kernelLength
        stridesLength indexLength
    obtain ⟨source, here⟩ :=
      exists_covered positive kernelLength stridesLength valid
    have member := (covered source).mpr here
    have nonempty :
        (window data.shape kernel strides (List.replicate data.rank 0)
          index).map data.get ≠ [] := List.ne_nil_of_mem (List.mem_map_of_mem member)
    have same : {value | value ∈ (window data.shape kernel strides
          (List.replicate data.rank 0) index).map data.get} =
        {value | ∃ source, Valid data.shape source ∧
          Covers kernel strides index source ∧
          data.get source = value} := by
      ext value
      rw [Set.mem_ofPred_eq, Set.mem_ofPred_eq, List.mem_map]
      apply exists_congr
      intro source
      rw [← and_assoc]
      exact and_congr_left' (covered source)
    rw [get_ofFn _ valid, ← same]
    exact isGreatest_largest nonempty

theorem IsMaxPool.unique {other : Tensor V}
    (pooled : IsMaxPool kernel strides data result)
    (otherPooled : IsMaxPool kernel strides data other) : result = other := by
  have sameShape := pooled.shape.trans otherPooled.shape.symm
  apply ext sameShape
  intro index valid
  exact (pooled.greatest index valid).unique
    (otherPooled.greatest index (sameShape ▸ valid))

/-- What is pooled transposed is pooled once it is transposed back. -/
theorem IsMaxPool.transpose (isOrder : Axes.IsOrder order data.rank)
    (kernelLength : kernel.length = data.rank)
    (stridesLength : strides.length = data.rank)
    (pooled : IsMaxPool (Axes.permute order kernel) (Axes.permute order strides)
      (data.transpose order) result) :
    IsMaxPool kernel strides data (result.transpose (Axes.inverse order)) := by
  have rank : (pooledShape data.shape kernel strides).length = data.rank :=
    length_pooledShape kernelLength stridesLength
  have isOrderPooled :
      Axes.IsOrder order (pooledShape data.shape kernel strides).length :=
    rank.symm ▸ isOrder
  have resultShape :
      result.shape =
        Axes.permute order (pooledShape data.shape kernel strides) := by
    rw [pooled.shape, shape_transpose,
      pooledShape_permute isOrder kernelLength stridesLength]
  have backShape : (result.transpose (Axes.inverse order)).shape =
      pooledShape data.shape kernel strides := by
    rw [shape_transpose, resultShape, Axes.inverse_permute isOrderPooled]
  refine ⟨backShape, fun index valid => ?_⟩
  have validBack :
      Valid (Axes.permute (Axes.inverse order) result.shape) index := valid
  rw [backShape] at valid
  have indexLength : index.length = data.rank := valid.length.trans rank
  have isOrderIndex : Axes.IsOrder order index.length :=
    indexLength.symm ▸ isOrder
  have validThere : Valid result.shape (Axes.permute order index) := by
    rw [resultShape]
    exact valid_permute isOrderPooled valid
  have greatest := pooled.greatest _ validThere
  rw [get_transpose validBack, Axes.inverse_inverse isOrder]
  convert greatest using 1
  ext value
  constructor
  · intro covered
    obtain ⟨source, validSource, covers, rfl⟩ := covered
    refine ⟨Axes.permute order source, valid_permute isOrder validSource, ?_,
      ?_⟩
    · exact covers_permute isOrderIndex (kernelLength.trans indexLength.symm)
        (stridesLength.trans indexLength.symm) covers
    · exact get_transpose_permute isOrder validSource
  · intro covered
    obtain ⟨source, validSource, covers, rfl⟩ := covered
    rw [get_transpose validSource]
    refine ⟨_, valid_inverse isOrder validSource, ?_, rfl⟩
    have isInverse :
        Axes.IsOrder (Axes.inverse order)
          (Axes.permute order index).length := by
      rw [Axes.length_permute isOrderIndex.inside, isOrder.length]
      exact isOrder.inverse
    have lengths (list : List Nat) (isRank : list.length = data.rank) :
        (Axes.permute order list).length =
          (Axes.permute order index).length := by
      rw [Axes.length_permute (isRank.symm ▸ isOrder.inside),
        Axes.length_permute isOrderIndex.inside]
    have back := covers_permute isInverse (lengths kernel kernelLength)
      (lengths strides stridesLength) covers
    rwa [Axes.inverse_permute (kernelLength.symm ▸ isOrder),
      Axes.inverse_permute (stridesLength.symm ▸ isOrder),
      Axes.inverse_permute isOrderIndex] at back

end MaxPool

/-- A window does not change an axis. -/
def KeepsAxis (dim size stride : Nat) : Prop :=
  dim = 0 ∨ size = 1 ∧ (stride = 1 ∨ dim = 1)

section KeepsAxis

variable {dim size stride : Nat}

theorem windowPlaces_one (dim : Nat) : windowPlaces dim 1 1 = dim := by
  rw [windowPlaces, Nat.div_one]
  split <;> omega

/-- An axis keeps its dimension only if the window does not change it. -/
theorem windowPlaces_eq_iff (sizePositive : 0 < size)
    (stridePositive : 0 < stride) :
    windowPlaces dim size stride = dim ↔ KeepsAxis dim size stride := by
  rw [windowPlaces, KeepsAxis]
  constructor
  · intro same
    split at same
    next fits =>
      have smaller : (dim - size) / stride ≤ dim - size := Nat.div_le_self _ _
      have isOne : size = 1 := by omega
      subst isOne
      right
      refine ⟨rfl, ?_⟩
      by_contra neither
      obtain ⟨notOne, several⟩ := not_or.mp neither
      have halved : (dim - 1) / stride < dim - 1 :=
        Nat.div_lt_self (by omega) (by omega)
      omega
    next => exact .inl same.symm
  · intro keeps
    rcases keeps with isZero | ⟨isOne, strideOne | dimOne⟩
    · rw [if_neg (by omega), isZero]
    · rw [isOne, strideOne, Nat.div_one]
      split <;> omega
    · rw [isOne, dimOne, if_pos (Nat.le_refl 1), Nat.sub_self, Nat.zero_div]

theorem KeepsAxis.covered_iff (keeps : KeepsAxis dim size stride)
    {i place : Nat} (below : i < dim) :
    i * stride ≤ place ∧ place < i * stride + size ↔ i * 1 ≤ place ∧
    place < i * 1 + 1 := by
  rcases keeps with isZero | ⟨isOne, strideOne | dimOne⟩
  · omega
  · rw [isOne, strideOne]
  · have isFirst : i = 0 := by omega
    rw [isOne, isFirst, Nat.zero_mul, Nat.zero_mul]

/-- A window over the later axes only is a window over all axes that does not
change the first. -/
theorem isMaxPool_keepsAxes {V : Type*} [Inhabited V] [LinearOrder V]
    {data result : Tensor V} {first second size' stride' : Nat}
    {dims kernel strides : List Nat}
    (isShape : data.shape = first :: second :: dims)
    (keepsFirst : KeepsAxis first size stride)
    (keepsSecond : KeepsAxis second size' stride') (sizePositive : 0 < size)
    (stridePositive : 0 < stride) (sizePositive' : 0 < size')
    (stridePositive' : 0 < stride')
    (pooled : IsMaxPool (1 :: 1 :: kernel) (1 :: 1 :: strides) data result) :
    IsMaxPool (size :: size' :: kernel) (stride :: stride' :: strides) data
      result := by
  have firstPlaces :=
    (windowPlaces_eq_iff sizePositive stridePositive).mpr keepsFirst
  have secondPlaces :=
    (windowPlaces_eq_iff sizePositive' stridePositive').mpr keepsSecond
  have shape : result.shape =
      first :: second :: pooledShape dims kernel strides := by
    have here := pooled.shape
    rw [isShape, pooledShape_cons, pooledShape_cons, windowPlaces_one,
      windowPlaces_one] at here
    exact here
  constructor
  · rw [shape, isShape, pooledShape_cons, pooledShape_cons, firstPlaces,
      secondPlaces]
  · intro index valid
    have greatest := pooled.greatest index valid
    rw [shape] at valid
    convert greatest using 1
    ext value
    apply exists_congr
    intro source
    apply and_congr_right
    intro validSource
    apply and_congr_left'
    rw [isShape] at validSource
    cases valid with
    | cons firstBelow rest =>
        cases rest with
        | cons secondBelow rest =>
            cases validSource with
            | cons _ restSource =>
                cases restSource with
                | cons _ _ =>
                    rw [covers_cons, covers_cons, covers_cons, covers_cons,
                      keepsFirst.covered_iff firstBelow,
                      keepsSecond.covered_iff secondBelow]

end KeepsAxis

end NGraphBridge.Tensor
