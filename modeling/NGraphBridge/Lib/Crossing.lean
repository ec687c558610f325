import NGraphBridge.Lib.RowMajor

/-!
# Operands in different orders

Two operands are meant to be combined in the orders `p` and `q`.  What comes out
if the left one is put back by `q` first and the right one is taken as it is?
-/

namespace NGraphBridge.Tensor

open Axes

/-- Only axes of dimension one are moved. -/
def Fixes (order shape : List Nat) : Prop :=
  ∀ axis ∈ List.range order.length, order.getD axis axis ≠ axis →
    shape.getD axis 1 = 1

instance (order shape : List Nat) : Decidable (Fixes order shape) :=
  inferInstanceAs (Decidable (∀ axis ∈ _, _))

section Fixes

variable {order shape index : List Nat}

theorem Fixes.at (fixes : Fixes order shape) {axis : Nat}
    (bound : axis < order.length) (shapeBound : axis < shape.length)
    (moved : order[axis] ≠ axis) : shape[axis] = 1 := by
  have here := fixes axis (List.mem_range.mpr bound)
  rw [getD_of_lt bound, getD_of_lt shapeBound] at here
  exact here moved

theorem Fixes.at_order (fixes : Fixes order shape)
    (isOrder : IsOrder order shape.length) {axis : Nat}
    (bound : axis < order.length) (orderBound : order[axis] < shape.length)
    (moved : order[axis] ≠ axis) : shape[order[axis]] = 1 := by
  have orderBound' : order[axis] < order.length :=
    isOrder.length.symm ▸ orderBound
  apply fixes.at orderBound' orderBound
  intro same
  exact moved ((isOrder.nodup.getElem_inj_iff).mp same)

theorem Fixes.permute_shape (fixes : Fixes order shape)
    (isOrder : IsOrder order shape.length) :
    permute order shape = shape := by
  have lengths : (permute order shape).length = shape.length := by
    rw [length_permute isOrder.inside, isOrder.length]
  apply List.ext_getElem lengths
  intro axis bound shapeBound
  have orderBound : axis < order.length := isOrder.length.symm ▸ shapeBound
  have below := isOrder.inside _ (List.getElem_mem orderBound)
  rw [getElem_permute isOrder.inside orderBound _ below]
  by_cases moved : order[axis] = axis
  · simp only [moved]
  · rw [fixes.at_order isOrder orderBound below moved,
      fixes.at orderBound shapeBound moved]

theorem Fixes.permute_index (fixes : Fixes order shape)
    (isOrder : IsOrder order shape.length) (valid : Valid shape index) :
    permute order index = index := by
  have isOrderIndex : IsOrder order index.length := valid.length.symm ▸ isOrder
  have lengths : (permute order index).length = index.length := by
    rw [length_permute isOrderIndex.inside, isOrderIndex.length]
  -- an entry on an axis of dimension one is zero
  have isZero :
      ∀ axis (bound : axis < index.length) (shapeBound : axis < shape.length),
      shape[axis] = 1 → index[axis] = 0 := by
    intro axis bound shapeBound isOne
    have below := List.Forall₂.get valid bound shapeBound
    simp only [List.get_eq_getElem, isOne] at below
    omega
  apply List.ext_getElem lengths
  intro axis bound indexBound
  have shapeBound : axis < shape.length := valid.length ▸ indexBound
  have orderBound : axis < order.length := isOrder.length.symm ▸ shapeBound
  have below := isOrder.inside _ (List.getElem_mem orderBound)
  have indexBelow : order[axis] < index.length := valid.length.symm ▸ below
  rw [getElem_permute isOrderIndex.inside orderBound _ indexBelow]
  by_cases moved : order[axis] = axis
  · simp only [moved]
  · rw [isZero _ indexBelow below
      (fixes.at_order isOrder orderBound below moved),
      isZero _ indexBound shapeBound (fixes.at orderBound shapeBound moved)]

theorem transpose_of_fixes {V : Type*} [Inhabited V] {tensor : Tensor V}
    (isOrder : IsOrder order tensor.rank) (fixes : Fixes order tensor.shape) :
    tensor.transpose order = tensor := by
  refine (eq_transpose isOrder (fixes.permute_shape isOrder).symm
      fun index valid => ?_).symm
  rw [fixes.permute_index isOrder valid]

theorem inverse_transpose_of_fixes {V : Type*} [Inhabited V] {tensor : Tensor V}
    (isOrder : IsOrder order tensor.rank) (fixes : Fixes order tensor.shape) :
    tensor.transpose (inverse order) = tensor := by
  have there := inverse_transpose isOrder
  rwa [transpose_of_fixes isOrder fixes] at there

end Fixes

section Wide

variable {operand result index : List Nat}

theorem valid_of_stretched
    (fits : ∀ pair ∈ operand.zip result, pair.1 = pair.2 ∨ pair.1 = 1)
    (lengths : operand.length = result.length) (positive : 0 ∉ result)
    (valid : Valid operand index) : Valid result index := by
  induction valid generalizing result with
  | nil =>
      obtain rfl := List.length_eq_zero_iff.mp lengths.symm
      exact .nil
  | @cons i dim index operand below _ ih =>
      cases result with
      | nil => simp at lengths
      | cons first result =>
          have here := fits (dim, first) (by simp)
          have notZero : first ≠ 0 := fun isZero => positive (by simp [isZero])
          refine .cons ?_ (ih (fun pair member => fits pair (by simp [member]))
            (by simpa using lengths)
            (fun member => positive (by simp [member])))
          cases here with
          | inl same =>
              have same : dim = first := same
              omega
          | inr isOne =>
              have isOne : dim = 1 := isOne
              omega

theorem positive_of_stretched
    (fits : ∀ pair ∈ operand.zip result, pair.1 = pair.2 ∨ pair.1 = 1)
    (lengths : operand.length = result.length) (positive : 0 ∉ result) :
    0 ∉ operand := by
  intro member
  obtain ⟨i, bound, isZero⟩ := List.getElem_of_mem member
  have resultBound : i < result.length := lengths ▸ bound
  have zipBound : i < (operand.zip result).length := by
    rw [List.length_zip]
    omega
  have here := fits (operand.zip result)[i] (List.getElem_mem zipBound)
  rw [List.getElem_zip, isZero] at here
  cases here with
  | inl same =>
      have same : 0 = result[i] := same
      exact positive (same ▸ List.getElem_mem resultBound)
  | inr isOne => exact absurd isOne (by simp)

/-- An entry of a unit that is read in a moved order. -/
theorem clip_unit_ne {order : List Nat} (isOrder : IsOrder order operand.length)
    {axis : Nat} (bound : axis < order.length) (moved : order[axis] ≠ axis) :
    clip operand (permute order (unit operand.length axis)) ≠
      unit operand.length axis := by
  intro same
  have isOrderUnit : IsOrder order (unit operand.length axis).length := by
    rwa [unit, List.length_set, List.length_replicate]
  have axisBound : axis < operand.length := isOrder.length ▸ bound
  have orderBound : order[axis] < (unit operand.length axis).length :=
    isOrderUnit.inside _ (List.getElem_mem bound)
  have entry := congrArg (fun list => list[axis]?) same
  have permuted : (permute order (unit operand.length axis))[axis]? =
      some 0 := by
    rw [getElem?_permute isOrderUnit.inside, List.getElem?_eq_getElem bound,
      Option.bind_some, List.getElem?_eq_getElem orderBound]
    simp [unit, Ne.symm moved]
  have unitEntry : (unit operand.length axis)[axis]? = some 1 := by
    rw [unit, List.getElem?_set_self (by rwa [List.length_replicate])]
  simp only [clip, List.getElem?_zipWith, permuted, unitEntry,
    List.getElem?_eq_getElem axisBound] at entry
  split at entry <;> simp at entry

end Wide

section Crossing

variable {p q a b shape : List Nat} {n : Nat}

theorem rank_both {V W : Type*} [Inhabited V] [Inhabited W] {l : Tensor V}
    {r : Tensor W} (isP : IsOrder p l.rank) (isQ : IsOrder q r.rank)
    (ranks : l.rank = r.rank) :
    (l.transpose p).rank = (r.transpose q).rank := by
  rw [rank_transpose isP, rank_transpose isQ, ranks]

theorem rank_crossed {V W : Type*} [Inhabited V] [Inhabited W] {l : Tensor V}
    {r : Tensor W} (isP : IsOrder p l.rank) (isQ : IsOrder q l.rank)
    (ranks : l.rank = r.rank) :
    ((l.transpose (inverse q)).transpose p).rank = r.rank := by
  have isP' : IsOrder p (l.transpose (inverse q)).rank := by
    rwa [rank_transpose isQ.inverse]
  rw [rank_transpose isP', rank_transpose isQ.inverse, ranks]

/-- Results that agree have one shape. -/
theorem crossed_shape (isP : IsOrder p n) (isQ : IsOrder q n)
    (aRank : a.length = n) (bRank : b.length = n)
    (fits : stretchAll (permute p a) (permute q b) = some shape)
    {f : Nat → Nat → Nat}
    (same : binary f (((places a).transpose (inverse q)).transpose p)
      (places b) =
      binary f ((places a).transpose p) ((places b).transpose q)) :
    stretchAll (permute p (permute (inverse q) a)) b = some shape := by
  have isPA : IsOrder p (places a).rank :=
    (aRank.symm ▸ isP : IsOrder p a.length)
  have isQA : IsOrder q (places a).rank :=
    (aRank.symm ▸ isQ : IsOrder q a.length)
  have isQB : IsOrder q (places b).rank :=
    (bRank.symm ▸ isQ : IsOrder q b.length)
  have ranks : (places a).rank = (places b).rank := aRank.trans bRank.symm
  have shapes := congrArg (Option.map Tensor.shape) same
  rw [binary_eq (rank_crossed isPA isQA ranks),
    binary_eq (rank_both isPA isQB ranks), Option.map_map,
    Option.map_map] at shapes
  have shapes : (stretchAll (permute p (permute (inverse q) a)) b).map id =
      (stretchAll (permute p a) (permute q b)).map id := shapes
  rwa [Option.map_id, id_eq, id_eq, fits] at shapes

/-- Where the wide axes of the operands are moved by `q`, the elements show
it. -/
theorem fixes_of_crossed (isP : IsOrder p n) (isQ : IsOrder q n)
    (aRank : a.length = n) (bRank : b.length = n)
    (fits : stretchAll (permute p a) (permute q b) = some shape)
    (positive : 0 ∉ shape) (same : ∀ f : Nat → Nat → Nat,
      binary f (((places a).transpose (inverse q)).transpose p) (places b) =
        binary f ((places a).transpose p) ((places b).transpose q)) :
    Fixes q a ∧ Fixes q b := by
  have isPShape : IsOrder p a.length := aRank.symm ▸ isP
  have isQShape : IsOrder q b.length := bRank.symm ▸ isQ
  have isPA : IsOrder p (places a).rank := isPShape
  have isQA : IsOrder q (places a).rank :=
    (aRank.symm ▸ isQ : IsOrder q a.length)
  have isQB : IsOrder q (places b).rank := isQShape
  have isP' : IsOrder p ((places a).transpose (inverse q)).rank := by
    rwa [rank_transpose isQA.inverse]
  have ranks : (places a).rank = (places b).rank := aRank.trans bRank.symm
  obtain ⟨leftLength, rightLength⟩ := stretchAll_length fits
  -- both results have the shape, and an element at every index of it
  have crossed := crossed_shape isP isQ aRank bRank fits (same fun x _ => x)
  have elements : ∀ (f : Nat → Nat → Nat) index, Valid shape index →
      f ((((places a).transpose (inverse q)).transpose p).get
          (clip (permute p (permute (inverse q) a)) index))
          ((places b).get (clip b index)) =
        f (((places a).transpose p).get (clip (permute p a) index))
          (((places b).transpose q).get (clip (permute q b) index)) := by
    intro f index valid
    have results := same f
    rw [binary_eq (rank_crossed isPA isQA ranks),
      binary_eq (rank_both isPA isQB ranks)] at results
    change (stretchAll (permute p (permute (inverse q) a)) b).map _ =
      (stretchAll (permute p a) (permute q b)).map _ at results
    rw [crossed, fits, Option.map_some, Option.map_some,
      Option.some.injEq] at results
    have here := congrArg (fun tensor => tensor.get index) results
    rwa [get_ofFn _ valid, get_ofFn _ valid] at here
  obtain ⟨crossedLength, bLength⟩ := stretchAll_length crossed
  have qInverse : inverse (inverse q) = q := inverse_inverse isQ
  have shapeInverse : permute q (permute (inverse q) a) = a :=
    permute_inverse (aRank.symm ▸ isQ)
  have inverseLength : (permute (inverse q) a).length = n := by
    rw [length_permute (aRank.symm ▸ isQ.inverse.inside), length_inverse,
      isQ.length]
  have aPositive : 0 ∉ a := by
    have permuted :=
      positive_of_stretched (stretchAll_left fits) leftLength positive
    exact fun member => permuted ((permute_perm isPA).mem_iff.mpr member)
  have bPositive : 0 ∉ b := by
    have permuted :=
      positive_of_stretched (stretchAll_right fits) rightLength positive
    exact fun member => permuted ((permute_perm isQB).mem_iff.mpr member)
  refine ⟨fun axis axisIn moved => ?_, fun axis axisIn moved => ?_⟩
  · by_contra wide
    have bound := List.mem_range.mp axisIn
    rw [getD_of_lt bound] at moved
    have validUnit := valid_unit aPositive wide
    have valid := valid_of_stretched (stretchAll_left fits) leftLength positive
      (valid_permute isPA validUnit)
    have here := elements (fun x _ => x) _ valid
    have unitLength : a.length = (unit a.length axis).length := by simp [unit]
    have clipped :
        clip (permute p (permute (inverse q) a))
          (permute p (unit a.length axis)) =
        permute p (clip (permute (inverse q) a) (unit a.length axis)) :=
      clip_permute (inverseLength.symm ▸ isP)
        (inverseLength.trans (aRank.symm.trans unitLength))
    have validCrossed :=
      valid_clip (stretchAll_left crossed) crossedLength valid
    rw [clipped] at validCrossed here
    have validBefore : Valid (permute (inverse q) a)
        (clip (permute (inverse q) a) (unit a.length axis)) := by
      have back := valid_inverse (inverseLength.symm ▸ isP) validCrossed
      have clipLength :
          (clip (permute (inverse q) a) (unit a.length axis)).length = n := by
        rw [clip, List.length_zipWith, inverseLength, ← unitLength, aRank,
          Nat.min_self]
      rwa [inverse_permute (clipLength.symm ▸ isP)] at back
    rw [get_transpose_permute isP' validBefore,
      get_transpose validBefore, qInverse,
      ← clip_permute (inverseLength.symm ▸ isQ)
        (inverseLength.trans (aRank.symm.trans unitLength)),
      shapeInverse, clip_permute isPShape unitLength, clip_valid validUnit,
      get_transpose_permute isPA validUnit] at here
    have validQ : Valid a (clip a (permute q (unit a.length axis))) := by
      have moved' := valid_permute (inverseLength.symm ▸ isQ) validBefore
      rwa [shapeInverse, ← clip_permute (inverseLength.symm ▸ isQ)
        (inverseLength.trans (aRank.symm.trans unitLength)),
        shapeInverse] at moved'
    rw [get_places validQ, get_places validUnit] at here
    exact clip_unit_ne isQA bound moved (linear_injective validQ validUnit here)
  · by_contra wide
    have bound := List.mem_range.mp axisIn
    rw [getD_of_lt bound] at moved
    have validUnit := valid_unit bPositive wide
    have valid := valid_of_stretched (stretchAll_right fits)
      rightLength positive
      (valid_permute isQB validUnit)
    have here := elements (fun _ y => y) _ valid
    have unitLength : b.length = (unit b.length axis).length := by simp [unit]
    have validB := valid_clip (stretchAll_right crossed) bLength valid
    rw [clip_permute isQShape unitLength, clip_valid validUnit,
      get_transpose_permute isQB validUnit, get_places validUnit,
      get_places validB] at here
    exact clip_unit_ne isQB bound moved (linear_injective validB validUnit here)

/-- The operands come out in their orders for every op and all elements, if `q`
moves no wide axis of them, or if there are no elements and the shape is
right. -/
theorem crossed_iff (isP : IsOrder p n) (isQ : IsOrder q n)
    (aRank : a.length = n) (bRank : b.length = n)
    (fits : stretchAll (permute p a) (permute q b) = some shape) :
    (∀ (V : Type) [Inhabited V] (f : V → V → V) (l r : Tensor V), l.shape = a →
      r.shape = b →
      binary f ((l.transpose (inverse q)).transpose p) r =
        binary f (l.transpose p) (r.transpose q)) ↔
    (Fixes q a ∧ Fixes q b) ∨
      (0 ∈ shape ∧ stretchAll (permute p (permute (inverse q) a)) b =
        some shape) := by
  constructor
  · intro same
    by_cases empty : 0 ∈ shape
    · exact .inr ⟨empty, crossed_shape isP isQ aRank bRank fits
        (same Nat (fun x _ => x) (places a) (places b) rfl rfl)⟩
    · exact .inl (fixes_of_crossed isP isQ aRank bRank fits empty
        fun f => same Nat f (places a) (places b) rfl rfl)
  · intro condition V _ f l r atL atR
    subst atL
    subst atR
    have isPL : IsOrder p l.rank :=
      (aRank.symm ▸ isP : IsOrder p l.shape.length)
    have isQL : IsOrder q l.rank :=
      (aRank.symm ▸ isQ : IsOrder q l.shape.length)
    have isQR : IsOrder q r.rank :=
      (bRank.symm ▸ isQ : IsOrder q r.shape.length)
    cases condition with
    | inl fixes =>
        rw [inverse_transpose_of_fixes isQL fixes.1,
          transpose_of_fixes isQR fixes.2]
    | inr empty =>
        have ranks : l.rank = r.rank := aRank.trans bRank.symm
        rw [binary_eq (rank_crossed isPL isQL ranks),
          binary_eq (rank_both isPL isQR ranks)]
        change (stretchAll (permute p (permute (inverse q) l.shape))
            r.shape).map _ =
          (stretchAll (permute p l.shape) (permute q r.shape)).map _
        rw [empty.2, fits, Option.map_some, Option.map_some]
        exact congrArg some (eq_of_empty rfl empty.1)

end Crossing

section Lower

variable {V : Type*} [Inhabited V]

omit [Inhabited V] in
/-- The elements as they are, under permuted dimensions that begin with ones. -/
def layOut (order : List Nat) (tensor : Tensor V) : Tensor V :=
  (tensor.reshape (permute order (extend order.length tensor.shape))).getD
    tensor

omit [Inhabited V] in
theorem layOut_eq {order : List Nat} {tensor : Tensor V}
    (isOrder : IsOrder order (tensor.expand order.length).rank) :
    layOut order tensor = (tensor.expand order.length).relabel order
      isOrder := by
  have full := ((tensor.expand order.length).relabel order isOrder).full
  have full : tensor.data.length =
      (permute order (extend order.length tensor.shape)).prod := full
  rw [layOut, reshape, dif_pos full, Option.getD_some]
  rfl

omit [Inhabited V] in
theorem layOut_inverse {order : List Nat} {tensor : Tensor V}
    (isOrder : IsOrder (inverse order) (tensor.expand order.length).rank) :
    layOut (inverse order) tensor =
      (tensor.expand order.length).relabel (inverse order) isOrder := by
  have same := @layOut_eq V (inverse order) tensor
    (by rw [length_inverse]; exact isOrder)
  simp only [length_inverse] at same
  exact same

omit [Inhabited V] in
theorem rank_expand {rank : Nat} {tensor : Tensor V}
    (lower : tensor.rank ≤ rank) :
    (tensor.expand rank).rank = rank :=
  extend_length lower

theorem expand_places (rank : Nat) (shape : List Nat) :
    (places shape).expand rank = places (extend rank shape) := by
  refine ext rfl fun index valid => ?_
  rw [get, get]
  dsimp only [expand, places]
  rw [extend_prod]

theorem binary_lower {f : V → V → V} {left right : Tensor V}
    (lower : left.rank ≤ right.rank) :
    binary f left right = binary f (left.expand right.rank) right := by
  rw [binary_expand, expand_self lower]

variable {q a b shape : List Nat} {n : Nat}

/-- Laid out, an operand of lower rank comes out right if the order keeps its
wide axes, or if there are no elements. -/
theorem lower_iff (isQ : IsOrder q n) (lower : a.length ≤ n)
    (bRank : b.length = n)
    (fits : stretchAll (extend n a) (permute q b) = some shape) :
    (∀ (V : Type) [Inhabited V] (f : V → V → V) (l r : Tensor V), l.shape = a →
      r.shape = b →
      binary f ((layOut (inverse q) l).transpose q) (r.transpose q) =
        binary f l (r.transpose q)) ↔
    0 ∈ shape ∨ Keeps (inverse q) (extend n a) := by
  have extended : (extend n a).length = n := extend_length lower
  have inverseLength : (inverse q).length = n :=
    (length_inverse q).trans isQ.length
  obtain ⟨leftLength, rightLength⟩ := stretchAll_length fits
  -- in both cases the operands have one rank, and the shapes agree
  have laid : ∀ {V : Type} [Inhabited V] (l : Tensor V), l.shape = a →
      ∃ isOrder : IsOrder (inverse q) (l.expand n).rank,
        layOut (inverse q) l = (l.expand n).relabel (inverse q) isOrder ∧
        ((layOut (inverse q) l).transpose q).shape = extend n a := by
    intro V _ l atL
    subst atL
    have isOrder : IsOrder (inverse q) (l.expand n).rank :=
      (extended.symm ▸ isQ.inverse :
          IsOrder (inverse q) (extend n l.shape).length)
    have same := @layOut_eq V (inverse q) l (inverseLength.symm ▸ isOrder)
    simp only [inverseLength] at same
    refine ⟨isOrder, same, ?_⟩
    rw [same, shape_transpose]
    exact permute_inverse (extended.symm ▸ isQ)
  have rightRank : ∀ {V : Type} [Inhabited V] (r : Tensor V), r.shape = b →
      (r.transpose q).rank = n := by
    intro V _ r atR
    subst atR
    exact (rank_transpose (bRank.symm ▸ isQ : IsOrder q r.shape.length)).trans
      bRank
  constructor
  · intro same
    by_cases empty : 0 ∈ shape
    · exact .inl empty
    · refine .inr ?_
      obtain ⟨isOrder, isLaid, laidShape⟩ := laid (places a) rfl
      have results := same Nat (fun x _ => x) (places a) (places b) rfl rfl
      have ranks := rightRank (places b) rfl
      have lower' : (places a).rank ≤ ((places b).transpose q).rank :=
        ranks.symm ▸ lower
      have laidRank : ((layOut (inverse q) (places a)).transpose q).rank =
          ((places b).transpose q).rank := by
        rw [ranks, rank, laidShape, extended]
      have wideRank :
          ((places a).expand n).rank = ((places b).transpose q).rank := by
        rw [ranks]
        exact extended
      have positive := positive_of_stretched (stretchAll_left fits)
        leftLength empty
      rw [binary_lower lower', ranks, binary_eq laidRank, binary_eq wideRank,
        laidShape] at results
      change (stretchAll (extend n a) (permute q b)).map _ =
        (stretchAll (extend n a) (permute q b)).map _ at results
      rw [fits, Option.map_some, Option.map_some, Option.some.injEq] at results
      have back : (layOut (inverse q) (places a)).transpose q =
          places (extend n a) := by
        refine ext laidShape fun index valid => ?_
        rw [laidShape] at valid
        have inResult :=
          valid_of_stretched (stretchAll_left fits) leftLength empty valid
        have here := congrArg (fun tensor => tensor.get index) results
        rw [get_ofFn _ inResult, get_ofFn _ inResult, expand_places] at here
        change Tensor.get _ (clip (extend n a) index) =
          Tensor.get _ (clip (extend n a) index) at here
        rwa [clip_valid valid] at here
      have isOrderPlaces : IsOrder (inverse q) (places (extend n a)).rank :=
        (extended.symm ▸ isQ.inverse : IsOrder (inverse q) (extend n a).length)
      refine keeps_of_relabel isOrderPlaces positive ?_
      have isQLaid : IsOrder q (layOut (inverse q) (places a)).rank := by
        rw [isLaid, rank, relabel, length_permute isOrder.inside, inverseLength]
        exact isQ
      have forth := inverse_transpose isQLaid
      rw [back, isLaid] at forth
      rw [forth]
      simp only [expand_places]
  · intro condition V _ f l r atL atR
    obtain ⟨isOrder, isLaid, laidShape⟩ := laid l atL
    have ranks := rightRank r atR
    have lower' : l.rank ≤ (r.transpose q).rank := by
      rw [ranks, rank, atL]
      exact lower
    have wideShape : (l.expand n).shape = extend n a := congrArg (extend n) atL
    rw [binary_lower lower', ranks]
    cases condition with
    | inl empty =>
        have laidRank : ((layOut (inverse q) l).transpose q).rank =
            (r.transpose q).rank := by
          rw [ranks, rank, laidShape, extended]
        have wideRank : (l.expand n).rank = (r.transpose q).rank := by
          rw [ranks, rank, wideShape, extended]
        subst atR
        rw [binary_eq laidRank, binary_eq wideRank, laidShape, wideShape,
          shape_transpose, fits, Option.map_some, Option.map_some]
        exact congrArg some (eq_of_empty rfl empty)
    | inr keeps =>
        have isQWide : IsOrder q (l.expand n).rank := by
          rw [rank, wideShape, extended]
          exact isQ
        rw [isLaid, relabel_eq_transpose isOrder (wideShape.symm ▸ keeps),
          transpose_inverse isQWide]

theorem lower_iff_right (isQ : IsOrder q n) (lower : b.length ≤ n)
    (aRank : a.length = n)
    (fits : stretchAll (permute q a) (extend n b) = some shape) :
    (∀ (V : Type) [Inhabited V] (f : V → V → V) (l r : Tensor V), l.shape = a →
      r.shape = b →
      binary f (l.transpose q) ((layOut (inverse q) r).transpose q) =
        binary f (l.transpose q) r) ↔
    0 ∈ shape ∨ Keeps (inverse q) (extend n b) := by
  rw [← lower_iff isQ lower aRank (stretchAll_comm _ _ ▸ fits)]
  constructor
  · intro same V _ f l r atL atR
    have here := same V (fun y x => f x y) r l atR atL
    rwa [binary_swap, binary_swap (fun y x => f x y) _ l] at here
  · intro same V _ f l r atL atR
    have here := same V (fun y x => f x y) r l atR atL
    rwa [binary_swap, binary_swap (fun y x => f x y) r] at here

theorem keeps_range (n : Nat) (shape : List Nat) :
    Keeps (inverse (List.range n)) shape := by
  rw [inverse_range]
  exact List.pairwise_lt_range.filter _

end Lower

end NGraphBridge.Tensor
