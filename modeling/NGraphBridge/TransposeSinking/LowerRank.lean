import NGraphBridge.TransposeSinking.Binary

/-!
# Operands of different rank

An operand of lower rank is broadcast. If the other one is out of order then the
elements of the lower one are given permuted dimensions, and are not moved.
-/

namespace NGraphBridge.TransposeSinking

open NGraph (Output Shape)
open Tensor Axes

/-- The right argument is of higher rank than the order that it would be
given. -/
theorem Operands.convert_again_error {state : State}
    {binary left_t right_t : Nat} {type_name : String} {left right : Output}
    {p q : List Nat}
    (operands : Operands state binary type_name left right left_t right_t p q)
    {node : Node} (isOrder : IsOrder p p.length)
    (above : p.length < (state.heap.get_shape right).length) :
    convertBinaryToDefaultOrder binary 1
      left (converted binary 0 node right_t state) =
      .error
        (.runtime_error
          "case not supported when converting binary to default order") := by
  have binaryBelow := operands.binaryBelow
  have notNode : left ≠ ⟨binary, 0⟩ :=
    fun same => operands.leftOther (same ▸ rfl)
  have isRight :
      (converted binary 0 node right_t state).heap.input_value binary 1 =
        right := by
    refine input_value_of
      (congrArg Node.input_values (converted_node_binary binaryBelow)) ?_
    rw [operands.inputs]
    rfl
  refine convertBinaryToDefaultOrder_error isRight
    ((converted_reorders_ne notNode).trans operands.leftEntry) ?_ isOrder ?_
  · rw [converted_node operands.leftEntryBelow operands.leftEntryOther]
    exact operands.leftOrder
  · rwa [converted_get_shape binaryBelow operands.rightBelow]

section LowerRank

variable {state : State} {binary left_t right_t : Nat} {type_name : String}
  {left right : Output} {p q a b shape : List Nat}
  (operands : Operands state binary type_name left right left_t right_t p q)
  (leftRank : (state.heap.get_shape left).length = a.length)
  (rightRank : (state.heap.get_shape right).length = b.length)

include operands leftRank rightRank

theorem Operands.defaults : getDefaultOrder (state.heap.get_shape left) =
    List.range a.length ∧
    getDefaultOrder (state.heap.get_shape right) = List.range b.length ∧
    IsOrder p a.length ∧ IsOrder q b.length :=
  ⟨getDefaultOrder_of_rank leftRank, getDefaultOrder_of_rank rightRank,
    leftRank ▸ operands.isLeft, rightRank ▸ operands.isRight⟩

omit operands leftRank rightRank in
theorem rank_broadcast (isP : IsOrder p a.length) (isQ : IsOrder q b.length)
    (fits : broadcastShape (permute p a) (permute q b) = some shape) :
    shape.length = max a.length b.length := by
  have pLength : (permute p a).length = a.length := by
    rw [length_permute isP.inside, isP.length]
  have qLength : (permute q b).length = b.length := by
    rw [length_permute isQ.inside, isQ.length]
  obtain ⟨leftLength, _⟩ := stretchAll_length fits
  rw [← leftLength, extend, List.length_append, List.length_replicate,
    pLength, qLength]
  omega

/-- Both operands are in default order: one of the two orders is passed on. -/
theorem sinksCorrectly_defaults (differ : a.length ≠ b.length)
    (pDefault : p = List.range a.length) (qDefault : q = List.range b.length)
    (fits : broadcastShape (permute p a) (permute q b) = some shape) :
    SinksCorrectly state binary type_name left right p q a b ↔
      shape.length = if state.heap.get_shape ⟨binary, 0⟩ =
        state.heap.get_shape left then
        a.length else b.length := by
  obtain ⟨leftDefault, rightDefault, isP, isQ⟩ :=
    operands.defaults leftRank rightRank
  have differOrders : p ≠ q :=
    fun same => differ (isP.length.symm.trans (same ▸ isQ.length))
  have success := sinkBinary_matching operands
    (.inr ⟨pDefault.trans leftDefault.symm, qDefault.trans rightDefault.symm⟩)
  have notDeleted :
      binary ∉ (state.transposes_to_delete.insert left_t).insert right_t := by
    rw [List.mem_insert_iff, List.mem_insert_iff]
    rintro (isRight | isLeft | isDeleted)
    · exact operands.rightEntryOther isRight.symm
    · exact operands.leftEntryOther isLeft.symm
    · exact operands.notDeleted isDeleted
  have pRange : permute p a = a := by rw [pDefault, range_permute]
  have qRange : permute q b = b := by rw [qDefault, range_permute]
  rw [pRange, qRange] at fits
  generalize isRecorded :
      (if state.heap.get_shape ⟨binary, 0⟩ = state.heap.get_shape left then
    left_t else right_t) = t at success
  have entry : (state.heap.node t).op = .Transpose (List.range
      (if state.heap.get_shape ⟨binary, 0⟩ = state.heap.get_shape left then
        a.length else b.length)) := by
    rw [← isRecorded]
    split
    · rw [← pDefault]
      exact operands.leftOrder
    · rw [← qDefault]
      exact operands.rightOrder
  generalize (if state.heap.get_shape ⟨binary, 0⟩ =
      state.heap.get_shape left then
    a.length else b.length) = count at entry
  rw [sinksCorrectly_iff operands (operands.different differOrders) success
    (Function.update_self _ _ _) entry operands.op operands.inputs notDeleted
    (fun _ _ l => l) (fun _ _ r => r)
    (fun _ _ _ _ _ _ _ _ _ knows => ⟨.known knows.left, .known knows.right⟩)]
  have plain : ∀ {V : Type} [Inhabited V] (l r : Tensor V), l.shape = a →
      r.shape = b →
      l.transpose p = l ∧ r.transpose q = r := by
    intro V _ l r atL atR
    subst atL
    subst atR
    rw [pDefault, qDefault]
    exact ⟨transpose_range l, transpose_range r⟩
  constructor
  · intro results
    have isExpected := shape_binary (fun x _ => x) (places a) (places b)
    have fitsPlaces : stretchAll (extend (places b).rank (places a).shape)
        (extend (places a).rank (places b).shape) = some shape := fits
    rw [fitsPlaces, Option.map_eq_some_iff] at isExpected
    obtain ⟨expected, isExpected, expectedShape⟩ := isExpected
    obtain ⟨plainA, plainB⟩ := plain (places a) (places b) rfl rfl
    obtain ⟨value, computed, isOrder, _⟩ :=
      results Nat _ (places a) (places b) rfl rfl expected
        (by rw [plainA, plainB, isExpected])
    obtain rfl := Option.some.inj (isExpected.symm.trans computed)
    rw [← expectedShape]
    exact isOrder.length.symm.trans List.length_range
  · intro same V _ f l r atL atR expected isExpected
    obtain ⟨plainL, plainR⟩ := plain l r atL atR
    rw [plainL, plainR] at isExpected
    have expectedShape := shape_binary f l r
    rw [isExpected, atL, atR, rank, rank, atL, atR,
      Option.map_some] at expectedShape
    have isShape : expected.shape = shape :=
      Option.some.inj (expectedShape.trans fits)
    have isRank : expected.rank = count :=
      (congrArg List.length isShape).trans same
    refine ⟨expected, isExpected, isRank ▸ isOrder_range _, ?_⟩
    rw [← isRank, transpose_range]

theorem sinksCorrectly_lower_defaults (lower : a.length < b.length)
    (pDefault : p = List.range a.length) (qDefault : q = List.range b.length)
    (fits : broadcastShape (permute p a) (permute q b) = some shape)
    (outShape : state.heap.get_shape ⟨binary, 0⟩ = shape) :
    SinksCorrectly state binary type_name left right p q a b := by
  obtain ⟨_, _, isP, isQ⟩ := operands.defaults leftRank rightRank
  have outRank := rank_broadcast isP isQ fits
  have notLeft :
      state.heap.get_shape ⟨binary, 0⟩ ≠ state.heap.get_shape left := by
    intro same
    have lengths := congrArg List.length same
    rw [outShape, outRank, leftRank] at lengths
    omega
  rw [sinksCorrectly_defaults operands leftRank rightRank (Nat.ne_of_lt lower)
    pDefault qDefault fits, if_neg notLeft]
  omega

/-- The operand of lower rank on the left is out of order. -/
theorem sinkBinary_lower_left_error (lower : a.length < b.length)
    (pOther : p ≠ List.range a.length) :
    sinkBinary binary state =
      .error
        (.runtime_error
          "case not supported when converting binary to default order") := by
  obtain ⟨leftDefault, rightDefault, isP, isQ⟩ :=
    operands.defaults leftRank rightRank
  have differ : p ≠ q := fun same =>
    Nat.ne_of_lt lower (isP.length.symm.trans (same ▸ isQ.length))
  rw [sinkBinary_differing operands differ
    (fun both => pOther (both.1.trans leftDefault)), leftDefault, rightDefault]
  simp only [ne_eq, pOther, not_false_eq_true, if_true]
  by_cases qDefault : q = List.range b.length
  · rw [if_neg (not_not_intro qDefault)]
    exact convertBinaryToDefaultOrder_error operands.rightInput
      operands.leftEntry
      operands.leftOrder (isP.length.symm ▸ isP)
      (by rw [isP.length, rightRank]; exact lower)
  · rw [if_pos qDefault, operands.convert_left (isQ.length.symm ▸ isQ)
      (by rw [leftRank, isQ.length]; exact Nat.le_of_lt lower)]
    exact operands.convert_again_error (isP.length.symm ▸ isP)
      (by rw [isP.length, rightRank]; exact lower)

theorem sinkBinary_lower_right_error (lower : b.length < a.length)
    (qOther : q ≠ List.range b.length) :
    sinkBinary binary state =
      .error
        (.runtime_error
          "case not supported when converting binary to default order") := by
  obtain ⟨leftDefault, rightDefault, isP, isQ⟩ :=
    operands.defaults leftRank rightRank
  have differ : p ≠ q := fun same =>
    Nat.ne_of_gt lower (isP.length.symm.trans (same ▸ isQ.length))
  have thrown : convertBinaryToDefaultOrder binary 0 right state =
      .error
        (.runtime_error
          "case not supported when converting binary to default order") :=
    convertBinaryToDefaultOrder_error operands.leftInput operands.rightEntry
      operands.rightOrder
      (isQ.length.symm ▸ isQ) (by rw [isQ.length, leftRank]; exact lower)
  rw [sinkBinary_differing operands differ
    (fun both => qOther (both.2.trans rightDefault)), leftDefault, rightDefault,
    if_pos qOther, thrown]
  rfl

/-- The operand of lower rank on the left is laid out in the order of the other
one. -/
theorem sinksCorrectly_lower_left (lower : a.length < b.length)
    (pDefault : p = List.range a.length) (qOther : q ≠ List.range b.length)
    (leftShape : state.heap.get_shape left = a)
    (fits : broadcastShape (permute p a) (permute q b) = some shape) :
    SinksCorrectly state binary type_name left right p q a b ↔
      0 ∈ shape ∨ Keeps (inverse q) (extend b.length a) := by
  obtain ⟨leftDefault, rightDefault, isP, isQ⟩ :=
    operands.defaults leftRank rightRank
  have differ : p ≠ q := fun same =>
    Nat.ne_of_lt lower (isP.length.symm.trans (same ▸ isQ.length))
  have success := sinkBinary_differing operands differ
    (fun both => qOther (both.2.trans rightDefault))
  rw [leftDefault, rightDefault, if_pos qOther,
    operands.convert_left (isQ.length.symm ▸ isQ)
    (by rw [leftRank, isQ.length]; exact Nat.le_of_lt lower)] at success
  simp only [Except.bind, pDefault, ne_eq, not_true_eq_false,
    if_false] at success
  have pRange : permute p a = a := by rw [pDefault, range_permute]
  have qLength : (permute q b).length = b.length := by
    rw [length_permute isQ.inside, isQ.length]
  have whole : extend a.length (permute q b) = permute q b :=
    extend_self (by rw [qLength]; exact Nat.le_of_lt lower)
  have stretched : stretchAll (extend b.length a) (permute q b) =
      some shape := by
    rwa [broadcastShape, pRange, qLength, whole] at fits
  rw [sinksCorrectly_convert_left operands differ success
    (fun _ _ l => layOut (inverse q) l),
    ← lower_iff isQ (Nat.le_of_lt lower) rfl stretched]
  · apply forall_operands_congr
    intro V _ f l r atL atR
    subst atL
    subst atR
    have plain : l.transpose p = l := by
      rw [pDefault]
      exact transpose_range l
    have inverseLength : (inverse q).length = r.shape.length :=
      (length_inverse q).trans isQ.length
    have wide : (l.expand (inverse q).length).rank = r.shape.length := by
      rw [inverseLength]
      exact rank_expand (Nat.le_of_lt lower)
    have isOrder : IsOrder (inverse q) (l.expand (inverse q).length).rank := by
      rw [wide]
      exact isQ.inverse
    have laidRank : (layOut (inverse q) l).rank = r.shape.length := by
      rw [layOut_eq isOrder, rank, relabel, length_permute isOrder.inside,
        inverseLength]
    have isQLaid : IsOrder q (layOut (inverse q) l).rank := laidRank.symm ▸ isQ
    have ranks : (layOut (inverse q) l).rank = r.rank := laidRank
    have swapped := @binary_transpose _ _ f _ _ _ isQLaid ranks
    rw [plain, swapped]
    have isExpected := shape_binary f l (r.transpose q)
    have lowerRanks : (r.transpose q).rank = r.shape.length :=
      rank_transpose isQ
    rw [lowerRanks, shape_transpose, rank, whole, stretched,
      Option.map_eq_some_iff] at isExpected
    obtain ⟨expected, isExpected, _⟩ := isExpected
    apply ordered_iff ⟨expected, isExpected⟩
    intro value computed
    rwa [binary_rank ranks computed]
  · intro V _ other library known deleted heap l atL unknown notDeleted
      isNode here
    subst atL
    have isOrder : IsOrder (inverse q) (l.expand q.length).rank := by
      rw [isQ.length, rank_expand (Nat.le_of_lt lower)]
      exact isQ.inverse
    rw [layOut_inverse isOrder]
    exact evaluates_orderNode_lower unknown notDeleted isNode here
      (by rw [isQ.length]; exact lower) isOrder leftShape

/-- The operand of lower rank on the right is laid out in the order of the other
one. -/
theorem sinksCorrectly_lower_right (lower : b.length < a.length)
    (pOther : p ≠ List.range a.length) (qDefault : q = List.range b.length)
    (rightShape : state.heap.get_shape right = b)
    (fits : broadcastShape (permute p a) (permute q b) = some shape) :
    SinksCorrectly state binary type_name left right p q a b ↔
      0 ∈ shape ∨ Keeps (inverse p) (extend a.length b) := by
  obtain ⟨leftDefault, rightDefault, isP, isQ⟩ :=
    operands.defaults leftRank rightRank
  have differ : p ≠ q := fun same =>
    Nat.ne_of_gt lower (isP.length.symm.trans (same ▸ isQ.length))
  have success := sinkBinary_differing operands differ
    (fun both => pOther (both.1.trans leftDefault))
  simp only [leftDefault, rightDefault, qDefault, ne_eq, not_true_eq_false,
    if_false, pOther, not_false_eq_true, if_true, Except.bind,
    operands.convert_right (isP.length.symm ▸ isP)
      (by rw [rightRank, isP.length]; exact Nat.le_of_lt lower)] at success
  have qRange : permute q b = b := by rw [qDefault, range_permute]
  have pLength : (permute p a).length = a.length := by
    rw [length_permute isP.inside, isP.length]
  have whole : extend b.length (permute p a) = permute p a :=
    extend_self (by rw [pLength]; exact Nat.le_of_lt lower)
  have stretched : stretchAll (permute p a) (extend a.length b) =
      some shape := by
    rwa [broadcastShape, qRange, pLength, whole] at fits
  rw [sinksCorrectly_convert_right operands differ success
    (fun _ _ r => layOut (inverse p) r),
    ← lower_iff_right isP (Nat.le_of_lt lower) rfl stretched]
  · apply forall_operands_congr
    intro V _ f l r atL atR
    subst atL
    subst atR
    have plain : r.transpose q = r := by
      rw [qDefault]
      exact transpose_range r
    have inverseLength : (inverse p).length = l.shape.length :=
      (length_inverse p).trans isP.length
    have wide : (r.expand (inverse p).length).rank = l.shape.length := by
      rw [inverseLength]
      exact rank_expand (Nat.le_of_lt lower)
    have isOrder : IsOrder (inverse p) (r.expand (inverse p).length).rank := by
      rw [wide]
      exact isP.inverse
    have ranks : l.rank = (layOut (inverse p) r).rank := by
      rw [layOut_eq isOrder, rank, rank, relabel, length_permute isOrder.inside,
        inverseLength]
    have isPLeft : IsOrder p l.rank := isP
    have swapped := @binary_transpose _ _ f _ _ _ isPLeft ranks
    rw [plain, swapped]
    have isExpected := shape_binary f (l.transpose p) r
    have higherRank : (l.transpose p).rank = l.shape.length :=
      rank_transpose isP
    rw [higherRank, shape_transpose, rank, whole, stretched,
      Option.map_eq_some_iff] at isExpected
    obtain ⟨expected, isExpected, _⟩ := isExpected
    apply ordered_iff ⟨expected, isExpected⟩
    intro value computed
    rwa [binary_rank ranks computed]
  · intro V _ other library known deleted heap r atR unknown notDeleted
      isNode here
    subst atR
    have isOrder : IsOrder (inverse p) (r.expand p.length).rank := by
      rw [isP.length, rank_expand (Nat.le_of_lt lower)]
      exact isP.inverse
    rw [layOut_inverse isOrder]
    exact evaluates_orderNode_lower unknown notDeleted isNode here
      (by rw [isP.length]; exact lower) isOrder rightShape

/-- Operands of different rank come out right if the lower one is in default
order and the order of the other one keeps its wide axes; on the right it must
not be taken for the result. -/
theorem sinkBinary_differentRank (differ : a.length ≠ b.length)
    (leftShape : p = List.range a.length → state.heap.get_shape left = a)
    (rightShape : q = List.range b.length → state.heap.get_shape right = b)
    (fits : broadcastShape (permute p a) (permute q b) = some shape)
    (outShape : state.heap.get_shape ⟨binary, 0⟩ = shape) :
    SinksCorrectly state binary type_name left right p q a b ↔
      (a.length < b.length ∧ p = List.range a.length ∧
        (0 ∈ shape ∨ Keeps (inverse q) (extend b.length a))) ∨
      (b.length < a.length ∧ q = List.range b.length ∧
        (p = List.range a.length → a = shape) ∧
        (0 ∈ shape ∨ Keeps (inverse p) (extend a.length b))) := by
  obtain ⟨leftDefault, rightDefault, isP, isQ⟩ :=
    operands.defaults leftRank rightRank
  have outRank := rank_broadcast isP isQ fits
  by_cases lower : a.length < b.length
  · have notHigher : ¬ b.length < a.length := by omega
    simp only [lower, notHigher, true_and, false_and, or_false]
    by_cases pDefault : p = List.range a.length
    · simp only [pDefault, true_and]
      rw [← pDefault]
      by_cases qDefault : q = List.range b.length
      · refine iff_of_true
          (sinksCorrectly_lower_defaults operands leftRank rightRank
            lower pDefault qDefault fits outShape) (.inr ?_)
        rw [qDefault]
        exact keeps_range _ _
      · exact sinksCorrectly_lower_left operands leftRank rightRank lower
          pDefault qDefault (leftShape pDefault) fits
    · simp only [pDefault, false_and, iff_false]
      rintro ⟨after, _, _, success, _⟩
      have thrown :=
        sinkBinary_lower_left_error operands leftRank rightRank lower pDefault
      exact absurd (success.symm.trans thrown) (by simp)
  · have higher : b.length < a.length := by omega
    simp only [lower, higher, true_and, false_and, false_or]
    by_cases qDefault : q = List.range b.length
    · by_cases pDefault : p = List.range a.length
      · rw [sinksCorrectly_defaults operands leftRank rightRank differ pDefault
          qDefault fits, outShape, leftShape pDefault]
        have keeps : Keeps (inverse p) (extend a.length b) := by
          rw [pDefault]
          exact keeps_range _ _
        simp only [qDefault, pDefault, true_and, forall_const]
        split
        · next same =>
          exact iff_of_true (by omega) ⟨same.symm, .inr (pDefault ▸ keeps)⟩
        · next different =>
            refine iff_of_false (by omega) ?_
            rintro ⟨same, _⟩
            exact different same.symm
      · simp only [qDefault, pDefault, true_and, false_implies]
        rw [← qDefault]
        exact sinksCorrectly_lower_right operands leftRank rightRank higher
          pDefault qDefault (rightShape qDefault) fits
    · simp only [qDefault, false_and, iff_false]
      rintro ⟨after, _, _, success, _⟩
      have thrown :=
        sinkBinary_lower_right_error operands leftRank rightRank higher qDefault
      exact absurd (success.symm.trans thrown) (by simp)

end LowerRank

theorem addState_operands_matrix :
    Operands (addState [1, 2, 0] [0, 1] [2, 3, 4] [4, 2] [3, 4, 2]) 4 "Add"
      ⟨8, 0⟩ ⟨9, 0⟩ 8 9 [1, 2, 0] [0, 1] := by
  constructor <;> decide

theorem addState_operands_transposedMatrix :
    Operands (addState [1, 0] [0, 1, 2] [2, 4] [3, 4, 2] [3, 4, 2]) 4 "Add"
      ⟨8, 0⟩ ⟨9, 0⟩ 8 9 [1, 0] [0, 1, 2] := by
  constructor <;> decide

/-- Both dimensions of a matrix are wide: laid out, its elements change places.
A transposed matrix is not accepted. -/
theorem sinkBinary_matrix :
    broadcastShape (permute [1, 2, 0] [2, 3, 4]) (permute [0, 1] [4, 2]) = some
      [3, 4, 2] ∧
      ¬ SinksCorrectly (addState [1, 2, 0] [0, 1] [2, 3, 4] [4, 2] [3, 4, 2]) 4
        "Add" ⟨8, 0⟩ ⟨9, 0⟩ [1, 2, 0] [0, 1] [2, 3, 4] [4, 2] ∧
      sinkBinary 4 (addState [1, 0] [0, 1, 2] [2, 4] [3, 4, 2] [3, 4, 2]) =
        .error
          (.runtime_error
            "case not supported when converting binary to default order") := by
  have fits : broadcastShape (permute [1, 2, 0] [2, 3, 4])
      (permute [0, 1] [4, 2]) =
      some [3, 4, 2] := by decide
  refine ⟨fits, fun correct => ?_, ?_⟩
  · rw [sinksCorrectly_lower_right addState_operands_matrix (by decide)
      (by decide) (by decide) (by decide) (by decide) (by decide) fits]
      at correct
    exact absurd correct (by decide)
  · exact @sinkBinary_lower_left_error _ _ _ _ _ _ _ _ _ [2, 4] [3, 4, 2]
      addState_operands_transposedMatrix (by decide) (by decide) (by decide)
      (by decide)

theorem addState_operands_vector :
    Operands (addState [1, 2, 0] [0] [2, 3, 4] [2] [3, 4, 2]) 4 "Add"
      ⟨8, 0⟩ ⟨9, 0⟩ 8 9 [1, 2, 0] [0] := by
  constructor <;> decide

theorem sinkBinary_differentRank_vector :
    SinksCorrectly (addState [1, 2, 0] [0] [2, 3, 4] [2] [3, 4, 2]) 4 "Add"
      ⟨8, 0⟩ ⟨9, 0⟩ [1, 2, 0] [0] [2, 3, 4] [2] :=
  (@sinkBinary_differentRank _ _ _ _ _ _ _ _ _ [2, 3, 4] [2]
      [3, 4, 2] addState_operands_vector
    (by decide) (by decide) (by decide)
    (fun default => absurd default (by decide))
    (fun _ => by decide) (by decide) (by decide)).mpr (by decide)

end NGraphBridge.TransposeSinking
