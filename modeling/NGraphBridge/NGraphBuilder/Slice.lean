import NGraphBridge.NGraphBuilder.Builder

/-!
# Translating `Slice`

The bounds of a slice are checked position by position while its ends are
computed.
-/

namespace NGraphBridge.NGraphBuilder

open NGraph (Shape)
open TF

/-- A conversion to an unsigned integer of 64 bits. -/
def toUnsigned (value : Int) : Nat := (value % 2 ^ 64).toNat

/-- What is written to the error stream at a position. -/
def sliceErrors (lower upper : Int) (dim : Nat) : List String :=
  (if 0 > lower then
    ["lower < 0: " ++ toString lower ++ ". It should have been positive.\n"]
      else []) ++
  (if lower > upper then
    ["upper < lower: upper = " ++ toString upper ++ ", lower = " ++
      toString lower ++ "\n"]
    else []) ++
  (if toUnsigned lower > dim then
    ["dim < upper: dim = " ++ toString dim ++ ", upper = " ++ toString upper ++
      "\n"] else [])

/-- The end of a slice at a position; a size of -1 reaches to the end of the
tensor. -/
def sliceEnd (lower size : Int) (dim : Nat) : Int :=
  if size ≠ -1 then toSigned 64 (lower + size) else toSigned 64 dim

/-- The loop from position `i` on. -/
def sliceEnds (positions : Nat) : Nat → List Int → List Int → Shape →
    Translates (List Int)
  | i, lower :: begin_vec, size :: size_vec, dim :: ng_input_shape =>
      let upper := sliceEnd lower size dim
      match sliceErrors lower upper dim with
      | [] => do
          let end_vec ← sliceEnds positions (i + 1) begin_vec size_vec
              ng_input_shape
          .ok (upper :: end_vec)
      | err_msg =>
          .error
            (.status (errors.invalidArgument
                ("Cannot translate slice op at position " ++
                  toString i ++ " of " ++ toString positions ++
                  ". The reasons are:\n" ++ String.join err_msg)))
  | _, _ :: _, _ :: _, [] => .error .outOfBounds
  | _, _, _, _ => .ok []

def translateSliceOp (opset : Opset) (op : OpNode)
    (static_input_map : StaticInputMap) (ng_op_map : OpMap) :
    Translates OpMap := do
  let inputs ← getInputNodes ng_op_map op 3
  let begin_vec ← getStaticInputInt64s op 1 static_input_map
  let size_vec ← getStaticInputInt64s op 2 static_input_map
  if begin_vec.length ≠ size_vec.length then
    .error
      (.status (errors.invalidArgument
          ("Cannot translate slice op: size of begin = " ++
            toString begin_vec.length ++ ", size of size_vec = " ++
            toString size_vec.length ++ ". Expected them to match.")))
  else do
    let end_vec ← sliceEnds size_vec.length 0 begin_vec size_vec
        ((inputs 0).get_shape opset)
    let slice ← constructNgNode opset
        (.StridedSlice (inputs 0) begin_vec end_vec [] [] [] [])
    .ok (saveNgOp ng_op_map op.name slice)

/-- An op whose inputs are a tensor and static vectors with an entry for each of
its axes. No sum of two entries leaves the range of the integers. -/
structure SliceInputs (opset : Opset) (op : OpNode)
    (static_input_map : StaticInputMap) (ng_op_map : OpMap) (data : Ng)
    (shape : Shape) (begin_vec size_vec : List Int) : Prop where
  inputs : ∃ nodes, getInputNodes ng_op_map op 3 = .ok nodes ∧ nodes 0 = data
  begins : getStaticInputInt64s op 1 static_input_map = .ok begin_vec
  sizes : getStaticInputInt64s op 2 static_input_map = .ok size_vec
  data : data.shape opset = some shape
  beginLength : begin_vec.length = shape.length
  sizeLength : size_vec.length = shape.length
  dims : ∀ dim ∈ shape, dim < 2 ^ 63
  noOverflow : ∀ i < shape.length,
    -2 ^ 63 ≤ begin_vec.getD i 0 + size_vec.getD i 0 ∧
    begin_vec.getD i 0 + size_vec.getD i 0 < 2 ^ 63

/-- What TensorFlow admits at a position. -/
def Admits (lower size : Int) (dim : Nat) : Prop :=
  0 ≤ lower ∧ (size = -1 ∧ lower ≤ dim ∨ 0 ≤ size ∧ lower + size ≤ dim)

/-- What the loop lets through at a position. -/
def PassesCheck (lower size : Int) (dim : Nat) : Prop :=
  0 ≤ lower ∧ lower ≤ dim ∧ -1 ≤ size

def requestedSize (lower size : Int) (dim : Nat) : Int :=
  if size = -1 then dim - lower else size

/-- The slices that TensorFlow admits are translated and no others, and what is
built has the requested sizes. -/
def SlicesCorrectly (opset : Opset) (op : OpNode)
    (static_input_map : StaticInputMap) (ng_op_map : OpMap) (data : Ng)
    (shape : Shape) (begin_vec size_vec : List Int) : Prop :=
  ((∃ after, translateSliceOp opset op static_input_map ng_op_map = .ok after) ↔
    ∀ i < shape.length,
    Admits (begin_vec.getD i 0) (size_vec.getD i 0) (shape.getD i 0)) ∧
  ∀ after, translateSliceOp opset op static_input_map ng_op_map = .ok after →
    ∃ end_vec, after = saveNgOp ng_op_map op.name
      (.StridedSlice data begin_vec end_vec [] [] [] []) ∧
    end_vec.length = shape.length ∧ ∀ i < shape.length,
      end_vec.getD i 0 - begin_vec.getD i 0 =
        requestedSize (begin_vec.getD i 0) (size_vec.getD i 0) (shape.getD i 0)

section Position

variable {lower size : Int} {dim : Nat}

theorem sliceEnd_eq (dimBelow : dim < 2 ^ 63)
    (sumAbove : -2 ^ 63 ≤ lower + size) (sumBelow : lower + size < 2 ^ 63) :
    sliceEnd lower size dim = if size = -1 then (dim : Int)
      else lower + size := by
  have dimKept : toSigned 64 dim = dim := by
    apply toSigned_eq (by decide) <;> omega
  have sumKept : toSigned 64 (lower + size) = lower + size := by
    apply toSigned_eq (by decide) <;> omega
  rw [sliceEnd, ite_not, dimKept, sumKept]

theorem sliceEnd_sub (dimBelow : dim < 2 ^ 63)
    (sumAbove : -2 ^ 63 ≤ lower + size) (sumBelow : lower + size < 2 ^ 63) :
    sliceEnd lower size dim - lower = requestedSize lower size dim := by
  rw [sliceEnd_eq dimBelow sumAbove sumBelow, requestedSize]
  split <;> omega

/-- The end of the slice is not compared with the dimension. -/
theorem sliceErrors_eq_nil (lowerBelow : lower < 2 ^ 63)
    (dimBelow : dim < 2 ^ 63) (sumAbove : -2 ^ 63 ≤ lower + size)
    (sumBelow : lower + size < 2 ^ 63) :
    sliceErrors lower (sliceEnd lower size dim) dim = [] ↔
    PassesCheck lower size dim := by
  have unsigned : 0 ≤ lower → (toUnsigned lower > dim ↔ lower > dim) := by
    intro nonneg
    have kept : lower % 2 ^ 64 = lower := Int.emod_eq_of_lt nonneg (by omega)
    rw [toUnsigned, kept]
    omega
  rw [sliceErrors, sliceEnd_eq dimBelow sumAbove sumBelow, PassesCheck,
    List.append_eq_nil_iff, List.append_eq_nil_iff]
  simp only [ite_eq_right_iff, List.cons_ne_nil, imp_false]
  constructor
  · intro passes
    obtain ⟨⟨nonneg, ordered⟩, inside⟩ := passes
    have nonneg : 0 ≤ lower := by omega
    have inside := mt (unsigned nonneg).mpr inside
    split at ordered <;> omega
  · intro passes
    obtain ⟨nonneg, inside, size⟩ := passes
    refine ⟨⟨by omega, ?_⟩, mt (unsigned nonneg).mp (by omega)⟩
    split <;> omega

theorem passesCheck_of_admits (admits : Admits lower size dim) :
    PassesCheck lower size dim := by
  obtain ⟨nonneg, ⟨isWhole, inside⟩ | ⟨size, inside⟩⟩ := admits
  · exact ⟨nonneg, inside, by omega⟩
  · exact ⟨nonneg, by omega, by omega⟩

theorem admits_iff (passes : PassesCheck lower size dim) :
    Admits lower size dim ↔ (size ≠ -1 → lower + size ≤ dim) := by
  obtain ⟨nonneg, inside, sizeAbove⟩ := passes
  constructor
  · intro admits notWhole
    obtain ⟨_, ⟨isWhole, _⟩ | ⟨_, inside⟩⟩ := admits
    · exact absurd isWhole notWhole
    · exact inside
  · intro fits
    by_cases isWhole : size = -1
    · exact ⟨nonneg, .inl ⟨isWhole, inside⟩⟩
    · exact ⟨nonneg, .inr ⟨by omega, fits isWhole⟩⟩

end Position

/-- Every position passes, and its end is computed. -/
theorem sliceEnds_inv {positions i : Nat}
    {begin_vec size_vec end_vec : List Int} {shape : Shape}
    (beginLength : begin_vec.length = shape.length)
    (sizeLength : size_vec.length = shape.length)
    (success : sliceEnds positions i begin_vec size_vec shape = .ok end_vec) :
    end_vec.length = shape.length ∧ ∀ j < shape.length,
      end_vec.getD j 0 = sliceEnd (begin_vec.getD j 0) (size_vec.getD j 0)
        (shape.getD j 0) ∧
      sliceErrors (begin_vec.getD j 0) (end_vec.getD j 0) (shape.getD j 0) =
        [] := by
  induction shape generalizing i begin_vec size_vec end_vec with
  | nil =>
      rw [List.length_eq_zero_iff.mp beginLength, sliceEnds] at success
      · obtain rfl := Except.ok.inj success
        exact ⟨rfl, fun j below => absurd below (Nat.not_lt_zero j)⟩
      all_goals simp
  | cons dim shape ih =>
      match begin_vec, size_vec, beginLength, sizeLength with
      | lower :: begin_vec, size :: size_vec, beginLength, sizeLength =>
          rw [sliceEnds] at success
          split at success
          next passes =>
            obtain ⟨rest, later, success⟩ := bind_ok success
            obtain rfl := Except.ok.inj success
            obtain ⟨length, entries⟩ :=
              ih (Nat.succ.inj beginLength) (Nat.succ.inj sizeLength) later
            refine ⟨congrArg Nat.succ length, ?_⟩
            rw [List.length_cons, Nat.forall_lt_succ_left]
            exact ⟨⟨rfl, passes⟩, entries⟩
          next => exact absurd success (by simp)

theorem sliceEnds_ok {positions i : Nat} {begin_vec size_vec : List Int}
    {shape : Shape} (beginLength : begin_vec.length = shape.length)
    (sizeLength : size_vec.length = shape.length)
    (passes : ∀ j < shape.length, sliceErrors (begin_vec.getD j 0)
      (sliceEnd (begin_vec.getD j 0) (size_vec.getD j 0) (shape.getD j 0))
      (shape.getD j 0) = []) :
    ∃ end_vec, sliceEnds positions i begin_vec size_vec shape =
      .ok end_vec := by
  induction shape generalizing i begin_vec size_vec with
  | nil =>
      rw [List.length_eq_zero_iff.mp beginLength, sliceEnds]
      · exact ⟨[], rfl⟩
      all_goals simp
  | cons dim shape ih =>
      match begin_vec, size_vec, beginLength, sizeLength with
      | lower :: begin_vec, size :: size_vec, beginLength, sizeLength =>
          rw [List.length_cons, Nat.forall_lt_succ_left] at passes
          have first : sliceErrors lower (sliceEnd lower size dim) dim = [] :=
            passes.1
          obtain ⟨rest, later⟩ := @ih (i + 1) _ _ (Nat.succ.inj beginLength)
            (Nat.succ.inj sizeLength) passes.2
          refine ⟨sliceEnd lower size dim :: rest, ?_⟩
          rw [sliceEnds, first]
          simp only [bind, Except.bind, later]

/-- A strided slice that drops no axis is valid. -/
theorem slicePlan_whole {shape : Shape} {begin_ end_ : List Int} :
    ∃ axes, slicePlan shape begin_ end_ [] [] [] [] = some axes := by
  have plans : ∀ places : List Nat, ∃ axes, places.mapM (fun axis =>
      if axis < begin_.length then
        planAxis (shape.getD axis 0) (begin_.getD axis 0)
          (end_.getD axis 0) false false false
      else some (0, some (shape.getD axis 0))) = some axes := by
    intro places
    induction places with
    | nil => exact ⟨[], rfl⟩
    | cons place places ih =>
        obtain ⟨axes, plan⟩ := ih
        rw [List.mapM_cons, plan]
        split
        · exact ⟨_, rfl⟩
        · exact ⟨_, rfl⟩
  obtain ⟨axes, plan⟩ := plans (List.range shape.length)
  refine ⟨axes, ?_⟩
  rw [slicePlan, if_neg List.not_mem_nil]
  exact plan

section Translate

variable {opset : Opset} {op : OpNode} {static_input_map : StaticInputMap}
  {ng_op_map : OpMap} {data : Ng} {shape : Shape}
  {begin_vec size_vec : List Int}

theorem SliceInputs.begin_lt
    (inputs : SliceInputs opset op static_input_map ng_op_map data shape
      begin_vec size_vec)
    {i : Nat} (below : i < shape.length) : begin_vec.getD i 0 < 2 ^ 63 := by
  have bound : i < begin_vec.length := inputs.beginLength.symm ▸ below
  rw [List.getD_eq_getElem?_getD, List.getElem?_eq_getElem bound,
    Option.getD_some]
  exact (getStaticInputVector_bounds (by decide) inputs.begins
      (List.getElem_mem bound)).2

theorem SliceInputs.dim_lt
    (inputs : SliceInputs opset op static_input_map ng_op_map data shape
      begin_vec size_vec)
    {i : Nat} (below : i < shape.length) : shape.getD i 0 < 2 ^ 63 := by
  rw [List.getD_eq_getElem?_getD, List.getElem?_eq_getElem below,
    Option.getD_some]
  exact inputs.dims _ (List.getElem_mem below)

theorem SliceInputs.passes_iff
    (inputs : SliceInputs opset op static_input_map ng_op_map data shape
      begin_vec size_vec)
    {i : Nat} (below : i < shape.length) :
    sliceErrors (begin_vec.getD i 0)
      (sliceEnd (begin_vec.getD i 0) (size_vec.getD i 0)
      (shape.getD i 0)) (shape.getD i 0) = [] ↔
        PassesCheck (begin_vec.getD i 0) (size_vec.getD i 0) (shape.getD i 0) :=
  sliceErrors_eq_nil (inputs.begin_lt below) (inputs.dim_lt below)
    (inputs.noOverflow i below).1 (inputs.noOverflow i below).2

/-- The translation is the loop, and the slice that it bounds. -/
theorem SliceInputs.translate
    (inputs : SliceInputs opset op static_input_map ng_op_map data shape
      begin_vec size_vec) :
    translateSliceOp opset op static_input_map ng_op_map =
      (sliceEnds size_vec.length 0 begin_vec size_vec shape).map fun end_vec =>
        saveNgOp ng_op_map op.name
          (.StridedSlice data begin_vec end_vec [] [] [] []) := by
  obtain ⟨nodes, found, isData⟩ := inputs.inputs
  have sameLength : ¬ begin_vec.length ≠ size_vec.length :=
    not_not_intro (inputs.beginLength.trans inputs.sizeLength.symm)
  have isShape := Ng.get_shape_eq inputs.data
  rw [translateSliceOp]
  simp only [bind, Except.bind, found, inputs.begins, inputs.sizes,
    if_neg sameLength, isData, isShape]
  cases sliceEnds size_vec.length 0 begin_vec size_vec shape with
  | error failure => rfl
  | ok end_vec =>
      obtain ⟨axes, plan⟩ := @slicePlan_whole shape begin_vec end_vec
      have built : constructNgNode opset
          (.StridedSlice data begin_vec end_vec [] [] [] []) =
          .ok (.StridedSlice data begin_vec end_vec [] [] [] []) := by
        apply constructNgNode_ok
        rw [Ng.shape, inputs.data]
        simp only [bind, Option.bind_some, plan]
        rfl
      simp only [built]
      rfl

theorem SliceInputs.succeeds_iff
    (inputs : SliceInputs opset op static_input_map ng_op_map data shape
      begin_vec size_vec) :
    (∃ after, translateSliceOp opset op static_input_map ng_op_map =
      .ok after) ↔
      ∀ i < shape.length,
        PassesCheck (begin_vec.getD i 0) (size_vec.getD i 0)
          (shape.getD i 0) := by
  rw [inputs.translate]
  constructor
  · intro succeeds i below
    obtain ⟨after, success⟩ := succeeds
    cases ends : sliceEnds size_vec.length 0 begin_vec size_vec shape with
    | error failure =>
        rw [ends] at success
        exact absurd success (by simp [Except.map])
    | ok end_vec =>
        obtain ⟨isEnd, passes⟩ :=
          (sliceEnds_inv inputs.beginLength inputs.sizeLength ends).2 i below
        rw [isEnd, inputs.passes_iff below] at passes
        exact passes
  · intro passes
    obtain ⟨end_vec, ends⟩ :=
      @sliceEnds_ok size_vec.length 0 _ _ _ inputs.beginLength
        inputs.sizeLength fun j below =>
          (inputs.passes_iff below).mpr (passes j below)
    rw [ends]
    exact ⟨_, rfl⟩

/-- Slices within the tensor are translated; what is not checked is that the end
of a slice with a size is within the tensor. -/
theorem translateSliceOp_iff
    (inputs : SliceInputs opset op static_input_map ng_op_map data shape
      begin_vec size_vec) :
    SlicesCorrectly opset op static_input_map ng_op_map data shape begin_vec
      size_vec ↔
      ((∀ i < shape.length, 0 ≤ begin_vec.getD i 0 ∧
          begin_vec.getD i 0 ≤ shape.getD i 0 ∧
          -1 ≤ size_vec.getD i 0) →
        ∀ i < shape.length, size_vec.getD i 0 ≠ -1 →
          begin_vec.getD i 0 + size_vec.getD i 0 ≤ shape.getD i 0) := by
  constructor
  · intro correct passes i below
    have admits := correct.1.mp (inputs.succeeds_iff.mpr passes) i below
    exact (admits_iff (passes i below)).mp admits
  · intro inside
    refine ⟨?_, ?_⟩
    · rw [inputs.succeeds_iff]
      constructor
      · intro passes i below
        exact (admits_iff (passes i below)).mpr (inside passes i below)
      · exact fun admits i below => passesCheck_of_admits (admits i below)
    · intro after success
      rw [inputs.translate] at success
      cases ends : sliceEnds size_vec.length 0 begin_vec size_vec shape with
      | error failure =>
          rw [ends] at success
          exact absurd success (by simp [Except.map])
      | ok end_vec =>
          rw [ends] at success
          obtain ⟨length, entries⟩ :=
            sliceEnds_inv inputs.beginLength inputs.sizeLength ends
          refine ⟨end_vec, (Except.ok.inj success).symm, length,
            fun i below => ?_⟩
          obtain ⟨sumAbove, sumBelow⟩ := inputs.noOverflow i below
          rw [(entries i below).1]
          exact sliceEnd_sub (inputs.dim_lt below) sumAbove sumBelow

end Translate

/-- Rules under which the ops that are not told here are never valid. -/
def noRules : Opset where
  variadic_split := fun _ _ _ => none
  convolution := fun _ _ _ => none
  convolution_backprop_data := fun _ _ _ _ => none
  group_convolution := fun _ _ _ => none
  batch_norm_inference := fun _ _ _ _ _ => none
  max_pool := fun _ _ => none
  gather := fun _ _ _ => none
  infer_auto_padding := fun _ _ _ _ => ([], [])

def constNode (name : String) (dtype : DataType) (values : List Int) :
    InputNode :=
  ⟨name, "Const", [], some ⟨dtype, values⟩⟩

/-- A slice whose begin and size are constants. -/
def sliceOp (begin_ size : Int) : OpNode where
  name := "slice"
  type_string := "Slice"
  attrs := []
  listAttrs := []
  floatAttrs := []
  inputs :=
    [(⟨"x", "_Arg", [], none⟩, 0), (constNode "begin" .DT_INT64 [begin_], 0),
    (constNode "size" .DT_INT64 [size], 0)]

def sliceOpMap : OpMap :=
  [("x", [.Parameter 0 [3]]), ("begin", [.Parameter 1 [1]]),
    ("size", [.Parameter 2 [1]])]

theorem sliceOp_inputs {begin_ size : Int}
    (beginKept : toSigned 64 begin_ = begin_)
    (sizeKept : toSigned 64 size = size) (sumAbove : -2 ^ 63 ≤ begin_ + size)
    (sumBelow : begin_ + size < 2 ^ 63) :
    SliceInputs noRules (sliceOp begin_ size) [] sliceOpMap (.Parameter 0 [3])
    [3] [begin_] [size] where
  inputs := ⟨_, rfl, rfl⟩
  begins := congrArg (fun entry => Except.ok [entry]) beginKept
  sizes := congrArg (fun entry => Except.ok [entry]) sizeKept
  data := rfl
  beginLength := rfl
  sizeLength := rfl
  dims := by decide
  noOverflow := by
    intro i below
    obtain rfl := Nat.lt_one_iff.mp below
    exact ⟨sumAbove, sumBelow⟩

/-- Five entries from place one of a vector of three are sliced. -/
theorem translateSliceOp_outside :
    SliceInputs noRules (sliceOp 1 5) [] sliceOpMap (.Parameter 0 [3])
    [3] [1] [5] ∧
      ¬ SlicesCorrectly noRules (sliceOp 1 5) [] sliceOpMap (.Parameter 0 [3])
      [3] [1] [5] := by
  refine ⟨sliceOp_inputs rfl rfl (by decide) (by decide), fun correct => ?_⟩
  have admits := correct.1.mp ⟨_, rfl⟩ 0 (by decide)
  obtain ⟨_, ⟨isWhole, _⟩ | ⟨_, inside⟩⟩ := admits
  · exact absurd isWhole (by decide)
  · exact absurd inside (by decide)

theorem translateSliceOp_iff_inside :
    SlicesCorrectly noRules (sliceOp 1 2) [] sliceOpMap (.Parameter 0 [3]) [3]
    [1] [2] :=
  (translateSliceOp_iff (sliceOp_inputs rfl rfl (by decide) (by decide))).mpr
    (by decide)

end NGraphBridge.NGraphBuilder
