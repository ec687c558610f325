import Mathlib.Algebra.Order.BigOperators.GroupWithZero.List
import Mathlib.Algebra.Order.Ring.Int
import NGraphBridge.Lib.Bytes
import NGraphBridge.NGraphBuilder.Builder

/-!
# The values of constants

A constant holds its elements as bytes, as a list, or as a list that is cut off
where its last element goes on to the end.
-/

namespace NGraphBridge.NGraphBuilder

open TF

/-- `sizeof(VecT)`; the elements of a `bool` constant are kept as `char`. -/
def byteSize : DataType → Nat
  | .DT_BOOL | .DT_INT8 | .DT_QINT8 | .DT_UINT8 | .DT_QUINT8 => 1
  | .DT_INT16 | .DT_QINT16 | .DT_UINT16 | .DT_QUINT16 | .DT_HALF
  | .DT_BFLOAT16 => 2
  | .DT_FLOAT | .DT_INT32 | .DT_QINT32 | .DT_UINT32 => 4
  | .DT_DOUBLE | .DT_INT64 | .DT_UINT64 | .DT_COMPLEX64 => 8
  | .DT_COMPLEX128 => 16
  | .DT_STRING | .DT_RESOURCE | .DT_VARIANT => 1

/-- The elements are given by their bits. -/
abbrev ConstValue (T : DataType) := BitVec (8 * byteSize T)

structure TensorProto where
  tensor_shape : List Int
  has_tensor_shape : Bool
  tensor_content : List (BitVec 8)
  float_val : List (BitVec 32)
  double_val : List (BitVec 64)
  int_val : List (BitVec 32)
  bool_val : List Bool
  int64_val : List (BitVec 64)

/-- A `NodeDef` with the attributes of a `Const`. -/
structure ConstNodeDef where
  op : String
  dtype : DataType
  value : TensorProto

/-- The list of a tensor that holds elements of a type. -/
def mutableTensorProtoData (tensor : TensorProto) : (T : DataType) →
    List (ConstValue T)
  | .DT_FLOAT => tensor.float_val
  | .DT_DOUBLE => tensor.double_val
  | .DT_INT64 => tensor.int64_val
  | .DT_INT32 => tensor.int_val
  | .DT_BOOL => tensor.bool_val.map fun value => if value then 1 else 0
  | _ => tensor.int_val.map (BitVec.setWidth _)

/-- The types whose elements are read one by one. -/
def typedCases : List DataType :=
  [.DT_INT32, .DT_INT64, .DT_FLOAT, .DT_BOOL, .DT_DOUBLE]

/-- `val_size` and `val_i`; the subscript is not checked. -/
def readValue (T : DataType) (tensor : TensorProto) (i : Nat) :
    Translates (Nat × ConstValue T) :=
  if T ∈ typedCases then
    let typed_val := mutableTensorProtoData tensor T
    if typed_val.length > 0 then
      match typed_val[i]? with
      | none => .error .outOfBounds
      | some val_i => .ok (typed_val.length, val_i)
    else .ok (0, 0)
  else
    .error
      (.status (errors.unimplemented
          ("Encountered unknown element type " ++ DataType_Name T ++
            " on an empty tensor")))

/-- The loop from element `i` on. -/
def fillValues (T : DataType) (tensor : TensorProto) :
    Nat → Nat → ConstValue T → Translates (List (ConstValue T))
  | _, 0, _ => .ok []
  | i, count + 1, val_lastsaved => do
      let (val_size, val_i) ← readValue T tensor i
      if val_size = 0 then
        .error (.status (errors.invalidArgument "Empty values vector"))
      else if i < val_size then do
        let values ← fillValues T tensor (i + 1) count val_i
        .ok (val_i :: values)
      else do
        let values ← fillValues T tensor (i + 1) count val_lastsaved
        .ok (val_lastsaved :: values)

def countElements : List Int → Int → Translates Int
  | [], n_elements => .ok n_elements
  | size :: shape, n_elements =>
      if size < 0 then
        .error (.status (errors.invalidArgument
          "Const node has empty tensor and an unknown dimension size"))
      else countElements shape (toSigned 64 (n_elements * size))

/-- `T` is the type of the template. -/
def valuesFromConstNode (T : DataType) (node : ConstNodeDef) :
    Translates (List Int × List (ConstValue T)) :=
  if node.op ≠ "Const" then
    .error (.status (errors.invalidArgument "Node not a Const"))
  else if node.dtype ≠ T then
    .error
      (.status (errors.invalidArgument
          ("Invalid data type defined for Const. Defined: " ++
            toString (node.dtype.ctorIdx + 1))))
  else
    let tensor := node.value
    let tensor_values := mutableTensorProtoData tensor T
    let shape := tensor.tensor_shape
    if (tensor_values ≠ [] ∧ tensor.has_tensor_shape) ∧
    shape = [(tensor_values.length : Int)] then
      .ok (shape, tensor_values)
    else
      let tensor_content_size := tensor.tensor_content.length
      if tensor_content_size % byteSize T ≠ 0 then
        .error
          (.status
            (errors.check (" tensor_content_size (" ++
                toString tensor_content_size ++
                ") is not a multiple of " ++ toString (byteSize T))))
      else if tensor_content_size = 0 then do
        let n_elements ← countElements shape 1
        -- `resize` throws for a count that has become negative
        if n_elements < 0 then .error .exception
        else do
          let values ← fillValues T tensor 0 n_elements.toNat 0
          .ok (shape, values)
      else .ok (shape,
        words (byteSize T) (tensor_content_size / byteSize T)
          tensor.tensor_content)

/-- A constant of a type that is read, with `n` elements that are listed, up to
the last ones that are the same, or given by their bytes. -/
structure ConstInputs (T : DataType) (node : ConstNodeDef) (n : Nat) :
    Prop where
  covered : T ∈ typedCases
  isConst : node.op = "Const"
  isType : node.dtype = T
  known : ∀ size ∈ node.value.tensor_shape, 0 ≤ size
  elements : node.value.tensor_shape.prod = n
  positive : 1 ≤ n
  inRange : n < 2 ^ 63
  encoded : (node.value.tensor_content = [] ∧
      1 ≤ (mutableTensorProtoData node.value T).length ∧
      (mutableTensorProtoData node.value T).length ≤ n) ∨
    (mutableTensorProtoData node.value T = [] ∧
      node.value.tensor_content.length = n * byteSize T)

/-- The elements are what `FromProto` makes of them. -/
def ReadsValues (T : DataType) (node : ConstNodeDef) (n : Nat) : Prop :=
  ∃ values, valuesFromConstNode T node = .ok (node.value.tensor_shape, values) ∧
    values.length = n ∧
    if node.value.tensor_content = [] then
      ∀ i < n, values[i]? = (mutableTensorProtoData node.value T)[min i
        ((mutableTensorProtoData node.value T).length - 1)]?
    else values.flatMap wordBytes = node.value.tensor_content

section Loop

variable {T : DataType} {tensor : TensorProto}

theorem readValue_inside (covered : T ∈ typedCases) {i : Nat}
    {val_i : ConstValue T}
    (atIndex : (mutableTensorProtoData tensor T)[i]? = some val_i) :
    readValue T tensor i =
      .ok ((mutableTensorProtoData tensor T).length, val_i) := by
  have inside := (List.getElem?_eq_some_iff.mp atIndex).1
  rw [readValue, if_pos covered]
  simp only [atIndex]
  rw [if_pos (by omega)]

theorem readValue_outside (covered : T ∈ typedCases)
    (nonempty : mutableTensorProtoData tensor T ≠ []) {i : Nat}
    (outside : (mutableTensorProtoData tensor T).length ≤ i) :
    readValue T tensor i = .error .outOfBounds := by
  rw [readValue, if_pos covered]
  simp only [List.getElem?_eq_none outside]
  rw [if_pos (List.length_pos_iff.mpr nonempty)]

/-- Elements that are all listed are copied. -/
theorem fillValues_listed (covered : T ∈ typedCases) {i count : Nat}
    {val_lastsaved : ConstValue T}
    (listed : i + count ≤ (mutableTensorProtoData tensor T).length) :
    fillValues T tensor i count val_lastsaved =
      .ok (((mutableTensorProtoData tensor T).drop i).take count) := by
  induction count generalizing i val_lastsaved with
  | zero => rfl
  | succ count ih =>
      have inside : i < (mutableTensorProtoData tensor T).length := by omega
      have first := readValue_inside covered (List.getElem?_eq_getElem inside)
      have rest := @ih (i + 1) (mutableTensorProtoData tensor T)[i] (by omega)
      rw [fillValues]
      simp only [bind, Except.bind, first, rest, if_pos inside]
      rw [if_neg (by omega), List.drop_eq_getElem_cons inside,
        List.take_succ_cons]

/-- Where the list is cut off, the loop reads behind its end. -/
theorem fillValues_cutOff (covered : T ∈ typedCases)
    (nonempty : mutableTensorProtoData tensor T ≠ []) {i count : Nat}
    {val_lastsaved : ConstValue T}
    (before : i ≤ (mutableTensorProtoData tensor T).length)
    (behind : (mutableTensorProtoData tensor T).length < i + count) :
    fillValues T tensor i count val_lastsaved = .error .outOfBounds := by
  induction count generalizing i val_lastsaved with
  | zero => exact absurd behind (by omega)
  | succ count ih =>
      rw [fillValues]
      cases Nat.eq_or_lt_of_le before with
      | inl atEnd =>
          have failed :=
            readValue_outside covered nonempty (Nat.le_of_eq atEnd.symm)
          simp only [bind, Except.bind, failed]
      | inr inside =>
          have first := readValue_inside covered
            (List.getElem?_eq_getElem inside)
          have rest := @ih (i + 1) (mutableTensorProtoData tensor T)[i] inside
            (by omega)
          simp only [bind, Except.bind, first, rest, if_pos inside]
          rw [if_neg (by omega)]

end Loop

/-- The number of the elements is the product of the dimensions. -/
theorem countElements_eq {shape : List Int} {total : Int}
    (known : ∀ size ∈ shape, 0 ≤ size) (above : 1 ≤ total * shape.prod)
    (positive : 0 ≤ total) (below : total * shape.prod < 2 ^ 63) :
    countElements shape total = .ok (total * shape.prod) := by
  induction shape generalizing total with
  | nil => rw [countElements, List.prod_nil, Int.mul_one]
  | cons size shape ih =>
      rw [List.forall_mem_cons] at known
      obtain ⟨sizeKnown, known⟩ := known
      rw [List.prod_cons, ← Int.mul_assoc] at above below ⊢
      have partialNonneg : 0 ≤ total * size := Int.mul_nonneg positive sizeKnown
      have restPositive : 1 ≤ shape.prod := by
        have nonneg : 0 ≤ shape.prod := List.prod_nonneg known
        by_contra isZero
        have zero : shape.prod = 0 := by omega
        rw [zero, Int.mul_zero] at above
        exact absurd above (by decide)
      have bounded : total * size < 2 ^ 63 := by
        have grows := Int.mul_le_mul_of_nonneg_left restPositive partialNonneg
        omega
      have kept : toSigned 64 (total * size) = total * size := by
        apply toSigned_eq (by decide) <;> omega
      rw [countElements, if_neg (Int.not_lt.mpr sizeKnown), kept]
      exact ih known above partialNonneg below

section Translate

variable {T : DataType} {node : ConstNodeDef} {n : Nat}

theorem byteSize_pos (T : DataType) : 0 < byteSize T := by
  cases T <;> exact Nat.succ_pos _

theorem ConstInputs.count (inputs : ConstInputs T node n) :
    countElements node.value.tensor_shape 1 = .ok n := by
  have positive := inputs.positive
  have below := inputs.inRange
  have elements : 1 * node.value.tensor_shape.prod = n := by
    rw [Int.one_mul]
    exact inputs.elements
  have counted :=
    @countElements_eq node.value.tensor_shape 1 inputs.known (by omega)
      (by omega) (by omega)
  rw [counted, elements]

/-- The bytes of a constant are taken as they are. -/
theorem ConstInputs.reads_content (inputs : ConstInputs T node n)
    (noList : mutableTensorProtoData node.value T = [])
    (content : node.value.tensor_content.length = n * byteSize T) :
    ReadsValues T node n := by
  have positive := inputs.positive
  have sized := byteSize_pos T
  have several : node.value.tensor_content.length ≠ 0 := by
    rw [content]
    exact Nat.mul_ne_zero (by omega) (by omega)
  have given : node.value.tensor_content ≠ [] :=
    fun none => several (by rw [none, List.length_nil])
  have whole : ¬ node.value.tensor_content.length % byteSize T ≠ 0 := by
    rw [content, Nat.mul_mod_left]
    exact not_not_intro rfl
  have count : node.value.tensor_content.length / byteSize T = n := by
    rw [content, Nat.mul_div_cancel n sized]
  refine ⟨words (byteSize T) n node.value.tensor_content, ?_, words_length, ?_⟩
  · rw [valuesFromConstNode, if_neg (not_not_intro inputs.isConst),
      if_neg (not_not_intro inputs.isType)]
    simp only [noList]
    rw [if_neg (fun early => early.1.1 rfl), if_neg whole,
      if_neg several, count]
  · rw [if_neg given]
    exact wordBytes_words content

/-- Without bytes the elements are read from the list. -/
theorem ConstInputs.reads_list (inputs : ConstInputs T node n)
    (noContent : node.value.tensor_content = [])
    (nonempty : mutableTensorProtoData node.value T ≠ []) :
    valuesFromConstNode T node =
      if node.value.has_tensor_shape = true ∧
          node.value.tensor_shape =
            [((mutableTensorProtoData node.value T).length : Int)] then
        .ok (node.value.tensor_shape, mutableTensorProtoData node.value T)
      else (fillValues T node.value 0 n 0).map fun values =>
      (node.value.tensor_shape, values) := by
  rw [valuesFromConstNode, if_neg (not_not_intro inputs.isConst),
    if_neg (not_not_intro inputs.isType)]
  simp only [noContent, List.length_nil, Nat.zero_mod, inputs.count, bind,
    Except.bind, Int.toNat_natCast]
  rw [if_neg (not_not_intro rfl)]
  simp only [if_true]
  rw [if_neg (Int.not_lt.mpr (Int.natCast_nonneg n))]
  apply if_congr _ rfl
  · cases fillValues T node.value 0 n 0 with
    | error failure => rfl
    | ok values => rfl
  · exact and_congr_left' (and_iff_right nonempty)

/-- The elements are read rightly if they are all listed or given by their
bytes; of a list that is cut off, elements behind its end are read. -/
theorem valuesFromConstNode_iff (inputs : ConstInputs T node n) :
    ReadsValues T node n ↔
      node.value.tensor_content ≠ [] ∨
      (mutableTensorProtoData node.value T).length = n := by
  cases inputs.encoded with
  | inr bytes =>
      obtain ⟨noList, content⟩ := bytes
      have given : node.value.tensor_content ≠ [] := by
        have positive := inputs.positive
        have sized := byteSize_pos T
        intro none
        rw [none, List.length_nil] at content
        exact Nat.mul_ne_zero (by omega) (by omega) content.symm
      exact ⟨fun _ => .inl given, fun _ => inputs.reads_content noList content⟩
  | inl list =>
      obtain ⟨noContent, positive, within⟩ := list
      have nonempty : mutableTensorProtoData node.value T ≠ [] :=
        List.length_pos_iff.mp positive
      constructor
      · intro correct
        right
        obtain ⟨values, success, length, _⟩ := correct
        rw [inputs.reads_list noContent nonempty] at success
        split at success
        next =>
          obtain rfl := (Prod.mk.inj (Except.ok.inj success)).2
          exact length
        next =>
          by_contra cutOff
          rw [fillValues_cutOff inputs.covered nonempty (Nat.zero_le _)
            (by omega)] at success
          exact nomatch success
      · intro condition
        have full : (mutableTensorProtoData node.value T).length = n :=
          condition.resolve_left (not_not_intro noContent)
        refine ⟨mutableTensorProtoData node.value T, ?_, full, ?_⟩
        · rw [inputs.reads_list noContent nonempty,
            fillValues_listed inputs.covered (by omega), List.drop_zero, ← full,
            List.take_length]
          split <;> rfl
        · rw [if_pos noContent]
          intro i inside
          rw [full, Nat.min_eq_left (by omega)]

end Translate

/-- A constant with entries of one value that is listed once. -/
def sevens (shape : List Int) : ConstNodeDef where
  op := "Const"
  dtype := .DT_INT32
  value :=
    { tensor_shape := shape
      has_tensor_shape := true
      tensor_content := []
      float_val := []
      double_val := []
      int_val := [7]
      bool_val := []
      int64_val := [] }

/-- A fill of two entries. -/
theorem valuesFromConstNode_fill :
    ConstInputs .DT_INT32 (sevens [2]) 2 ∧
    ¬ ReadsValues .DT_INT32 (sevens [2]) 2 := by
  refine ⟨⟨by decide, rfl, rfl, by decide, rfl, by decide, by decide,
    .inl ⟨rfl, by decide, by decide⟩⟩, fun correct => ?_⟩
  obtain ⟨values, success, _⟩ := correct
  exact nomatch success

/-- A constant that lists both of its entries. -/
def sevenEight : ConstNodeDef :=
  { sevens [2] with value := { (sevens [2]).value with int_val := [7, 8] } }

theorem valuesFromConstNode_iff_sevenEight :
    ReadsValues .DT_INT32 sevenEight 2 := by
  have inputs : ConstInputs .DT_INT32 sevenEight 2 := ⟨by decide, rfl, rfl,
    by decide, rfl, by decide, by decide, .inl ⟨rfl, by decide, by decide⟩⟩
  exact (valuesFromConstNode_iff inputs).mpr (.inr rfl)

end NGraphBridge.NGraphBuilder
