import NGraphBridge.NGraphBuilder.Slice

/-!
# Translating `SplitV`

One length of a split may be left open; it is what the others leave of the axis.
-/

namespace NGraphBridge.NGraphBuilder

open NGraph (Shape)
open TF

def checkAxisDimInRange (axes : List Int) (rank : Nat) : Translates Unit :=
  match axes.find? fun i => i < -(rank : Int) ∨ i ≥ rank with
  | some i =>
      .error
        (.status (errors.invalidArgument
            ("Axis Dimension is out of range. Got " ++ toString i ++
              ", should be in range [-" ++ toString rank ++ ", " ++
              toString rank ++ ")")))
  | none => .ok ()

/-- The variables of the loop over the lengths. -/
structure SplitScan where
  length : Int
  idx : Int
  has_one_neg : Bool
  deriving DecidableEq, Repr

/-- The loop from place `i` on. -/
def scanSplits : Nat → List Int → SplitScan → Translates SplitScan
  | _, [], scan => .ok scan
  | i, split_length :: split_lengths_vec, scan =>
      if split_length ≠ -1 then
        scanSplits (i + 1) split_lengths_vec
          { scan with length := toSigned 32 (scan.length + split_length) }
      else if scan.has_one_neg then
        .error
          (.status (errors.invalidArgument "size_splits can only have one -1"))
      else scanSplits (i + 1) split_lengths_vec
        { scan with idx := i, has_one_neg := true }

def splitLengthError : Failure :=
  .status (errors.invalidArgument ("The length of size_splits " ++
  "must sum to the value of the dimension along split_dim"))

/-- The lengths with the open one filled in, unless they do not make up the
dimension. -/
def resolveSplits (dim : Nat) (split_lengths_vec : List Int) :
    Translates (List Int) := do
  let scan ← scanSplits 0 split_lengths_vec ⟨0, -1, false⟩
  let resolved :=
    if scan.idx > 0 then
      split_lengths_vec.set scan.idx.toNat (toSigned 32 (dim - scan.length))
    else split_lengths_vec
  if (scan.has_one_neg = false ∧ toUnsigned scan.length ≠ dim) ∨
      (scan.has_one_neg = true ∧ resolved.getD scan.idx.toNat 0 < 0) then
    .error splitLengthError
  else .ok resolved

/-- The outputs of a split, from output `i` on. -/
def saveSplits (op_name : String) (data : Ng) (split_dim : Int)
    (split_lengths : List Int) :
    Nat → Nat → OpMap → OpMap
  | _, 0, ng_op_map => ng_op_map
  | i, count + 1, ng_op_map =>
      saveSplits op_name data split_dim split_lengths (i + 1) count
        (saveNgOp ng_op_map op_name
          (.VariadicSplit data split_dim split_lengths i))

def saveSplitV (opset : Opset) (op_name : String) (data : Ng) (split_dim : Int)
    (split_lengths : List Int) (ng_op_map : OpMap) : Translates OpMap :=
  if split_lengths.length ≠ 1 then
    match opset.variadic_split (data.get_shape opset) split_dim split_lengths
      with
    | none => .error .exception
    | some _ =>
        .ok (saveSplits op_name data split_dim split_lengths 0
            split_lengths.length ng_op_map)
  else .ok (saveNgOp ng_op_map op_name data)

def translateSplitVOp (opset : Opset) (op : OpNode)
    (static_input_map : StaticInputMap) (ng_op_map : OpMap) :
    Translates OpMap := do
  let ng_input ← getInputNode ng_op_map op 0
  let shape := ng_input.get_shape opset
  let split_dim_vec ← getStaticInputInt64s op 2 static_input_map
  match split_dim_vec with
  | [axis] => do
      checkAxisDimInRange split_dim_vec shape.length
      let split_dim :=
        toSigned 32 (axis + if axis < 0 then (shape.length : Int) else 0)
      let split_lengths_vec ← getStaticInputInts op 1 static_input_map
      let split_lengths ← resolveSplits (shape.getD split_dim.toNat 0)
          split_lengths_vec
      saveSplitV opset op.name ng_input split_dim split_lengths ng_op_map
  | _ =>
      .error
        (.status
          (errors.invalidArgument
            "split_dim_tensor must have exactly one element."))

/-- The lengths that are not left open. -/
def givenLength (sizes : List Int) : Int := (sizes.filter (· ≠ -1)).sum

/-- The axis that is split. -/
def splitAxis (axis : Int) (rank : Nat) : Nat :=
  (if axis < 0 then axis + rank else axis).toNat

/-- An op whose inputs are a tensor, a static axis of it, and static lengths. -/
structure SplitInputs (opset : Opset) (op : OpNode)
    (static_input_map : StaticInputMap) (ng_op_map : OpMap) (data : Ng)
    (shape : Shape) (axis : Int) (dim : Nat) (sizes : List Int) : Prop where
  input : getInputNode ng_op_map op 0 = .ok data
  axes : getStaticInputInt64s op 2 static_input_map = .ok [axis]
  lengths : getStaticInputInts op 1 static_input_map = .ok sizes
  isShape : data.shape opset = some shape
  rank : shape.length < 2 ^ 31
  axisAbove : -(shape.length : Int) ≤ axis
  axisBelow : axis < shape.length
  isDim : shape[splitAxis axis shape.length]? = some dim
  dimBelow : dim < 2 ^ 63
  nonempty : sizes ≠ []
  sumAbove : -2 ^ 31 ≤ givenLength sizes
  sumBelow : givenLength sizes < 2 ^ 31

/-- What TensorFlow admits. -/
structure AdmitsSplit (dim : Nat) (sizes : List Int) : Prop where
  oneOpen : sizes.count (-1) ≤ 1
  nonneg : ∀ size ∈ sizes, size ≠ -1 → 0 ≤ size
  fits : if -1 ∈ sizes then givenLength sizes ≤ dim else givenLength sizes = dim

/-- Lengths that make up the dimension and keep what is given. -/
structure Resolves (dim : Nat) (sizes lengths : List Int) : Prop where
  length : lengths.length = sizes.length
  nonneg : ∀ length ∈ lengths, 0 ≤ length
  total : lengths.sum = dim
  keeps : ∀ i < sizes.length, sizes.getD i 0 ≠ -1 →
    lengths.getD i 0 = sizes.getD i 0

/-- What is stored for the lengths. -/
def splitOutputs (data : Ng) (axis : Int) (lengths : List Int) : List Ng :=
  if lengths.length = 1 then [data]
  else (List.range lengths.length).map (.VariadicSplit data axis lengths)

/-- The splits that TensorFlow admits are translated and no others, with lengths
that make up the dimension. -/
def SplitsCorrectly (opset : Opset) (op : OpNode)
    (static_input_map : StaticInputMap) (ng_op_map : OpMap) (data : Ng)
    (rank : Nat) (axis : Int) (dim : Nat) (sizes : List Int) : Prop :=
  ((∃ after, translateSplitVOp opset op static_input_map ng_op_map =
        .ok after) ↔
    AdmitsSplit dim sizes) ∧
  ∀ after, translateSplitVOp opset op static_input_map ng_op_map = .ok after →
    ∃ lengths, Resolves dim sizes lengths ∧
      after.outputs op.name =
        ng_op_map.outputs op.name ++ splitOutputs data
          (splitAxis axis rank) lengths

section Scan

theorem toSigned_add_toSigned (bits : Nat) (value other : Int) :
    toSigned bits (toSigned bits value + other) =
      toSigned bits (value + other) := by
  rw [toSigned, toSigned, Int.bmod_add_bmod, toSigned]

theorem scanSplits_given {i : Nat} {sizes : List Int} (noneOpen : -1 ∉ sizes)
    (rest : List Int) (total idx : Int) (has_one_neg : Bool) :
    scanSplits i (sizes ++ rest) ⟨toSigned 32 total, idx, has_one_neg⟩ =
      scanSplits (i + sizes.length) rest
        ⟨toSigned 32 (total + sizes.sum), idx, has_one_neg⟩ := by
  induction sizes generalizing i total with
  | nil =>
      rw [List.nil_append, List.length_nil, List.sum_nil, Int.add_zero,
        Nat.add_zero]
  | cons size sizes ih =>
      have given : size ≠ -1 := fun isOpen => noneOpen (by simp [isOpen])
      have later := @ih (i + 1)
        (fun member => noneOpen (List.mem_cons_of_mem _ member)) (total + size)
      rw [List.cons_append, scanSplits, if_pos given,
        toSigned_add_toSigned, later, List.length_cons, List.sum_cons,
        Int.add_assoc, Nat.add_assoc, Nat.add_comm 1]

theorem scanSplits_twice {i : Nat} {sizes : List Int} (isOpen : -1 ∈ sizes)
    (total idx : Int) :
    ∃ failure, scanSplits i sizes ⟨toSigned 32 total, idx, true⟩ =
      .error failure := by
  obtain ⟨before, after, rfl, noneOpen⟩ := List.eq_append_cons_of_mem isOpen
  rw [scanSplits_given noneOpen, scanSplits]
  exact ⟨_, rfl⟩

theorem givenLength_eq_sum {sizes : List Int} (noneOpen : -1 ∉ sizes) :
    givenLength sizes = sizes.sum := by
  rw [givenLength, List.filter_eq_self.mpr]
  intro size member
  rw [decide_eq_true_iff]
  exact fun isOpen => noneOpen (isOpen ▸ member)

theorem givenLength_open {before after : List Int} (noneBefore : -1 ∉ before)
    (noneAfter : -1 ∉ after) :
    givenLength (before ++ -1 :: after) = before.sum + after.sum := by
  have first := givenLength_eq_sum noneBefore
  have second := givenLength_eq_sum noneAfter
  rw [givenLength] at first second ⊢
  rw [List.filter_append, List.sum_append, List.filter_cons_of_neg (by simp),
    first, second]

theorem toSigned_zero : toSigned 32 0 = 0 := rfl

theorem resolveSplits_given {dim : Nat} {sizes : List Int}
    (noneOpen : -1 ∉ sizes) :
    resolveSplits dim sizes =
      if toUnsigned (toSigned 32 sizes.sum) ≠ dim then
        .error splitLengthError
      else .ok sizes := by
  have scanned := @scanSplits_given 0 sizes noneOpen [] 0 (-1) false
  rw [List.append_nil, toSigned_zero, scanSplits, Int.zero_add] at scanned
  rw [resolveSplits]
  simp only [bind, Except.bind, scanned]
  rw [if_neg (by decide : ¬ (-1 : Int) > 0)]
  apply if_congr _ rfl rfl
  simp only [true_and, Bool.false_eq_true, false_and, or_false]

/-- One length is left open; nothing is filled in if it is the first one. -/
theorem resolveSplits_open {dim : Nat} {before after : List Int}
    (noneBefore : -1 ∉ before) (noneAfter : -1 ∉ after) :
    resolveSplits dim (before ++ -1 :: after) =
      if (if before = [] then -1
        else toSigned 32 (dim - (before.sum + after.sum))) < 0 then
        .error splitLengthError
      else .ok (before ++ toSigned 32 (dim - (before.sum + after.sum)) ::
        after) := by
  have first := @scanSplits_given 0 before noneBefore (-1 :: after) 0 (-1) false
  have second :=
    @scanSplits_given (before.length + 1) after noneAfter [] (before.sum)
      before.length true
  rw [toSigned_zero, Int.zero_add, Nat.zero_add, scanSplits,
    if_neg (not_not_intro rfl), if_neg Bool.false_ne_true] at first
  rw [List.append_nil, scanSplits] at second
  have remains : toSigned 32 (dim - toSigned 32 (before.sum + after.sum)) =
      toSigned 32 (dim - (before.sum + after.sum)) := by
    rw [toSigned, toSigned, Int.sub_bmod_bmod, toSigned]
  rw [resolveSplits]
  simp only [bind, Except.bind, first, second]
  by_cases isFirst : before = []
  · subst isFirst
    have notPlaced : ¬ ((([] : List Int).length : Int) > 0) := Int.lt_irrefl 0
    have read : ([] ++ -1 :: after).getD (([] : List Int).length : Int).toNat
        0 = -1 := rfl
    rw [if_neg notPlaced, if_pos rfl, read, if_pos (.inr ⟨trivial, by decide⟩),
      if_pos (by decide)]
  · have positive : 0 < before.length := List.length_pos_iff.mpr isFirst
    have placed : ((before.length : Int) > 0) := by omega
    have filled : (before ++ -1 :: after).set before.length
        (toSigned 32 (dim - (before.sum + after.sum))) =
          before ++ toSigned 32 (dim - (before.sum + after.sum)) :: after := by
      rw [List.set_append_right _ _ (Nat.le_refl _), Nat.sub_self,
        List.set_cons_zero]
    have read :
        (before ++ toSigned 32 (dim - (before.sum + after.sum)) :: after).getD
        before.length 0 = toSigned 32 (dim - (before.sum + after.sum)) := by
      rw [List.getD_eq_getElem?_getD,
        List.getElem?_append_right (Nat.le_refl _), Nat.sub_self]
      rfl
    rw [if_pos placed, if_neg isFirst, remains, Int.toNat_natCast, filled, read]
    apply if_congr _ rfl rfl
    simp only [Bool.true_eq_false, false_and, true_and, false_or]

theorem resolveSplits_twice {dim : Nat} {before after : List Int}
    (noneBefore : -1 ∉ before) (isOpen : -1 ∈ after) (lengths : List Int) :
    resolveSplits dim (before ++ -1 :: after) ≠ .ok lengths := by
  have first := @scanSplits_given 0 before noneBefore (-1 :: after) 0 (-1) false
  rw [toSigned_zero, Int.zero_add, Nat.zero_add, scanSplits,
    if_neg (not_not_intro rfl), if_neg Bool.false_ne_true] at first
  obtain ⟨failure, failed⟩ :=
    @scanSplits_twice (before.length + 1) after isOpen before.sum
      before.length
  rw [failed] at first
  rw [resolveSplits]
  simp only [bind, Except.bind, first]
  exact nofun

/-- What is resolved: lengths that add up, or an open length behind others. -/
theorem resolveSplits_inv {dim : Nat} {sizes lengths : List Int}
    (success : resolveSplits dim sizes = .ok lengths) :
    (-1 ∉ sizes ∧ toUnsigned (toSigned 32 sizes.sum) = dim ∧ lengths = sizes) ∨
      ∃ before after, sizes = before ++ -1 :: after ∧ -1 ∉ before ∧ -1 ∉ after ∧
        before ≠ [] ∧
        0 ≤ toSigned 32 (dim - (before.sum + after.sum)) ∧
        lengths = before ++ toSigned 32 (dim - (before.sum + after.sum)) ::
          after := by
  by_cases isOpen : -1 ∈ sizes
  · right
    obtain ⟨before, after, rfl, noneBefore⟩ := List.eq_append_cons_of_mem isOpen
    by_cases twice : -1 ∈ after
    · exact absurd success (resolveSplits_twice noneBefore twice lengths)
    · rw [resolveSplits_open noneBefore twice] at success
      refine ⟨before, after, rfl, noneBefore, twice, ?_⟩
      by_cases isFirst : before = []
      · rw [if_pos isFirst, if_pos (by decide)] at success
        exact nomatch success
      · rw [if_neg isFirst] at success
        split at success
        next => exact nomatch success
        next nonneg =>
          exact ⟨isFirst, Int.not_lt.mp nonneg, (Except.ok.inj success).symm⟩
  · left
    rw [resolveSplits_given isOpen] at success
    split at success
    next => exact nomatch success
    next total => exact ⟨isOpen, not_not.mp total, (Except.ok.inj success).symm⟩

end Scan

section Lengths

variable {dim : Nat} {sizes lengths before after : List Int} {value : Int}

/-- Lengths that make up a dimension. -/
def MakesUp (dim : Nat) (lengths : List Int) : Prop :=
  (∀ length ∈ lengths, 0 ≤ length) ∧ lengths.sum = dim

theorem makesUp_filled_iff : MakesUp dim (before ++ value :: after) ↔
    (∀ size ∈ before ++ after, 0 ≤ size) ∧ 0 ≤ value ∧
    value = dim - (before.sum + after.sum) := by
  have sum : (before ++ value :: after).sum = before.sum + after.sum +
      value := by
    rw [List.sum_append, List.sum_cons]
    omega
  rw [MakesUp, sum]
  simp only [List.forall_mem_append, List.forall_mem_cons]
  constructor
  · intro makesUp
    obtain ⟨⟨first, filled, rest⟩, total⟩ := makesUp
    exact ⟨⟨first, rest⟩, filled, by omega⟩
  · intro filled
    obtain ⟨⟨first, rest⟩, nonneg, total⟩ := filled
    exact ⟨⟨first, nonneg, rest⟩, by omega⟩

theorem admitsSplit_given_iff (noneOpen : -1 ∉ sizes) :
    AdmitsSplit dim sizes ↔ MakesUp dim sizes := by
  have given : ∀ size ∈ sizes, size ≠ -1 :=
    fun size member isOpen => noneOpen (isOpen ▸ member)
  constructor
  · intro admits
    have fits := admits.fits
    rw [if_neg noneOpen, givenLength_eq_sum noneOpen] at fits
    exact ⟨fun size member => admits.nonneg size member (given size member),
      fits⟩
  · intro makesUp
    have none : sizes.count (-1) = 0 := List.count_eq_zero.mpr noneOpen
    have fits := makesUp.2
    rw [← givenLength_eq_sum noneOpen] at fits
    refine ⟨by omega, fun size member _ => makesUp.1 size member, ?_⟩
    rw [if_neg noneOpen]
    exact fits

theorem admitsSplit_open_iff (noneBefore : -1 ∉ before)
    (noneAfter : -1 ∉ after) :
    AdmitsSplit dim (before ++ -1 :: after) ↔
      (∀ size ∈ before ++ after, 0 ≤ size) ∧ before.sum + after.sum ≤ dim := by
  have isOpen : -1 ∈ before ++ -1 :: after := by simp
  have once : (before ++ -1 :: after).count (-1) = 1 := by
    rw [List.count_append, List.count_cons_self,
      List.count_eq_zero.mpr noneBefore, List.count_eq_zero.mpr noneAfter]
  constructor
  · intro admits
    have fits := admits.fits
    rw [if_pos isOpen, givenLength_open noneBefore noneAfter] at fits
    refine ⟨fun size member => ?_, fits⟩
    cases List.mem_append.mp member with
    | inl first =>
        apply admits.nonneg size (List.mem_append_left _ first)
        exact fun isNeg => noneBefore (isNeg ▸ first)
    | inr later =>
        apply admits.nonneg size
          (List.mem_append_right _ (List.mem_cons_of_mem _ later))
        exact fun isNeg => noneAfter (isNeg ▸ later)
  · intro given
    refine ⟨by omega, fun size member isGiven => given.1 size ?_, ?_⟩
    · cases List.mem_append.mp member with
      | inl first => exact List.mem_append_left _ first
      | inr later =>
          apply List.mem_append_right
          exact List.mem_of_ne_of_mem isGiven later
    · rw [if_pos isOpen, givenLength_open noneBefore noneAfter]
      exact given.2

theorem resolves_given (makesUp : MakesUp dim sizes) :
    Resolves dim sizes sizes :=
  ⟨rfl, makesUp.1, makesUp.2, fun _ _ _ => rfl⟩

theorem resolves_filled (makesUp : MakesUp dim (before ++ value :: after)) :
    Resolves dim (before ++ -1 :: after) (before ++ value :: after) where
  length := by rw [List.length_append, List.length_append, List.length_cons,
    List.length_cons]
  nonneg := makesUp.1
  total := makesUp.2
  keeps := by
    intro i _ given
    simp only [List.getD_eq_getElem?_getD, List.getElem?_append] at given ⊢
    split
    next => rfl
    next later =>
      rw [if_neg later] at given
      cases at_ : i - before.length with
      | zero =>
          rw [at_] at given
          exact absurd rfl given
      | succ place => rfl

theorem resolveSplits_sound (success : resolveSplits dim sizes = .ok lengths)
    (makesUp : MakesUp dim lengths) : AdmitsSplit dim sizes ∧
    Resolves dim sizes lengths := by
  cases resolveSplits_inv success with
  | inl given =>
      obtain ⟨noneOpen, _, rfl⟩ := given
      exact ⟨(admitsSplit_given_iff noneOpen).mpr makesUp,
        resolves_given makesUp⟩
  | inr filled =>
      obtain ⟨before, after, rfl, noneBefore, noneAfter, _, _, rfl⟩ := filled
      refine ⟨?_, resolves_filled makesUp⟩
      rw [admitsSplit_open_iff noneBefore noneAfter]
      obtain ⟨given, nonneg, total⟩ := makesUp_filled_iff.mp makesUp
      exact ⟨given, by omega⟩

theorem resolveSplits_noneOpen
    (success : resolveSplits dim sizes = .ok lengths) :
    -1 ∉ lengths := by
  cases resolveSplits_inv success with
  | inl given =>
      obtain ⟨noneOpen, _, rfl⟩ := given
      exact noneOpen
  | inr filled =>
      obtain ⟨before, after, _, noneBefore, noneAfter, _, nonneg, rfl⟩ := filled
      intro isOpen
      cases List.mem_append.mp isOpen with
      | inl first => exact noneBefore first
      | inr later =>
          cases List.mem_cons.mp later with
          | inl isValue => omega
          | inr rest => exact noneAfter rest

theorem toUnsigned_eq_iff {sum : Int} (dimBelow : dim < 2 ^ 63)
    (sumAbove : -2 ^ 31 ≤ sum) (sumBelow : sum < 2 ^ 31) :
    toUnsigned (toSigned 32 sum) = dim ↔ sum = dim := by
  have kept : toSigned 32 sum = sum := by
    apply toSigned_eq (by decide) <;> omega
  rw [kept, toUnsigned]
  omega

/-- A single length is the dimension. -/
theorem resolveSplits_single (dimBelow : dim < 2 ^ 63)
    (sumAbove : -2 ^ 31 ≤ givenLength sizes)
    (sumBelow : givenLength sizes < 2 ^ 31)
    (success : resolveSplits dim sizes = .ok lengths)
    (single : lengths.length = 1) : MakesUp dim lengths := by
  cases resolveSplits_inv success with
  | inl given =>
      obtain ⟨noneOpen, total, rfl⟩ := given
      rw [givenLength_eq_sum noneOpen] at sumAbove sumBelow
      rw [toUnsigned_eq_iff dimBelow sumAbove sumBelow] at total
      obtain ⟨size, rfl⟩ := List.length_eq_one_iff.mp single
      refine ⟨fun length member => ?_, total⟩
      rw [List.sum_singleton] at total
      rw [List.mem_singleton.mp member, total]
      exact Int.natCast_nonneg dim
  | inr filled =>
      obtain ⟨before, after, _, _, _, behind, _, rfl⟩ := filled
      have positive := List.length_pos_iff.mpr behind
      rw [List.length_append, List.length_cons] at single
      omega

/-- Admitted sizes are resolved, but for an open length that is the first one or
too great. -/
theorem resolveSplits_complete (admits : AdmitsSplit dim sizes)
    (dimBelow : dim < 2 ^ 63) (sumAbove : -2 ^ 31 ≤ givenLength sizes)
    (sumBelow : givenLength sizes < 2 ^ 31) :
    (∃ lengths, resolveSplits dim sizes = .ok lengths ∧ MakesUp dim lengths) ↔
      (-1 ∈ sizes → sizes.head? ≠ some (-1) ∧
        dim - givenLength sizes < 2 ^ 31) := by
  by_cases isOpen : -1 ∈ sizes
  · obtain ⟨before, after, rfl, noneBefore⟩ := List.eq_append_cons_of_mem isOpen
    have noneAfter : -1 ∉ after := by
      intro twice
      have once := admits.oneOpen
      have again := List.count_pos_iff.mpr twice
      rw [List.count_append, List.count_cons_self] at once
      omega
    have given := (admitsSplit_open_iff noneBefore noneAfter).mp admits
    rw [givenLength_open noneBefore noneAfter]
    constructor
    · intro resolved _
      obtain ⟨lengths, success, makesUp⟩ := resolved
      rw [resolveSplits_open noneBefore noneAfter] at success
      cases before with
      | nil =>
          rw [if_pos rfl, if_pos (by decide)] at success
          exact nomatch success
      | cons size before =>
          refine ⟨fun isFirst => noneBefore ?_, ?_⟩
          · rw [List.cons_append, List.head?_cons] at isFirst
            rw [Option.some.inj isFirst]
            exact List.mem_cons_self
          · rw [if_neg (List.cons_ne_nil _ _)] at success
            split at success
            next => exact nomatch success
            next =>
              obtain rfl := Except.ok.inj success
              obtain ⟨_, _, total⟩ := makesUp_filled_iff.mp makesUp
              have bounds :=
                @toSigned_bounds 32 (dim - ((size :: before).sum + after.sum))
                  (by decide)
              omega
    · intro condition
      obtain ⟨notFirst, inRange⟩ := condition isOpen
      have behind : before ≠ [] :=
        fun isFirst => notFirst (by rw [isFirst]; rfl)
      have value : toSigned 32 (dim - (before.sum + after.sum)) =
          dim - (before.sum + after.sum) := by
        apply toSigned_eq (by decide) <;> omega
      refine ⟨before ++ (dim - (before.sum + after.sum)) :: after, ?_, ?_⟩
      · rw [resolveSplits_open noneBefore noneAfter, value, if_neg behind,
          if_neg (by omega)]
      · rw [makesUp_filled_iff]
        exact ⟨given.1, by omega, rfl⟩
  · have makesUp := (admitsSplit_given_iff isOpen).mp admits
    refine ⟨fun _ member => absurd member isOpen, fun _ => ⟨sizes, ?_, makesUp⟩⟩
    have total := makesUp.2
    rw [givenLength_eq_sum isOpen] at sumAbove sumBelow
    rw [← toUnsigned_eq_iff dimBelow sumAbove sumBelow] at total
    rw [resolveSplits_given isOpen, if_neg (not_not_intro total)]

end Lengths

theorem outputs_saveSplits {op_name : String} {data : Ng} {axis : Int}
    {lengths : List Int} {i count : Nat} {ng_op_map : OpMap} :
    (saveSplits op_name data axis lengths i count ng_op_map).outputs op_name =
      ng_op_map.outputs op_name ++
        (List.range' i count).map (.VariadicSplit data axis lengths) := by
  induction count generalizing i ng_op_map with
  | zero => rw [saveSplits, List.range'_zero, List.map_nil, List.append_nil]
  | succ count ih =>
      rw [saveSplits, ih, outputs_saveNgOp_self, List.append_assoc,
        List.range'_succ, List.map_cons, List.singleton_append]

/-- What nGraph documents for the lengths of a split of which none is left
open. -/
def SplitRules (opset : Opset) : Prop :=
  ∀ (shape : Shape) (axis dim : Nat) (lengths : List Int),
    shape[axis]? = some dim →
    -1 ∉ lengths →
    ((opset.variadic_split shape axis lengths).isSome ↔ MakesUp dim lengths)

theorem saveSplitV_outputs {opset : Opset} {op_name : String} {data : Ng}
    {axis : Int} {lengths : List Int} {ng_op_map after : OpMap}
    (success : saveSplitV opset op_name data axis lengths ng_op_map =
      .ok after) :
    after.outputs op_name = ng_op_map.outputs op_name ++
      splitOutputs data axis lengths := by
  unfold saveSplitV at success
  unfold splitOutputs
  split at success
  next several =>
    rw [if_neg several]
    split at success
    next => exact absurd success (by simp)
    next =>
      obtain rfl := Except.ok.inj success
      rw [outputs_saveSplits, List.range_eq_range']
  next single =>
    obtain rfl := Except.ok.inj success
    rw [if_pos (not_not.mp single), outputs_saveNgOp_self]

/-- A single length is not looked at again. -/
theorem saveSplitV_ok_iff {opset : Opset} {op_name : String} {data : Ng}
    {shape : Shape} {axis dim : Nat} {lengths : List Int} {ng_op_map : OpMap}
    (rules : SplitRules opset) (isShape : data.get_shape opset = shape)
    (isDim : shape[axis]? = some dim) (noneOpen : -1 ∉ lengths) :
    (∃ after, saveSplitV opset op_name data axis lengths ng_op_map =
      .ok after) ↔
      (lengths.length ≠ 1 → MakesUp dim lengths) := by
  rw [saveSplitV, ← rules shape axis dim lengths isDim noneOpen, isShape]
  by_cases several : lengths.length ≠ 1
  · rw [if_pos several]
    cases opset.variadic_split shape axis lengths with
    | none =>
        constructor
        · exact fun succeeds => nomatch succeeds.choose_spec
        · exact fun valid => nomatch valid several
    | some shapes => exact ⟨fun _ _ => rfl, fun _ => ⟨_, rfl⟩⟩
  · rw [if_neg several]
    exact ⟨fun _ isSeveral => absurd isSeveral several, fun _ => ⟨_, rfl⟩⟩

section Translate

variable {opset : Opset} {op : OpNode} {static_input_map : StaticInputMap}
  {ng_op_map : OpMap} {data : Ng} {shape : Shape} {axis : Int} {dim : Nat}
  {sizes : List Int}

/-- The translation resolves the lengths and stores what they split. -/
theorem SplitInputs.translate
    (inputs : SplitInputs opset op static_input_map ng_op_map data shape axis
      dim sizes) :
    translateSplitVOp opset op static_input_map ng_op_map =
      (resolveSplits dim sizes).bind fun lengths =>
        saveSplitV opset op.name data (splitAxis axis shape.length) lengths
          ng_op_map := by
  have isShape := Ng.get_shape_eq inputs.isShape
  have inRange : checkAxisDimInRange [axis] shape.length = .ok () := by
    have inside : ¬ (axis < -(shape.length : Int) ∨ axis ≥ shape.length) := by
      have above := inputs.axisAbove
      have below := inputs.axisBelow
      omega
    rw [checkAxisDimInRange, List.find?_cons_of_neg (by simpa using inside),
      List.find?_nil]
  have place : toSigned 32
      (axis + if axis < 0 then (shape.length : Int) else 0) =
      splitAxis axis shape.length := by
    have above := inputs.axisAbove
    have below := inputs.axisBelow
    have rank := inputs.rank
    rw [splitAxis]
    split
    next negative =>
      rw [toSigned_eq (by decide) (by omega) (by omega),
        Int.toNat_of_nonneg (by omega)]
    next =>
      rw [Int.add_zero, toSigned_eq (by decide) (by omega) (by omega),
        Int.toNat_of_nonneg (by omega)]
  have isDim : shape.getD (splitAxis axis shape.length) 0 = dim := by
    rw [List.getD_eq_getElem?_getD, inputs.isDim, Option.getD_some]
  rw [translateSplitVOp]
  simp only [bind, Except.bind, inputs.input, inputs.axes, isShape, inRange,
    place, inputs.lengths, Int.toNat_natCast, isDim]

/-- Where a translation succeeds, the sizes are admitted. -/
theorem SplitInputs.translate_ok_iff
    (inputs : SplitInputs opset op static_input_map ng_op_map data shape axis
      dim sizes)
    (rules : SplitRules opset) :
    (∃ after, translateSplitVOp opset op static_input_map ng_op_map =
      .ok after) ↔
      ∃ lengths, resolveSplits dim sizes = .ok lengths ∧
      MakesUp dim lengths := by
  have isShape := Ng.get_shape_eq inputs.isShape
  rw [inputs.translate]
  constructor
  · intro succeeds
    obtain ⟨after, success⟩ := succeeds
    obtain ⟨lengths, resolved, saved⟩ := bind_ok success
    refine ⟨lengths, resolved, ?_⟩
    have several := (saveSplitV_ok_iff rules isShape inputs.isDim
      (resolveSplits_noneOpen resolved)).mp ⟨after, saved⟩
    by_cases single : lengths.length = 1
    · exact resolveSplits_single inputs.dimBelow inputs.sumAbove inputs.sumBelow
        resolved single
    · exact several single
  · intro succeeds
    obtain ⟨lengths, resolved, makesUp⟩ := succeeds
    obtain ⟨after, saved⟩ := (saveSplitV_ok_iff rules isShape inputs.isDim
      (resolveSplits_noneOpen resolved)).mpr fun _ => makesUp
    refine ⟨after, ?_⟩
    rw [resolved]
    exact saved

/-- What TensorFlow admits is translated if no length is left open, or one that
is not the first; what it does not admit is never translated. -/
theorem translateSplitVOp_iff
    (inputs : SplitInputs opset op static_input_map ng_op_map data shape axis
      dim sizes)
    (rules : SplitRules opset) :
    SplitsCorrectly opset op static_input_map ng_op_map data shape.length axis
      dim sizes ↔
      (AdmitsSplit dim sizes → -1 ∈ sizes →
        sizes.head? ≠ some (-1) ∧ dim - givenLength sizes < 2 ^ 31) := by
  constructor
  · intro correct admits
    have succeeds := (inputs.translate_ok_iff rules).mp (correct.1.mpr admits)
    exact (resolveSplits_complete admits inputs.dimBelow inputs.sumAbove
        inputs.sumBelow).mp succeeds
  · intro condition
    refine ⟨⟨fun succeeds => ?_, fun admits => ?_⟩, fun after success => ?_⟩
    · obtain ⟨lengths, resolved, makesUp⟩ :=
        (inputs.translate_ok_iff rules).mp succeeds
      exact (resolveSplits_sound resolved makesUp).1
    · rw [inputs.translate_ok_iff rules,
        resolveSplits_complete admits inputs.dimBelow inputs.sumAbove
          inputs.sumBelow]
      exact condition admits
    · obtain ⟨lengths, resolved, makesUp⟩ :=
        (inputs.translate_ok_iff rules).mp ⟨after, success⟩
      rw [inputs.translate, resolved] at success
      exact ⟨lengths, (resolveSplits_sound resolved makesUp).2,
        saveSplitV_outputs success⟩

end Translate

instance (dim : Nat) (lengths : List Int) : Decidable (MakesUp dim lengths) :=
  inferInstanceAs (Decidable (_ ∧ _))

/-- Rules under which a split is valid if its lengths make up the dimension. -/
def splitRules : Opset :=
  { noRules with
    variadic_split := fun shape axis lengths =>
      if MakesUp (shape.getD axis.toNat 0) lengths then
        some (lengths.map fun length => shape.set axis.toNat length.toNat)
      else none }

theorem splitRules_valid : SplitRules splitRules := by
  intro shape axis dim lengths isDim _
  have read : shape.getD (axis : Int).toNat 0 = dim := by
    rw [Int.toNat_natCast, List.getD_eq_getElem?_getD, isDim, Option.getD_some]
  rw [splitRules]
  simp only [read]
  split
  next makesUp => exact ⟨fun _ => makesUp, fun _ => rfl⟩
  next notMakesUp => exact ⟨nofun, fun makesUp => absurd makesUp notMakesUp⟩

/-- A split of a vector into lengths that are constants. -/
def splitOp (sizes : List Int) : OpNode where
  name := "split"
  type_string := "SplitV"
  attrs := []
  listAttrs := []
  floatAttrs := []
  inputs :=
    [(⟨"x", "_Arg", [], none⟩, 0), (constNode "size_splits" .DT_INT32 sizes, 0),
    (constNode "split_dim" .DT_INT32 [0], 0)]

def splitOpMap : OpMap :=
  [("x", [.Parameter 0 [3]]), ("size_splits", [.Parameter 1 [2]]),
    ("split_dim", [.Parameter 2 []])]

theorem splitOp_inputs {first second : Int}
    (firstKept : toSigned 32 first = first)
    (secondKept : toSigned 32 second = second)
    (sumAbove : -2 ^ 31 ≤ givenLength [first, second])
    (sumBelow : givenLength [first, second] < 2 ^ 31) :
    SplitInputs splitRules (splitOp [first, second])
    [] splitOpMap (.Parameter 0 [3]) [3] 0 3 [first, second] where
  input := rfl
  axes := rfl
  lengths := congrArg Except.ok
    (congrArg₂ (fun x y => [x, y]) firstKept secondKept)
  isShape := rfl
  rank := by decide
  axisAbove := by decide
  axisBelow := by decide
  isDim := rfl
  dimBelow := by decide
  nonempty := List.cons_ne_nil _ _
  sumAbove := sumAbove
  sumBelow := sumBelow

/-- The first of two lengths is left open. -/
theorem translateSplitVOp_firstOpen :
    SplitRules splitRules ∧ SplitInputs splitRules (splitOp [-1, 2])
    [] splitOpMap (.Parameter 0 [3]) [3] 0 3 [-1, 2] ∧
      ¬ SplitsCorrectly splitRules (splitOp [-1, 2])
      [] splitOpMap (.Parameter 0 [3]) 1 0 3
        [-1, 2] := by
  have inputs := @splitOp_inputs (-1) 2 rfl rfl (by decide) (by decide)
  refine ⟨splitRules_valid, inputs, fun correct => ?_⟩
  have admits : AdmitsSplit 3 [-1, 2] := by
    have given : AdmitsSplit 3 ([] ++ -1 :: [2]) := by
      rw [admitsSplit_open_iff (by decide) (by decide)]
      decide
    exact given
  obtain ⟨after, success⟩ := correct.1.mpr admits
  rw [inputs.translate] at success
  exact nomatch success

theorem translateSplitVOp_iff_behind :
    SplitsCorrectly splitRules (splitOp [2, -1])
    [] splitOpMap (.Parameter 0 [3]) 1 0 3 [2, -1] :=
  (translateSplitVOp_iff (splitOp_inputs rfl rfl (by decide) (by decide))
    splitRules_valid).mpr fun _ _ => ⟨by decide, by decide⟩

end NGraphBridge.NGraphBuilder
