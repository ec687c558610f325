import NGraphBridge.NGraphBuilder.Slice

/-!
# Translating `Select`

A vector as condition chooses among the rows of the other operands in
TensorFlow, and among their columns in nGraph.
-/

namespace NGraphBridge.NGraphBuilder

open NGraph (Shape)
open TF Tensor

def translateSelectOp (opset : Opset) (op : OpNode) (ng_op_map : OpMap) :
    Translates OpMap := do
  let inputs ← getInputNodes ng_op_map op 3
  let ng_select ← constructNgNode opset
      (.Select (inputs 0) (inputs 1) (inputs 2))
  .ok (saveNgOp ng_op_map op.name ng_select)

/-- The conditions that TensorFlow admits for operands of a shape. -/
def AdmitsCondition (condition shape : Shape) : Prop :=
  condition = [] ∨ condition = shape ∨ ∃ first rest, condition = [first] ∧
    shape = first :: rest

/-- Where the condition is read. -/
def conditionIndex (condition shape index : List Nat) : List Nat :=
  if condition = [] then [] else if condition = shape then index
  else index.take 1

def selectElements {V : Type} [Inhabited V] (isTrue : V → Bool)
    (condition x y : Tensor V) : Tensor V :=
  ofFn x.shape fun index =>
    if isTrue
      (condition.get (conditionIndex condition.shape x.shape index)) then
      x.get index
    else y.get index

/-- The inputs of an op, which can have any values of their shapes. -/
structure SelectInputs (opset : Opset) (op : OpNode) (ng_op_map : OpMap)
    (nodes : Fin 3 → Ng) (condition shape : Shape) : Prop where
  inputs : getInputNodes ng_op_map op 3 = .ok nodes
  conditionShape : (nodes 0).shape opset = some condition
  thenShape : (nodes 1).shape opset = some shape
  elseShape : (nodes 2).shape opset = some shape
  admits : AdmitsCondition condition shape
  values : ∀ c x y : Tensor Bool, c.shape = condition → x.shape = shape →
    y.shape = shape →
    ∀ library : Library Bool opset, ∃ parameters,
    (nodes 0).eval library parameters = some c ∧
      (nodes 1).eval library parameters = some x ∧
      (nodes 2).eval library parameters = some y

/-- What is stored evaluates to the choice that TensorFlow makes. -/
def SelectsCorrectly (opset : Opset) (op : OpNode) (ng_op_map : OpMap)
    (nodes : Fin 3 → Ng) : Prop :=
  ∃ node, translateSelectOp opset op ng_op_map =
    .ok (saveNgOp ng_op_map op.name node) ∧
    ∀ (V : Type) [Inhabited V] (library : Library V opset)
      (parameters : Nat → Tensor V) c x y, (nodes 0).eval library parameters =
        some c → (nodes 1).eval library parameters = some x →
      (nodes 2).eval library parameters = some y →
        node.eval library parameters =
          some (selectElements library.isTrue c x y)

/-- The two ways to read a condition make no difference. -/
def Coincides (condition shape : Shape) : Prop :=
  condition = [] ∨ condition = shape ∨ condition = [1] ∨
    (condition.getLast? = shape.getLast? ∧ 0 ∈ shape)

section Choice

variable {V : Type} [Inhabited V] {isTrue : V → Bool} {c x y : Tensor V}
  {condition shape : Shape}

theorem broadcast_scalar (shape : Shape) : broadcast [] shape = some shape := by
  have kept : extend ([] : Shape).length shape = shape :=
    extend_self (Nat.zero_le _)
  rw [broadcast, extend_nil, kept, stretchAll_ones]

theorem broadcast_vector (front : Shape) (n last : Nat) :
    broadcast [n] (front ++ [last]) = (stretch n last).map fun dim =>
      front ++ [dim] := by
  have rank : (front ++ [last]).length = front.length + 1 := by simp
  rw [broadcast, rank, extend_vector, extend_self (by simp), stretchAll_vector]

theorem select_eq (sameShape : x.shape = y.shape) {result : Shape}
    (fits : broadcast c.shape x.shape = some result) :
    select isTrue c x y = some (ofFn result fun index =>
      if isTrue (stretched c index) then stretched x index
        else stretched y index) := by
  rw [select, ← sameShape, broadcast_self]
  simp only [bind, Option.bind_some, fits]

theorem exists_last {first : Nat} {rest : Shape}
    (rows : shape = first :: rest) :
    ∃ front last, shape = front ++ [last] := by
  rw [rows]
  exact ⟨_, _,
    (List.dropLast_append_getLast (List.cons_ne_nil first rest)).symm⟩

theorem Coincides.fits (coincides : Coincides condition shape)
    (admits : AdmitsCondition condition shape) :
    broadcast condition shape = some shape := by
  by_cases scalar : condition = []
  · rw [scalar, broadcast_scalar]
  by_cases same : condition = shape
  · rw [same, broadcast_self]
  obtain ⟨first, rest, vector, rows⟩ :=
    (admits.resolve_left scalar).resolve_left same
  obtain ⟨front, last, isLast⟩ := exists_last rows
  cases (coincides.resolve_left scalar).resolve_left same with
  | inl single =>
      rw [single, isLast, broadcast_vector, stretch_one, Option.map_some]
  | inr empty =>
      have lasts := empty.1
      rw [vector, isLast, List.getLast?_concat,
        List.getLast?_singleton] at lasts
      rw [vector, isLast, Option.some.inj lasts, broadcast_vector, stretch_self,
        Option.map_some]

/-- Where there are elements, the condition is read at the place where
TensorFlow reads it. -/
theorem Coincides.read (coincides : Coincides c.shape shape)
    (admits : AdmitsCondition c.shape shape) (elements : 0 ∉ shape)
    {index : List Nat} (valid : Valid shape index) :
    stretched c index = c.get (conditionIndex c.shape shape index) := by
  by_cases scalar : c.shape = []
  · rw [conditionIndex, if_pos scalar]
    exact get_expand_scalar scalar
  by_cases same : c.shape = shape
  · rw [conditionIndex, if_neg scalar, if_pos same]
    exact get_expand_self (same.symm ▸ valid)
  obtain ⟨first, rest, vector, rows⟩ :=
    (admits.resolve_left scalar).resolve_left same
  have single :=
    ((coincides.resolve_left scalar).resolve_left same).resolve_right
      fun empty => elements empty.2
  have firstRow : index.take 1 = [0] := by
    rw [vector] at single
    rw [rows, (List.cons.inj single).1] at valid
    cases valid with
    | @cons i _ index _ below _ =>
        rw [List.take_succ_cons, Nat.lt_one_iff.mp below, List.take_zero]
  obtain ⟨before, i, rfl⟩ : ∃ before i, index = before ++ [i] := by
    have nonempty : index ≠ [] := fun isNil => by simp [isNil] at firstRow
    exact ⟨_, _, (List.dropLast_append_getLast nonempty).symm⟩
  rw [conditionIndex, if_neg scalar, if_neg same, firstRow]
  exact get_expand_vector single

theorem Coincides.select_eq (coincides : Coincides c.shape x.shape)
    (admits : AdmitsCondition c.shape x.shape) (sameShape : x.shape = y.shape) :
    select isTrue c x y = some (selectElements isTrue c x y) := by
  rw [NGraphBuilder.select_eq sameShape (coincides.fits admits), selectElements]
  congr 1
  by_cases empty : 0 ∈ x.shape
  · exact eq_of_empty rfl empty
  · apply ofFn_congr
    intro index valid
    have atThen : stretched x index = x.get index := get_expand_self valid
    have atElse : stretched y index = y.get index :=
      get_expand_self (sameShape ▸ valid)
    rw [coincides.read admits empty valid, atThen, atElse]

/-- Where the two ways to read a condition differ, some operands tell. -/
theorem select_ne (differ : ¬ Coincides condition shape)
    (admits : AdmitsCondition condition shape) :
    ∃ c x y : Tensor Bool, c.shape = condition ∧ x.shape = shape ∧
      y.shape = shape ∧
      select id c x y ≠ some (selectElements id c x y) := by
  have notScalar : condition ≠ [] := fun scalar => differ (.inl scalar)
  have notSame : condition ≠ shape := fun same => differ (.inr (.inl same))
  obtain ⟨first, rest, rfl, rfl⟩ :=
    (admits.resolve_left notScalar).resolve_left notSame
  have notSingle : first ≠ 1 :=
    fun single => differ (.inr (.inr (.inl (by rw [single]))))
  have several : rest ≠ [] := fun none => notSame (by rw [none])
  obtain ⟨front, last, rfl⟩ : ∃ front last, rest = front ++ [last] :=
    ⟨_, _, (List.dropLast_append_getLast several).symm⟩
  have fits : broadcast [first] (first :: (front ++ [last])) =
      (stretch first last).map fun dim => first :: (front ++ [dim]) :=
    broadcast_vector (first :: front) first last
  by_cases isLast : first = last
  · subst isLast
    have elements : 0 ∉ first :: (front ++ [first]) := by
      intro empty
      refine differ (.inr (.inr (.inr ⟨?_, empty⟩)))
      have isLast : ((first :: front) ++ [first]).getLast? = some first :=
        List.getLast?_concat
      exact isLast.symm
    have positive : 0 < first :=
      Nat.pos_of_ne_zero fun isZero => elements (by simp [isZero])
    let c : Tensor Bool := ofFn [first] fun index => decide (index = [0])
    let x : Tensor Bool := ofFn (first :: (front ++ [first])) fun _ => true
    let y : Tensor Bool := ofFn (first :: (front ++ [first])) fun _ => false
    refine ⟨c, x, y, rfl, rfl, rfl, fun same => ?_⟩
    have sameShape : x.shape = y.shape := rfl
    have wide : broadcast c.shape x.shape =
        some (first :: (front ++ [first])) := by
      rw [shape_ofFn, shape_ofFn, fits, stretch_self, Option.map_some]
    rw [select_eq sameShape wide] at same
    have valid : Valid (first :: (front ++ [first]))
        (0 :: (List.replicate front.length 0 ++ [1])) := by
      refine .cons positive
        (Valid.append (valid_zeros ?_) (.cons (by omega) .nil))
      exact fun empty =>
        elements (List.mem_cons_of_mem _ (List.mem_append_left _ empty))
    have inner : stretched c (0 :: (List.replicate front.length 0 ++ [1])) =
        false := by
      have atColumn :=
        @get_expand_vector Bool _ c (0 :: List.replicate front.length 0)
          first 1 rfl
      have column : Valid [first] [1] := .cons (by omega) .nil
      rw [clip_valid column, get_ofFn _ column] at atColumn
      exact atColumn
    have row : Valid [first] [0] := .cons positive .nil
    have rowIndex : conditionIndex [first] (first :: (front ++ [first]))
        (0 :: (List.replicate front.length 0 ++ [1])) = [0] := by
      rw [conditionIndex, if_neg (List.cons_ne_nil _ _), if_neg notSame,
        List.take_succ_cons, List.take_zero]
    have atRow : c.get [0] = true := (get_ofFn _ row).trans rfl
    have outer : (selectElements id c x y).get
        (0 :: (List.replicate front.length 0 ++ [1])) =
        if c.get (conditionIndex [first] (first :: (front ++ [first]))
          (0 :: (List.replicate front.length 0 ++ [1]))) then
          x.get (0 :: (List.replicate front.length 0 ++ [1]))
        else y.get (0 :: (List.replicate front.length 0 ++ [1])) :=
      get_ofFn _ valid
    have inY : stretched y (0 :: (List.replicate front.length 0 ++ [1])) =
        false := by
      rw [stretched, get_expand_self valid, get_ofFn _ valid]
    have inX : x.get (0 :: (List.replicate front.length 0 ++ [1])) = true :=
      get_ofFn _ valid
    have values :=
      congrArg (fun tensor =>
          tensor.get (0 :: (List.replicate front.length 0 ++ [1])))
      (Option.some.inj same)
    simp only [get_ofFn _ valid, outer, rowIndex, inner, atRow, inY, inX, id_eq,
      Bool.false_eq_true, if_false, if_true] at values
  · refine ⟨ofFn [first] fun _ => true,
      ofFn (first :: (front ++ [last])) fun _ => true,
      ofFn (first :: (front ++ [last])) fun _ => true, rfl, rfl, rfl,
      fun same => ?_⟩
    have shapes := shape_select same
    rw [shape_ofFn, shape_ofFn, broadcast_self, Option.bind_some,
      fits] at shapes
    obtain ⟨dim, stretches, isShape⟩ := Option.map_eq_some_iff.mp shapes
    have isDim : dim = last := by
      have tails := (List.cons.inj isShape).2
      exact List.singleton_inj.mp (List.append_cancel_left tails)
    subst isDim
    cases (stretch_cases stretches).1 with
    | inl same => exact isLast same
    | inr single => exact notSingle single

end Choice

section Translate

variable {opset : Opset} {op : OpNode} {ng_op_map : OpMap} {nodes : Fin 3 → Ng}
  {condition shape : Shape}

/-- Functions on the truth values, with operations that have the shapes of the
opset. -/
def boolLibrary (opset : Opset) : Library Bool opset :=
  { defaultLibrary Bool opset with
    add := or
    relu := id
    clamp := fun _ _ => id
    max := or
    isTrue := id }

theorem SelectInputs.translate
    (inputs : SelectInputs opset op ng_op_map nodes condition shape) {node : Ng}
    (success : translateSelectOp opset op ng_op_map =
      .ok (saveNgOp ng_op_map op.name node)) :
    node = .Select (nodes 0) (nodes 1) (nodes 2) := by
  obtain ⟨found, isFound, success⟩ := bind_ok success
  obtain ⟨built, isBuilt, success⟩ := bind_ok success
  obtain rfl := Except.ok.inj (inputs.inputs.symm.trans isFound)
  obtain ⟨rfl, _⟩ := constructNgNode_inv isBuilt
  exact (saveNgOp_injective (Except.ok.inj success)).symm

theorem SelectInputs.node_shape
    (inputs : SelectInputs opset op ng_op_map nodes condition shape)
    (coincides : Coincides condition shape) :
    (Ng.Select (nodes 0) (nodes 1) (nodes 2)).shape opset = some shape := by
  rw [Ng.shape, inputs.conditionShape, inputs.thenShape, inputs.elseShape]
  simp only [bind, Option.bind_some, broadcast_self]
  exact coincides.fits inputs.admits

/-- The translation chooses as TensorFlow does for conditions that are scalars
or have the shape of the operands; a vector has to be read at the same places
from the front and from the back. -/
theorem translateSelectOp_iff
    (inputs : SelectInputs opset op ng_op_map nodes condition shape) :
    SelectsCorrectly opset op ng_op_map nodes ↔ Coincides condition shape := by
  constructor
  · intro correct
    by_contra differ
    obtain ⟨node, success, chooses⟩ := correct
    obtain ⟨c, x, y, conditionShape, thenShape, elseShape, wrong⟩ :=
      select_ne differ inputs.admits
    obtain ⟨parameters, atC, atX, atY⟩ :=
      inputs.values c x y conditionShape thenShape elseShape (boolLibrary opset)
    have value := chooses Bool (boolLibrary opset) parameters c x y atC atX atY
    rw [inputs.translate success, Ng.eval, atC, atX, atY] at value
    exact wrong value
  · intro coincides
    refine ⟨.Select (nodes 0) (nodes 1) (nodes 2), ?_, ?_⟩
    · have built := constructNgNode_ok (inputs.node_shape coincides)
      rw [translateSelectOp]
      simp only [bind, Except.bind, inputs.inputs, built]
    · intro V _ library parameters c x y atC atX atY
      have conditionShape := (eval_shape atC).symm.trans inputs.conditionShape
      have thenShape := (eval_shape atX).symm.trans inputs.thenShape
      have elseShape := (eval_shape atY).symm.trans inputs.elseShape
      obtain rfl := Option.some.inj conditionShape
      obtain rfl := Option.some.inj thenShape
      rw [Ng.eval, atC, atX, atY]
      exact coincides.select_eq inputs.admits (Option.some.inj elseShape).symm

end Translate

def selectOp : OpNode where
  name := "select"
  type_string := "Select"
  attrs := []
  listAttrs := []
  floatAttrs := []
  inputs := [(⟨"condition", "_Arg", [], none⟩, 0), (⟨"t", "_Arg", [], none⟩, 0),
    (⟨"e", "_Arg", [], none⟩, 0)]

def selectNodes (condition shape : Shape) : Fin 3 → Ng
  | 0 => .Parameter 0 condition
  | 1 => .Parameter 1 shape
  | 2 => .Parameter 2 shape

/-- The values of the parameters. -/
def operands (c x y : Tensor Bool) : Nat → Tensor Bool
  | 0 => c
  | 1 => x
  | _ => y

def selectOpMap (condition shape : Shape) : OpMap :=
  [("condition", [.Parameter 0 condition]), ("t", [.Parameter 1 shape]),
    ("e", [.Parameter 2 shape])]

theorem selectOp_inputs {condition shape : Shape}
    (admits : AdmitsCondition condition shape) :
    SelectInputs noRules selectOp (selectOpMap condition shape)
      (selectNodes condition shape) condition shape where
  inputs := by
    apply @getInputNodes_ok _ _ 3 _ rfl
    intro i
    match i with
    | 0 => rfl
    | 1 => rfl
    | 2 => rfl
  conditionShape := rfl
  thenShape := rfl
  elseShape := rfl
  admits := admits
  values := by
    intro c x y isC isX isY library
    exact ⟨operands c x y, if_pos isC, if_pos isX, if_pos isY⟩

/-- Of two rows of two columns the first row is to be chosen. -/
theorem translateSelectOp_columns :
    SelectInputs noRules selectOp (selectOpMap [2] [2, 2])
      (selectNodes [2] [2, 2]) [2] [2, 2] ∧
      ¬ SelectsCorrectly noRules selectOp (selectOpMap [2] [2, 2])
        (selectNodes [2] [2, 2]) := by
  have inputs := @selectOp_inputs [2] [2, 2] (.inr (.inr ⟨2, [2], rfl, rfl⟩))
  refine ⟨inputs, fun correct => ?_⟩
  obtain ⟨node, success, chooses⟩ := correct
  have value := chooses Bool (boolLibrary noRules)
    (operands ⟨[2], [true, false], rfl⟩ ⟨[2, 2], [true, true, true, true], rfl⟩
      ⟨[2, 2], [false, false, false, false], rfl⟩) _ _ _ rfl rfl rfl
  rw [inputs.translate success] at value
  exact absurd (congrArg (Option.map Tensor.data) value) (by decide)

theorem translateSelectOp_iff_scalar :
    SelectsCorrectly noRules selectOp (selectOpMap [] [2, 2])
      (selectNodes [] [2, 2]) :=
  (translateSelectOp_iff (selectOp_inputs (.inl rfl))).mpr (.inl rfl)

end NGraphBridge.NGraphBuilder
