import NGraphBridge.NGraphEncapsulateOp.Cache
import NGraphBridge.TF.TensorStream

/-!
# Signatures of input tensors

The executables of a kernel are kept under a text made of the input shapes and
of the elements of the static inputs.
-/

namespace NGraphBridge.NGraphEncapsulateOp

open TF

/-- An input of a kernel: its type and whether its values are known when the
kernel's graph is translated. -/
structure KernelInput where
  dtype : DataType
  is_static : Bool

def dimsText (dims : List Nat) : List Char :=
  dims.flatMap fun dim => natText dim ++ [',']

def shapesText (tf_input_tensors : List TF.Tensor) : List Char :=
  tf_input_tensors.flatMap fun tensor => dimsText tensor.shape ++ [';']

def staticsText : List KernelInput → List TF.Tensor → StatusOr (List Char)
  | input :: inputs, tensor :: tensors =>
      if input.is_static then do
        let text ← TensorToStream tensor
        let rest ← staticsText inputs tensors
        return text ++ ';' :: rest
      else
        staticsText inputs tensors
  | _, _ => .ok []

def signatureText (kernel : List KernelInput)
    (tf_input_tensors : List TF.Tensor) : StatusOr (List Char) := do
  let statics ← staticsText kernel tf_input_tensors
  return shapesText tf_input_tensors ++ '/' :: statics

/-- The signature that `GetExecutable` looks an executable up by. -/
def signature (kernel : List KernelInput) (tf_input_tensors : List TF.Tensor) :
    StatusOr String := do
  let text ← signatureText kernel tf_input_tensors
  return String.ofList text

/-- The tensors have the kernel's arity and types. -/
def Takes (kernel : List KernelInput) (tensors : List TF.Tensor) : Prop :=
  tensors.map TF.Tensor.dtype = kernel.map KernelInput.dtype

/-- Two lists agree in every shape, and a list of tensors agrees with another in
every static input. -/
structure Agree (kernel : List KernelInput) (left right : List TF.Tensor) :
    Prop where
  shapes : left.map TF.Tensor.shape = right.map TF.Tensor.shape
  statics : ∀ (i : Nat) (input : KernelInput), kernel[i]? = some input →
    input.is_static = true → left[i]? = right[i]?

/-- Equal signatures mean equal shapes and equal static inputs. -/
def SignaturesDetermine (kernel : List KernelInput) : Prop :=
  ∀ left right : List TF.Tensor, Takes kernel left → Takes kernel right →
    ∀ text : String, signature kernel left = .ok text →
    signature kernel right = .ok text →
    Agree kernel left right

theorem natText_not_semicolon {n : Nat} {symbol : Char}
    (member : symbol ∈ natText n) :
    symbol ≠ ';' := by
  intro isEnd
  have numeral := natText_numeral member
  subst isEnd
  simp [Text.IsNumeral] at numeral

theorem natText_ne_nil (n : Nat) : natText n ≠ [] := by
  rw [natText, Text.natText]
  exact Nat.toDigits_ne_nil

theorem dimsText_cons (dim : Nat) (dims : List Nat) :
    dimsText (dim :: dims) = natText dim ++ ',' :: dimsText dims := by
  simp [dimsText]

theorem natText_append_ne {n : Nat} {rest others : List Char} :
    natText n ++ rest ≠ ';' :: others := by
  intro same
  cases digits : natText n with
  | nil => exact natText_ne_nil n digits
  | cons symbol symbols =>
      rw [digits, List.cons_append, List.cons.injEq] at same
      exact natText_not_semicolon (n := n) (by simp [digits]) same.1

theorem dimsText_unique {left right : List Nat} {leftRest rightRest : List Char}
    (same : dimsText left ++ ';' :: leftRest = dimsText right ++ ';' ::
      rightRest) :
    left = right ∧ leftRest = rightRest := by
  induction left generalizing right with
  | nil =>
      cases right with
      | nil => exact ⟨rfl, by simpa [dimsText] using same⟩
      | cons dim right =>
          rw [dimsText_cons, List.append_assoc] at same
          exact absurd same.symm natText_append_ne
  | cons dim left ih =>
      cases right with
      | nil =>
          rw [dimsText_cons, List.append_assoc] at same
          exact absurd same natText_append_ne
      | cons other right =>
          rw [dimsText_cons, dimsText_cons, List.append_assoc,
            List.append_assoc, List.cons_append, List.cons_append] at same
          obtain ⟨sameDim, sameTail⟩ := readable_natText _ _ _ _ same
          obtain ⟨sameDims, sameRest⟩ := ih sameTail
          exact ⟨by rw [sameDim, sameDims], sameRest⟩

theorem shapesText_cons (tensor : TF.Tensor) (tensors : List TF.Tensor) :
    shapesText (tensor :: tensors) = dimsText tensor.shape ++ ';' ::
      shapesText tensors := by
  simp [shapesText]

theorem shapesText_unique {left right : List TF.Tensor}
    (lengths : left.length = right.length) {leftRest rightRest : List Char}
    (same : shapesText left ++ leftRest = shapesText right ++ rightRest) :
    left.map TF.Tensor.shape = right.map TF.Tensor.shape ∧
    leftRest = rightRest := by
  induction left generalizing right with
  | nil =>
      cases right with
      | nil => exact ⟨rfl, same⟩
      | cons tensor right => simp at lengths
  | cons tensor left ih =>
      cases right with
      | nil => simp at lengths
      | cons other right =>
          rw [shapesText_cons, shapesText_cons, List.append_assoc,
            List.append_assoc, List.cons_append, List.cons_append] at same
          obtain ⟨sameShape, sameTail⟩ := dimsText_unique same
          obtain ⟨sameShapes, sameRest⟩ := ih (by simpa using lengths) sameTail
          exact ⟨by rw [List.map_cons, List.map_cons, sameShape, sameShapes],
            sameRest⟩

/-- Every static input has a type whose elements are read back from their
text. -/
def StaticsExact (kernel : List KernelInput) : Prop :=
  ∀ input ∈ kernel, input.is_static = true → isFloating input.dtype = false

/-- A tensor is read back from its text, given its shape. -/
theorem TensorToStream_unique {left right : TF.Tensor}
    (dtypes : left.dtype = right.dtype) (exact : isFloating left.dtype = false)
    (shapes : left.shape = right.shape)
    {leftText rightText leftRest rightRest : List Char}
    (leftWritten : TensorToStream left = .ok leftText)
    (rightWritten : TensorToStream right = .ok rightText)
    (same : leftText ++ leftRest = rightText ++ rightRest) :
    left = right ∧ leftRest = rightRest := by
  cases left with
  | mk dtype shape data sized =>
      cases right with
      | mk otherDtype otherShape otherData otherSized =>
          dsimp only at dtypes shapes
          subst dtypes shapes
          obtain ⟨write, written, leftText_eq⟩ := bind_ok leftWritten
          obtain ⟨other, otherWritten, rightText_eq⟩ := bind_ok rightWritten
          dsimp only at written otherWritten
          rw [written] at otherWritten
          cases otherWritten
          cases leftText_eq
          cases rightText_eq
          obtain ⟨sameData, sameRest⟩ := TensorDataToStream_unique
            (elementWriter_readable written exact)
            (sized.trans otherSized.symm) same
          subst sameData
          exact ⟨rfl, sameRest⟩

theorem staticsText_unique {kernel : List KernelInput}
    {left right : List TF.Tensor}
    (takesLeft : Takes kernel left) (takesRight : Takes kernel right)
    (exact : StaticsExact kernel)
    (shapes : left.map TF.Tensor.shape = right.map TF.Tensor.shape)
    {text : List Char} (leftWritten : staticsText kernel left = .ok text)
    (rightWritten : staticsText kernel right = .ok text)
    (i : Nat) (input : KernelInput) (present : kernel[i]? = some input)
    (static : input.is_static = true) : left[i]? = right[i]? := by
  induction kernel generalizing left right text i with
  | nil => simp at present
  | cons first kernel ih =>
      cases left with
      | nil => simp [Takes] at takesLeft
      | cons tensor left =>
          cases right with
          | nil => simp [Takes] at takesRight
          | cons other right =>
              simp only [Takes, List.map_cons,
                List.cons.injEq] at takesLeft takesRight shapes
              have restExact : StaticsExact kernel := by
                intro input member
                exact exact input (by simp [member])
              rw [staticsText] at leftWritten rightWritten
              cases isStatic : first.is_static with
              | false =>
                  rw [isStatic, if_neg (by simp)] at leftWritten rightWritten
                  cases i with
                  | zero =>
                      cases present
                      rw [isStatic] at static
                      cases static
                  | succ i =>
                      exact ih takesLeft.2 takesRight.2 restExact shapes.2
                        leftWritten
                        rightWritten i present
              | true =>
                  rw [isStatic, if_pos rfl] at leftWritten rightWritten
                  obtain ⟨leftText, leftStream, leftWritten⟩ :=
                    bind_ok leftWritten
                  obtain ⟨leftRest, leftStatics, leftWritten⟩ :=
                    bind_ok leftWritten
                  obtain ⟨rightText, rightStream, rightWritten⟩ :=
                    bind_ok rightWritten
                  obtain ⟨rightRest, rightStatics, rightWritten⟩ :=
                    bind_ok rightWritten
                  cases leftWritten
                  have texts := Except.ok.inj rightWritten
                  have firstExact : isFloating tensor.dtype = false := by
                    rw [takesLeft.1]
                    exact exact first (by simp) isStatic
                  obtain ⟨sameTensor, sameRest⟩ := TensorToStream_unique
                    (takesLeft.1.trans takesRight.1.symm) firstExact shapes.1
                    leftStream rightStream texts.symm
                  rw [List.cons.injEq] at sameRest
                  rw [← sameRest.2] at rightStatics
                  cases i with
                  | zero => simp [sameTensor]
                  | succ i =>
                      exact ih takesLeft.2 takesRight.2 restExact shapes.2
                        leftStatics
                        rightStatics i present

theorem Takes.length {kernel : List KernelInput} {tensors : List TF.Tensor}
    (takes : Takes kernel tensors) : tensors.length = kernel.length := by
  have lengths := congrArg List.length takes
  simpa using lengths

theorem signature_ok {kernel : List KernelInput} {tensors : List TF.Tensor}
    {text : String} (computed : signature kernel tensors = .ok text) :
    ∃ statics, staticsText kernel tensors = .ok statics ∧
      text.toList = shapesText tensors ++ '/' :: statics := by
  obtain ⟨chars, charsComputed, text_eq⟩ := bind_ok computed
  obtain ⟨statics, staticsComputed, chars_eq⟩ := bind_ok charsComputed
  refine ⟨statics, staticsComputed, ?_⟩
  cases text_eq
  cases chars_eq
  exact String.toList_ofList

/-- Equal signatures always mean equal shapes and equal texts of the static
inputs. -/
theorem signature_parts {kernel : List KernelInput}
    {left right : List TF.Tensor} (takesLeft : Takes kernel left)
    (takesRight : Takes kernel right) {text : String}
    (leftComputed : signature kernel left = .ok text)
    (rightComputed : signature kernel right = .ok text) :
    left.map TF.Tensor.shape = right.map TF.Tensor.shape ∧
      ∃ statics, staticsText kernel left = .ok statics ∧
        staticsText kernel right = .ok statics := by
  obtain ⟨leftStatics, leftWritten, leftText⟩ := signature_ok leftComputed
  obtain ⟨rightStatics, rightWritten, rightText⟩ := signature_ok rightComputed
  obtain ⟨shapes, rest⟩ :=
    shapesText_unique (takesLeft.length.trans takesRight.length.symm)
      (leftText.symm.trans rightText)
  rw [List.cons.injEq] at rest
  rw [← rest.2] at rightWritten
  exact ⟨shapes, leftStatics, leftWritten, rightWritten⟩

theorem agree_of_exact {kernel : List KernelInput}
    (exact : StaticsExact kernel) :
    SignaturesDetermine kernel := by
  intro left right takesLeft takesRight text leftComputed rightComputed
  obtain ⟨shapes, statics, leftWritten, rightWritten⟩ :=
    signature_parts takesLeft takesRight leftComputed rightComputed
  constructor
  · exact shapes
  · exact staticsText_unique takesLeft takesRight exact shapes leftWritten
      rightWritten

def IsWritten (dtype : DataType) : Prop :=
  ∃ write, elementWriter dtype = .ok write

theorem isWritten_of_staticsText {kernel : List KernelInput}
    {tensors : List TF.Tensor} (takes : Takes kernel tensors) {text : List Char}
    (computed : staticsText kernel tensors = .ok text) {input : KernelInput}
    (member : input ∈ kernel) (static : input.is_static = true) :
    IsWritten input.dtype := by
  induction kernel generalizing tensors text with
  | nil => simp at member
  | cons first kernel ih =>
      cases tensors with
      | nil => simp [Takes] at takes
      | cons tensor tensors =>
          simp only [Takes, List.map_cons, List.cons.injEq] at takes
          rw [staticsText] at computed
          rcases List.mem_cons.mp member with same | later
          · subst same
            rw [static, if_pos rfl] at computed
            obtain ⟨text, stream, computed⟩ := bind_ok computed
            obtain ⟨write, written, stream⟩ := bind_ok stream
            rw [← takes.1]
            exact ⟨write, written⟩
          · cases isStatic : first.is_static with
            | false =>
                rw [isStatic, if_neg (by simp)] at computed
                exact ih takes.2 computed later
            | true =>
                rw [isStatic, if_pos rfl] at computed
                obtain ⟨text, stream, computed⟩ := bind_ok computed
                obtain ⟨rest, statics, computed⟩ := bind_ok computed
                exact ih takes.2 statics later

theorem determine_of_unwritten {kernel : List KernelInput} {input : KernelInput}
    (member : input ∈ kernel) (static : input.is_static = true)
    (unwritten : ¬ IsWritten input.dtype) : SignaturesDetermine kernel := by
  intro left right takesLeft _takesRight text leftComputed _rightComputed
  obtain ⟨statics, written, _text⟩ := signature_ok leftComputed
  exact absurd (isWritten_of_staticsText takesLeft written member static)
    unwritten

/-- One, a not-a-number for `DT_HALF`, and zero for the types that are not
floating point. -/
def firstElement : (dtype : DataType) → Element dtype
  | .DT_HALF => (0x7e00 : BitVec 16)
  | .DT_FLOAT => (0x3f800000 : BitVec 32)
  | .DT_DOUBLE => (0x3ff0000000000000 : BitVec 64)
  | .DT_INT32 | .DT_QINT32 | .DT_UINT32 => (0 : BitVec 32)
  | .DT_INT64 | .DT_UINT64 | .DT_COMPLEX64 => (0 : BitVec 64)
  | .DT_BFLOAT16 | .DT_INT16 | .DT_QINT16 | .DT_UINT16 | .DT_QUINT16 =>
      (0 : BitVec 16)
  | .DT_INT8 | .DT_QINT8 | .DT_UINT8 | .DT_QUINT8 => (0 : BitVec 8)
  | .DT_BOOL => false
  | .DT_COMPLEX128 => (0 : BitVec 128)
  | .DT_STRING | .DT_RESOURCE | .DT_VARIANT => (0 : Nat)

/-- The next element of a floating point type, and the same one of any other. -/
def secondElement : (dtype : DataType) → Element dtype
  | .DT_HALF => (0x7e01 : BitVec 16)
  | .DT_FLOAT => (0x3f800001 : BitVec 32)
  | .DT_DOUBLE => (0x3ff0000000000001 : BitVec 64)
  | dtype => firstElement dtype

theorem half_written_alike :
    FloatFormat.half.text 0x7e00 = FloatFormat.half.text 0x7e01 := by
  decide

theorem single_written_alike :
    FloatFormat.single.text 0x3f800000 =
      FloatFormat.single.text 0x3f800001 := by
  decide

theorem double_written_alike :
    FloatFormat.double.text 0x3ff0000000000000 =
      FloatFormat.double.text 0x3ff0000000000001 := by
  decide

theorem elements_written_alike {dtype : DataType}
    {write : Element dtype → List Char}
    (written : elementWriter dtype = .ok write) :
    write (firstElement dtype) = write (secondElement dtype) := by
  cases dtype with
  | DT_HALF => cases written; exact half_written_alike
  | DT_FLOAT => cases written; exact single_written_alike
  | DT_DOUBLE => cases written; exact double_written_alike
  | _ => rfl

theorem elements_differ {dtype : DataType}
    (floating : isFloating dtype = true) :
    firstElement dtype ≠ secondElement dtype := by
  cases dtype with
  | DT_HALF => decide
  | DT_FLOAT => decide
  | DT_DOUBLE => decide
  | _ => cases floating

def scalars (element : (dtype : DataType) → Element dtype)
    (kernel : List KernelInput) : List TF.Tensor :=
  kernel.map fun input => TF.Tensor.scalar input.dtype (element input.dtype)

theorem takes_scalars (element : (dtype : DataType) → Element dtype)
    (kernel : List KernelInput) : Takes kernel (scalars element kernel) := by
  simp [Takes, scalars, TF.Tensor.scalar]

theorem shapesText_scalars (element : (dtype : DataType) → Element dtype)
    (kernel : List KernelInput) :
    shapesText (scalars element kernel) = List.replicate kernel.length ';' := by
  induction kernel with
  | nil => rfl
  | cons input kernel ih =>
      have head : scalars element (input :: kernel) =
          TF.Tensor.scalar input.dtype (element input.dtype) ::
          scalars element kernel := rfl
      rw [head, shapesText_cons, ih]
      rfl

theorem staticsText_scalars {kernel : List KernelInput}
    (written : ∀ input ∈ kernel, input.is_static = true →
      IsWritten input.dtype) :
    ∃ text, staticsText kernel (scalars firstElement kernel) = .ok text ∧
      staticsText kernel (scalars secondElement kernel) = .ok text := by
  induction kernel with
  | nil => exact ⟨[], rfl, rfl⟩
  | cons input kernel ih =>
      obtain ⟨rest, firstRest, secondRest⟩ :=
        ih fun input member => written input (by simp [member])
      simp only [scalars, List.map_cons, staticsText] at firstRest secondRest ⊢
      cases isStatic : input.is_static with
      | false =>
          exact ⟨rest, by simpa using firstRest, by simpa using secondRest⟩
      | true =>
          obtain ⟨write, writer⟩ := written input (by simp) isStatic
          have alike := elements_written_alike writer
          refine ⟨write (firstElement input.dtype) ++ ',' :: ';' :: rest, ?_,
            ?_⟩
          · rw [firstRest]
            simp [TensorToStream, TF.Tensor.scalar, writer, TensorDataToStream,
              bind, Except.bind, pure, Except.pure]
          · rw [secondRest]
            simp [TensorToStream, TF.Tensor.scalar, writer, TensorDataToStream,
              bind, Except.bind, pure, Except.pure, alike]

theorem not_determine_of_floating {kernel : List KernelInput}
    (written : ∀ input ∈ kernel, input.is_static = true → IsWritten input.dtype)
    {input : KernelInput} (member : input ∈ kernel)
    (static : input.is_static = true)
    (floating : isFloating input.dtype = true) :
    ¬ SignaturesDetermine kernel := by
  intro determine
  obtain ⟨statics, firstWritten, secondWritten⟩ := staticsText_scalars written
  have firstSignature : signature kernel (scalars firstElement kernel) =
      .ok
        (String.ofList
          (List.replicate kernel.length ';' ++ '/' :: statics)) := by
    simp [signature, signatureText, firstWritten, shapesText_scalars, bind,
      Except.bind, pure, Except.pure]
  have secondSignature : signature kernel (scalars secondElement kernel) =
      .ok
        (String.ofList
          (List.replicate kernel.length ';' ++ '/' :: statics)) := by
    simp [signature, signatureText, secondWritten, shapesText_scalars, bind,
      Except.bind, pure, Except.pure]
  have agree := determine _ _ (takes_scalars _ _)
    (takes_scalars _ _) _ firstSignature secondSignature
  obtain ⟨i, present⟩ := List.getElem?_of_mem member
  have same := agree.statics i input present static
  simp only [scalars, List.getElem?_map, present, Option.map_some,
    Option.some.injEq] at same
  exact elements_differ floating (TF.Tensor.scalar_injective same)

/-- A kernel's signatures determine its static inputs exactly when none of them
is floating point, or when it can compute no signature at all. -/
theorem signaturesDetermine_iff (kernel : List KernelInput) :
    SignaturesDetermine kernel ↔
      (∃ input ∈ kernel, input.is_static = true ∧ ¬ IsWritten input.dtype) ∨
      (∀ input ∈ kernel, input.is_static = true →
        isFloating input.dtype = false) := by
  constructor
  · intro determine
    by_cases written : ∃ input ∈ kernel, input.is_static = true ∧
        ¬ IsWritten input.dtype
    · exact .inl written
    · apply Or.inr
      intro input member static
      cases floating : isFloating input.dtype with
      | false => rfl
      | true =>
          have allWritten : ∀ input ∈ kernel, input.is_static = true →
              IsWritten input.dtype := by
            intro input member static
            by_contra unwritten
            exact written ⟨input, member, static, unwritten⟩
          exact absurd determine
            (not_determine_of_floating allWritten member static floating)
  · intro condition
    cases condition with
    | inl unwritten =>
        obtain ⟨input, member, static, unwritten⟩ := unwritten
        exact determine_of_unwritten member static unwritten
    | inr exact => exact agree_of_exact exact

/-- A kernel with one static `float` input: `1` and the next number after it
have the same signature. -/
theorem signature_float_collides :
    signature [⟨.DT_FLOAT, true⟩]
    [TF.Tensor.scalar .DT_FLOAT (0x3f800000 : BitVec 32)] =
        .ok ";/1,;" ∧
      signature [⟨.DT_FLOAT, true⟩]
      [TF.Tensor.scalar .DT_FLOAT (0x3f800001 : BitVec 32)] =
        .ok ";/1,;" ∧
      ¬ SignaturesDetermine [⟨.DT_FLOAT, true⟩] := by
  have first : signature [⟨.DT_FLOAT, true⟩]
      [TF.Tensor.scalar .DT_FLOAT (0x3f800000 : BitVec 32)] = .ok ";/1,;" := by
    decide
  have second : signature [⟨.DT_FLOAT, true⟩]
      [TF.Tensor.scalar .DT_FLOAT (0x3f800001 : BitVec 32)] = .ok ";/1,;" := by
    decide
  refine ⟨first, second, ?_⟩
  intro determine
  have takes : ∀ x : BitVec 32,
      Takes [⟨.DT_FLOAT, true⟩] [TF.Tensor.scalar .DT_FLOAT x] :=
    fun _ => rfl
  have agree := determine _ _ (takes _) (takes _) _ first second
  have same := Option.some.inj (agree.statics 0 ⟨.DT_FLOAT, true⟩ rfl rfl)
  have elements : (0x3f800000 : BitVec 32) = 0x3f800001 :=
    TF.Tensor.scalar_injective same
  exact absurd elements (by decide)

end NGraphBridge.NGraphEncapsulateOp
