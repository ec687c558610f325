import NGraphBridge.Lib.Fallible
import NGraphBridge.Lib.Text
import NGraphBridge.TF.Graph

/-!
# Writing tensors to a stream

The elements of a tensor are bit patterns; a stream is a list of characters, one
for each byte.
-/

namespace NGraphBridge.TF

def DataType_Name : DataType → String
  | .DT_FLOAT => "DT_FLOAT"
  | .DT_DOUBLE => "DT_DOUBLE"
  | .DT_INT32 => "DT_INT32"
  | .DT_UINT8 => "DT_UINT8"
  | .DT_INT16 => "DT_INT16"
  | .DT_INT8 => "DT_INT8"
  | .DT_STRING => "DT_STRING"
  | .DT_COMPLEX64 => "DT_COMPLEX64"
  | .DT_INT64 => "DT_INT64"
  | .DT_BOOL => "DT_BOOL"
  | .DT_QINT8 => "DT_QINT8"
  | .DT_QUINT8 => "DT_QUINT8"
  | .DT_QINT32 => "DT_QINT32"
  | .DT_BFLOAT16 => "DT_BFLOAT16"
  | .DT_QINT16 => "DT_QINT16"
  | .DT_QUINT16 => "DT_QUINT16"
  | .DT_UINT16 => "DT_UINT16"
  | .DT_COMPLEX128 => "DT_COMPLEX128"
  | .DT_HALF => "DT_HALF"
  | .DT_RESOURCE => "DT_RESOURCE"
  | .DT_VARIANT => "DT_VARIANT"
  | .DT_UINT32 => "DT_UINT32"
  | .DT_UINT64 => "DT_UINT64"

/-- Elements that are objects rather than plain bits are their handles. -/
def Element : DataType → Type
  | .DT_FLOAT | .DT_INT32 | .DT_QINT32 | .DT_UINT32 => BitVec 32
  | .DT_DOUBLE | .DT_INT64 | .DT_UINT64 | .DT_COMPLEX64 => BitVec 64
  | .DT_HALF | .DT_BFLOAT16 => BitVec 16
  | .DT_INT16 | .DT_QINT16 | .DT_UINT16 | .DT_QUINT16 => BitVec 16
  | .DT_INT8 | .DT_QINT8 | .DT_UINT8 | .DT_QUINT8 => BitVec 8
  | .DT_BOOL => Bool
  | .DT_COMPLEX128 => BitVec 128
  | .DT_STRING | .DT_RESOURCE | .DT_VARIANT => Nat

instance (dtype : DataType) : DecidableEq (Element dtype) := by
  cases dtype <;> (unfold Element; infer_instance)

structure Tensor where
  dtype : DataType
  shape : List Nat
  data : List (Element dtype)
  sized : data.length = shape.prod

namespace Tensor

def scalar (dtype : DataType) (element : Element dtype) : Tensor where
  dtype := dtype
  shape := []
  data := [element]
  sized := rfl

theorem scalar_injective {dtype : DataType} {left right : Element dtype}
    (same : scalar dtype left = scalar dtype right) : left = right := by
  injection same with _dtype _shape datas
  exact (List.cons.inj datas).1

end Tensor

/-- A binary format: the numbers of exponent and fraction bits. -/
structure FloatFormat where
  exponentBits : Nat
  fractionBits : Nat

namespace FloatFormat

def half : FloatFormat := ⟨5, 10⟩
def single : FloatFormat := ⟨8, 23⟩
def double : FloatFormat := ⟨11, 52⟩

variable (format : FloatFormat)

def sign (bits : Nat) : Bool :=
  (bits / 2 ^ (format.exponentBits + format.fractionBits)) % 2 = 1

def field (bits : Nat) : Nat :=
  bits / 2 ^ format.fractionBits % 2 ^ format.exponentBits

def fraction (bits : Nat) : Nat := bits % 2 ^ format.fractionBits

/-- The magnitude of a finite number as a fraction of naturals. -/
def magnitude (bits : Nat) : Nat × Nat :=
  let significand :=
    if format.field bits = 0 then format.fraction bits
    else 2 ^ format.fractionBits + format.fraction bits
  -- one unit of the significand is 2 ^ (up - down)
  let up := max (format.field bits) 1
  let down := 2 ^ (format.exponentBits - 1) - 1 + format.fractionBits
  (significand * 2 ^ (up - down), 2 ^ (down - up))

end FloatFormat

def roundHalfEven (num den : Nat) : Nat :=
  if 2 * (num % den) < den then num / den
  else if den < 2 * (num % den) then num / den + 1
  else if num / den % 2 = 0 then num / den else num / den + 1

/-- The greatest `x` with `10 ^ x ≤ num / den`. -/
def decimalExponent (num den : Nat) : Int :=
  if den ≤ num then ((Nat.toDigits 10 (num / den)).length : Int) - 1
  else -((Nat.toDigits 10 ((den - 1) / num)).length : Int)

/-- The first six significant digits and the exponent of the first. -/
def significantDigits (num den : Nat) : Nat × Int :=
  let exponent := decimalExponent num den
  let digits := roundHalfEven (num * 10 ^ (5 - exponent).toNat)
    (den * 10 ^ (exponent - 5).toNat)
  if digits = 10 ^ 6 then (10 ^ 5, exponent + 1) else (digits, exponent)

def stripZeros (digits : List Char) : List Char :=
  (digits.reverse.dropWhile (· = '0')).reverse

/-- A decimal point is written only before digits. -/
def fractionText (digits : List Char) : List Char :=
  match stripZeros digits with
  | [] => []
  | digits => '.' :: digits

def exponentText (exponent : Int) : List Char :=
  let digits := Nat.toDigits 10 exponent.natAbs
  'e' :: (if exponent < 0 then '-' else '+') ::
    (if digits.length < 2 then '0' :: digits else digits)

def generalText (num den : Nat) : List Char :=
  let (number, exponent) := significantDigits num den
  let digits := Nat.toDigits 10 number
  if exponent < -4 ∨ 6 ≤ exponent then
    digits.take 1 ++ fractionText (digits.drop 1) ++ exponentText exponent
  else if 0 ≤ exponent then
    digits.take (exponent.toNat + 1) ++ fractionText
      (digits.drop (exponent.toNat + 1))
  else
    '0' :: fractionText (List.replicate ((-exponent).toNat - 1) '0' ++ digits)

/-- `operator<<` of a stream in its default format. -/
def FloatFormat.text (format : FloatFormat) (bits : Nat) : List Char :=
  let magnitude := format.magnitude bits
  let unsigned :=
    if format.field bits = 2 ^ format.exponentBits - 1 then
      if format.fraction bits = 0 then ['i', 'n', 'f'] else ['n', 'a', 'n']
    else if magnitude.1 = 0 then ['0']
    else generalText magnitude.1 magnitude.2
  if format.sign bits then '-' :: unsigned else unsigned

def natText (n : Nat) : List Char := (toString n).toList

def intText (i : Int) : List Char := (toString i).toList

/-- How `operator<<` writes an element of each type; 8-bit integers are
characters. -/
def elementWriter : (dtype : DataType) → StatusOr (Element dtype → List Char)
  | .DT_HALF => .ok fun x : BitVec 16 => FloatFormat.half.text x.toNat
  | .DT_FLOAT => .ok fun x : BitVec 32 => FloatFormat.single.text x.toNat
  | .DT_DOUBLE => .ok fun x : BitVec 64 => FloatFormat.double.text x.toNat
  | .DT_UINT32 => .ok fun x : BitVec 32 => natText x.toNat
  | .DT_INT32 => .ok fun x : BitVec 32 => intText x.toInt
  | .DT_UINT8 => .ok fun x : BitVec 8 => [Char.ofNat x.toNat]
  | .DT_QUINT8 => .ok fun x : BitVec 8 => [Char.ofNat x.toNat]
  | .DT_UINT16 => .ok fun x : BitVec 16 => natText x.toNat
  | .DT_QUINT16 => .ok fun x : BitVec 16 => natText x.toNat
  | .DT_INT8 => .ok fun x : BitVec 8 => [Char.ofNat x.toNat]
  | .DT_QINT8 => .ok fun x : BitVec 8 => [Char.ofNat x.toNat]
  | .DT_INT16 => .ok fun x : BitVec 16 => intText x.toInt
  | .DT_QINT16 => .ok fun x : BitVec 16 => intText x.toInt
  | .DT_UINT64 => .ok fun x : BitVec 64 => natText x.toNat
  | .DT_INT64 => .ok fun x : BitVec 64 => intText x.toInt
  | .DT_BOOL => .ok fun x : Bool => if x then ['1'] else ['0']
  | .DT_BFLOAT16 => .error (errors.internal
      "TensorToStream got data type bfloat16. No compatible standard C++ data type.")
  | dtype => .error (errors.internal
      ("TensorToStream got unsupported data type " ++ DataType_Name dtype))

def TensorDataToStream {α : Type} (write : α → List Char) (data : List α) :
    List Char :=
  data.flatMap fun element => write element ++ [',']

def TensorToStream (tensor : Tensor) : StatusOr (List Char) := do
  let write ← elementWriter tensor.dtype
  return TensorDataToStream write tensor.data

/-- An element can be read from the text that ends with its comma. -/
def Readable {α : Type} (write : α → List Char) : Prop :=
  ∀ left right : α, ∀ leftRest rightRest : List Char,
    write left ++ ',' :: leftRest = write right ++ ',' :: rightRest →
    left = right ∧ leftRest = rightRest

theorem not_isNumeral_comma : ¬ Text.IsNumeral ',' := by
  simp [Text.IsNumeral]

theorem readable_of_numeral {α : Type} {write : α → List Char}
    (numeral : ∀ element, ∀ symbol ∈ write element, Text.IsNumeral symbol)
    (injective : Function.Injective write) : Readable write := by
  intro left right leftRest rightRest same
  have pieces :=
    @Text.split_unique Char (fun symbol => ¬ Text.IsNumeral symbol) _ _ _ _
      (fun symbol member => not_not_intro (numeral left symbol member))
      (fun symbol member => not_not_intro (numeral right symbol member))
      (Text.delimited_cons not_isNumeral_comma)
      (Text.delimited_cons not_isNumeral_comma) same
  exact ⟨injective pieces.1, List.tail_eq_of_cons_eq pieces.2⟩

theorem readable_of_symbol {α : Type} {symbol : α → Char}
    (injective : Function.Injective symbol) :
    Readable fun element => [symbol element] := by
  intro left right leftRest rightRest same
  simp only [List.cons_append, List.nil_append, List.cons.injEq,
    true_and] at same
  exact ⟨injective same.1, same.2⟩

theorem intText_numeral {symbol : Char} {i : Int}
    (member : symbol ∈ intText i) :
    Text.IsNumeral symbol :=
  Text.isNumeral_of_mem_intText member

theorem natText_numeral {symbol : Char} {n : Nat}
    (member : symbol ∈ natText n) :
    Text.IsNumeral symbol := by
  apply Text.isNumeral_of_mem_toDigits (n := n)
  rwa [natText, Text.natText] at member

theorem natText_injective : Function.Injective natText := by
  intro left right same
  apply Text.toDigits_injective
  rwa [natText, natText, Text.natText, Text.natText] at same

theorem readable_natText : Readable natText :=
  readable_of_numeral (fun _ _ member => natText_numeral member)
    natText_injective

theorem readable_unsigned (w : Nat) :
    Readable fun x : BitVec w => natText x.toNat := by
  apply readable_of_numeral
  · intro x symbol member
    exact natText_numeral member
  · intro left right same
    exact BitVec.eq_of_toNat_eq (natText_injective same)

theorem readable_signed (w : Nat) :
    Readable fun x : BitVec w => intText x.toInt := by
  apply readable_of_numeral
  · intro x symbol member
    exact intText_numeral member
  · intro left right same
    exact BitVec.eq_of_toInt_eq (Text.intText_injective same)

theorem readable_byte : Readable fun x : BitVec 8 => [Char.ofNat x.toNat] := by
  apply readable_of_symbol
  intro left right same
  have back : ∀ x : BitVec 8, (Char.ofNat x.toNat).toNat = x.toNat := by
    intro x
    have valid : x.toNat.isValidChar := .inl (by have := x.isLt; omega)
    rw [Char.ofNat, dif_pos valid]
    rfl
  have bytes : (Char.ofNat left.toNat).toNat = (Char.ofNat right.toNat).toNat :=
    congrArg Char.toNat same
  rw [back left, back right] at bytes
  exact BitVec.eq_of_toNat_eq bytes

theorem readable_bool : Readable fun x : Bool => if x then ['1']
    else ['0'] := by
  intro left right leftRest rightRest same
  cases left <;> cases right <;> simp_all

/-- The types that are written with six significant digits. -/
def isFloating : DataType → Bool
  | .DT_HALF | .DT_FLOAT | .DT_DOUBLE => true
  | _ => false

theorem elementWriter_readable {dtype : DataType}
    {write : Element dtype → List Char}
    (written : elementWriter dtype = .ok write)
    (exact : isFloating dtype = false) :
    Readable write := by
  cases dtype with
  | DT_HALF | DT_FLOAT | DT_DOUBLE => cases exact
  | DT_UINT16 | DT_QUINT16 | DT_UINT32 | DT_UINT64 =>
      cases written
      exact readable_unsigned _
  | DT_INT16 | DT_QINT16 | DT_INT32 | DT_INT64 =>
      cases written
      exact readable_signed _
  | DT_INT8 | DT_QINT8 | DT_UINT8 | DT_QUINT8 =>
      cases written
      exact readable_byte
  | DT_BOOL =>
      cases written
      exact readable_bool
  | _ => cases written

/-- Two tensors with as many elements are read from their texts. -/
theorem TensorDataToStream_unique {α : Type} {write : α → List Char}
    (readable : Readable write) {left right : List α}
    (lengths : left.length = right.length) {leftRest rightRest : List Char}
    (same : TensorDataToStream write left ++ leftRest =
      TensorDataToStream write right ++ rightRest) :
    left = right ∧ leftRest = rightRest := by
  induction left generalizing right with
  | nil =>
      cases right with
      | nil => exact ⟨rfl, same⟩
      | cons element right => simp at lengths
  | cons element left ih =>
      cases right with
      | nil => simp at lengths
      | cons other right =>
          simp only [TensorDataToStream, List.flatMap_cons, List.append_assoc,
            List.cons_append, List.nil_append] at same
          obtain ⟨sameElement, sameTail⟩ := readable _ _ _ _ same
          obtain ⟨sameLeft, sameRest⟩ := ih (by simpa using lengths) sameTail
          exact ⟨by rw [sameElement, sameLeft], sameRest⟩

end NGraphBridge.TF
