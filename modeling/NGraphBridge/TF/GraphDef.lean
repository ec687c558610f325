import NGraphBridge.Lib.Text
import NGraphBridge.TF.Graph

/-!
# Serialized graphs

The part of `GraphDef` that the bridge writes: nodes that name their inputs.
-/

namespace NGraphBridge.TF

structure NodeDef where
  name : String
  op : String
  input : List String
  attr : AttrMap
  deriving DecidableEq, Repr

structure GraphDef where
  node : List NodeDef
  deriving DecidableEq, Repr

namespace GraphDef

def empty : GraphDef := ⟨[]⟩

def add_node (gdef : GraphDef) (node_def : NodeDef) : GraphDef :=
  ⟨gdef.node ++ [node_def]⟩

end GraphDef

/-- `ParseTensorName`: a name, `^` and a name, or a name, a colon and digits. -/
def parseTensorName (name : String) : String × Int :=
  let backwards := name.toList.reverse
  match backwards.takeWhile Char.isDigit, backwards.dropWhile Char.isDigit with
  | digit :: digits, ':' :: base :: more =>
      (String.ofList (base :: more).reverse,
        Nat.ofDigitChars 10 (digit :: digits).reverse 0)
  | _, _ =>
      match name.toList with
      | '^' :: base => (String.ofList base, kControlSlot)
      | _ => (name, 0)

section Parse

variable {name : String}

theorem LegalName.chars (legal : LegalName name) {c : Char}
    (member : c ∈ name.toList) :
    c ≠ ':' ∧ c ≠ '^' := by
  have nameChar := legal.2 c member
  refine ⟨?_, ?_⟩
  · rintro rfl
    exact absurd nameChar (by decide)
  · rintro rfl
    exact absurd nameChar (by decide)

/-- A name stands for its first output. -/
theorem parseTensorName_name (legal : LegalName name) :
    parseTensorName name = (name, 0) := by
  unfold parseTensorName
  have noColon : ∀ c ∈ name.toList.reverse.dropWhile Char.isDigit, c ≠ ':' := by
    intro c member
    have inName := (List.dropWhile_sublist _).mem member
    exact (legal.chars (List.mem_reverse.mp inName)).1
  dsimp only
  split
  case h_1 _ _ _ _ _ _ atDrop =>
    exact absurd rfl (noColon ':' (by simp [atDrop]))
  case h_2 =>
    split
    case h_1 base atName =>
      have caret : '^' ∈ name.toList := by simp [atName]
      exact absurd rfl (legal.chars caret).2
    case h_2 => rfl

theorem parseTensorName_control (legal : LegalName name) :
    parseTensorName ("^" ++ name) = (name, kControlSlot) := by
  have chars : ("^" ++ name).toList = '^' :: name.toList := by
    rw [String.toList_append]
    rfl
  unfold parseTensorName
  have noColon : ∀ c ∈ ("^" ++ name).toList.reverse.dropWhile Char.isDigit,
      c ≠ ':' := by
    intro c member
    have inText := List.mem_reverse.mp ((List.dropWhile_sublist _).mem member)
    rw [chars, List.mem_cons] at inText
    cases inText with
    | inl caret => simp [caret]
    | inr inName => exact (legal.chars inName).1
  dsimp only
  split
  case h_1 _ _ _ _ _ _ atDrop =>
    exact absurd rfl (noColon ':' (atDrop ▸ List.mem_cons_self))
  case h_2 =>
    rw [chars]
    simp

/-- An output is read back from the text of its number. -/
theorem parseTensorName_output (legal : LegalName name) (slot : Nat) :
    parseTensorName (name ++ ":" ++ toString slot) = (name, (slot : Int)) := by
  have backwards : (name ++ ":" ++ toString slot).toList.reverse =
      (Nat.toDigits 10 slot).reverse ++ ':' :: name.toList.reverse := by
    simp [String.toList_append]
  have digits : ∀ c ∈ (Nat.toDigits 10 slot).reverse, c.isDigit = true := by
    intro c member
    exact Nat.isDigit_of_mem_toDigits (by decide) (by decide)
      (List.mem_reverse.mp member)
  have taken : (name ++ ":" ++ toString slot).toList.reverse.takeWhile
      Char.isDigit =
      (Nat.toDigits 10 slot).reverse := by
    rw [backwards, List.takeWhile_append_of_pos digits]
    simp
  have dropped :
      (name ++ ":" ++ toString slot).toList.reverse.dropWhile Char.isDigit =
      ':' :: name.toList.reverse := by
    rw [backwards, List.dropWhile_append_of_pos digits]
    rfl
  have digitsThere : (Nat.toDigits 10 slot).reverse ≠ [] := by
    simp [Nat.toDigits_ne_nil]
  have nameThere : name.toList.reverse ≠ [] := by
    intro noName
    exact legal.1
      (String.toList_eq_nil_iff.mp (List.reverse_eq_nil_iff.mp noName))
  unfold parseTensorName
  dsimp only
  rw [taken, dropped]
  obtain ⟨digit, more, atDigits⟩ := List.exists_cons_of_ne_nil digitsThere
  obtain ⟨last, before, atName⟩ := List.exists_cons_of_ne_nil nameThere
  rw [atDigits, atName]
  change (String.ofList (last :: before).reverse,
    (Nat.ofDigitChars 10 (digit :: more).reverse 0 : Int)) = _
  rw [← atDigits, ← atName, List.reverse_reverse, List.reverse_reverse,
    String.ofList_toList,
    Nat.ofDigitChars_toDigits (by decide) (by decide)]

end Parse

end NGraphBridge.TF
