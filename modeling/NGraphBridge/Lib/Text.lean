import Mathlib.Data.List.Basic
import Mathlib.Data.List.TakeWhile
import Mathlib.Data.String.Basic

/-!
# Reading text back

A text that is written piece by piece can be read back when every piece says
where it ends.  This file has the ways in which a piece can say so.
-/

namespace NGraphBridge.Text

section Split

variable {α : Type*} {ends : α → Prop}

/-- The rest of a text starts with a symbol that ends a piece, or is empty. -/
def Delimited (ends : α → Prop) (rest : List α) : Prop :=
  ∀ symbol ∈ rest.head?, ends symbol

theorem delimited_nil : Delimited ends [] := by
  simp [Delimited]

theorem delimited_cons {symbol : α} {rest : List α} (isEnd : ends symbol) :
    Delimited ends (symbol :: rest) := by
  simpa [Delimited] using isEnd

/-- A piece without end symbols is read up to the first of them. -/
theorem split_unique {left right leftRest rightRest : List α}
    (leftPlain : ∀ symbol ∈ left, ¬ ends symbol)
    (rightPlain : ∀ symbol ∈ right, ¬ ends symbol)
    (leftEnds : Delimited ends leftRest) (rightEnds : Delimited ends rightRest)
    (same : left ++ leftRest = right ++ rightRest) :
    left = right ∧ leftRest = rightRest := by
  induction left generalizing right with
  | nil =>
      cases right with
      | nil => exact ⟨rfl, same⟩
      | cons symbol right =>
          simp only [List.nil_append, List.cons_append] at same
          rw [same] at leftEnds
          exact absurd (leftEnds symbol (by simp)) (rightPlain symbol (by simp))
  | cons head left ih =>
      cases right with
      | nil =>
          simp only [List.nil_append, List.cons_append] at same
          rw [← same] at rightEnds
          exact absurd (rightEnds head (by simp)) (leftPlain head (by simp))
      | cons symbol right =>
          simp only [List.cons_append, List.cons.injEq] at same
          obtain ⟨rfl, rest⟩ := same
          obtain ⟨sameLeft, sameRest⟩ := ih
            (fun symbol member => leftPlain symbol (by simp [member]))
            (fun symbol member => rightPlain symbol (by simp [member])) rest
          exact ⟨by rw [sameLeft], sameRest⟩

end Split

theorem toDigits_injective {left right : Nat}
    (same : Nat.toDigits 10 left = Nat.toDigits 10 right) : left = right := by
  have leftBack :=
    Nat.ofDigitChars_toDigits (b := 10) (n := left) (by decide) (by decide)
  have rightBack :=
    Nat.ofDigitChars_toDigits (b := 10) (n := right) (by decide) (by decide)
  rw [same, rightBack] at leftBack
  exact leftBack.symm

/-- The characters of a decimal number. -/
def IsNumeral (c : Char) : Prop := c.isDigit = true ∨ c = '-'

theorem isNumeral_of_mem_toDigits {n : Nat} {c : Char}
    (member : c ∈ Nat.toDigits 10 n) : IsNumeral c :=
  .inl (Nat.isDigit_of_mem_toDigits (by decide) (by decide) member)

theorem natText (n : Nat) : (toString n).toList = Nat.toDigits 10 n := by
  rw [Nat.toString_eq_repr, Nat.toList_repr]

theorem intText (i : Int) : (toString i).toList =
    if i < 0 then '-' :: Nat.toDigits 10 i.natAbs
      else Nat.toDigits 10 i.natAbs := by
  cases i with
  | ofNat n => simp [toString, Int.repr]
  | negSucc n => simp [toString, Int.repr, Int.negSucc_lt_zero]

theorem isNumeral_of_mem_intText {i : Int} {c : Char}
    (member : c ∈ (toString i).toList) : IsNumeral c := by
  rw [intText] at member
  split at member
  · rcases List.mem_cons.mp member with rfl | digit
    · exact .inr rfl
    · exact isNumeral_of_mem_toDigits digit
  · exact isNumeral_of_mem_toDigits member

theorem intText_injective {left right : Int}
    (same : (toString left).toList = (toString right).toList) :
    left = right := by
  have noSign : ∀ {n : Nat} {rest : List Char},
      Nat.toDigits 10 n ≠ '-' :: rest := by
    intro n rest equal
    have sign : '-' ∈ Nat.toDigits 10 n := by simp [equal]
    have digit := Nat.isDigit_of_mem_toDigits (b := 10) (by decide)
      (by decide) sign
    exact absurd digit (by decide)
  rw [intText, intText] at same
  by_cases leftNegative : left < 0
  · by_cases rightNegative : right < 0
    · rw [if_pos leftNegative, if_pos rightNegative, List.cons.injEq] at same
      have sizes := toDigits_injective same.2
      omega
    · rw [if_pos leftNegative, if_neg rightNegative] at same
      exact absurd same.symm noSign
  · by_cases rightNegative : right < 0
    · rw [if_neg leftNegative, if_pos rightNegative] at same
      exact absurd same noSign
    · rw [if_neg leftNegative, if_neg rightNegative] at same
      have sizes := toDigits_injective same
      omega

theorem append_natText_injective {stem : String} {left right : Nat}
    (same : stem ++ toString left = stem ++ toString right) : left = right := by
  have texts := congrArg String.toList same
  rw [String.toList_append, String.toList_append, natText, natText] at texts
  exact toDigits_injective (List.append_cancel_left texts)

theorem append_intText_injective {stem : String} {left right : Int}
    (same : stem ++ toString left = stem ++ toString right) : left = right := by
  have texts := congrArg String.toList same
  rw [String.toList_append, String.toList_append] at texts
  exact intText_injective (List.append_cancel_left texts)

/-- `absl::StrSplit` at one character. -/
def strSplit (separator : Char) (text : String) : List String :=
  (text.toList.splitOn separator).map String.ofList

/-- `std::stoi` of a text that starts with neither a blank nor a sign. -/
def stoi (text : String) : Option Nat :=
  match text.toList.takeWhile Char.isDigit with
  | [] => none
  | digits => some (Nat.ofDigitChars 10 digits 0)

theorem strSplit_pair {separator : Char} {left right : String}
    (leftPlain : separator ∉ left.toList)
    (rightPlain : separator ∉ right.toList) :
    strSplit separator (left ++ String.singleton separator ++ right) =
      [left, right] := by
  have text : (left ++ String.singleton separator ++ right).toList =
      left.toList ++ separator :: right.toList := by
    simp
  rw [strSplit, text, List.splitOn_append_cons_self_of_not_mem leftPlain,
    List.splitOn_eq_singleton rightPlain]
  simp

theorem stoi_natText (n : Nat) : stoi (toString n) = some n := by
  have digits : (Nat.toDigits 10 n).takeWhile Char.isDigit =
      Nat.toDigits 10 n := by
    rw [List.takeWhile_eq_self_iff]
    intro c member
    exact Nat.isDigit_of_mem_toDigits (by decide) (by decide) member
  have back := Nat.ofDigitChars_toDigits (b := 10) (n := n) (by decide)
    (by decide)
  rw [stoi, natText, digits]
  cases text : Nat.toDigits 10 n with
  | nil => exact absurd text Nat.toDigits_ne_nil
  | cons c rest =>
      rw [text] at back
      simpa using back

theorem not_mem_natText {c : Char} (plain : c.isDigit = false) (n : Nat) :
    c ∉ (toString n).toList := by
  intro member
  rw [natText] at member
  have digit := Nat.isDigit_of_mem_toDigits (b := 10) (by decide)
    (by decide) member
  rw [plain] at digit
  exact absurd digit (by simp)

/-- `absl::StrJoin`. -/
def strJoin (separator : String) : List String → String
  | [] => ""
  | [piece] => piece
  | piece :: pieces => piece ++ separator ++ strJoin separator pieces

theorem strJoin_cons (separator piece : String) (pieces : List String) :
    (strJoin separator (piece :: pieces)).toList =
      piece.toList ++
        pieces.flatMap (fun piece => separator.toList ++ piece.toList) := by
  induction pieces generalizing piece with
  | nil => simp [strJoin]
  | cons next pieces ih =>
      rw [strJoin]
      · simp only [String.toList_append, ih, List.flatMap_cons,
          List.append_assoc]
      · simp

end NGraphBridge.Text
