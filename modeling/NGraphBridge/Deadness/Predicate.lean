import Mathlib.Data.List.Sort
import NGraphBridge.Lib.Text
import NGraphBridge.TF.Graph

/-!
# Deadness predicates

The logical formulas of the deadness analysis and the factory that simplifies
them as it makes them.
-/

namespace NGraphBridge.Deadness

open TF Text

/-- An output of a node; `^name` is its control output. -/
structure TensorId where
  name : String
  index : Int
  deriving DecidableEq, Repr

def TensorId.toString (tensor_id : TensorId) : String :=
  if tensor_id.index = kControlSlot then "^" ++ tensor_id.name
  else tensor_id.name ++ ":" ++ ToString.toString tensor_id.index

inductive Kind where
  | kAnd | kOr | kNot | kSymbol
  deriving DecidableEq, Repr

inductive Predicate where
  | and (operands : List Predicate)
  | or (operands : List Predicate)
  | not (operand : Predicate)
  /-- With `must_be_true` it says that the tensor is live and true, without it
  only that the tensor is live. -/
  | symbol (tensor_id : TensorId) (must_be_true : Bool)

namespace Predicate

def kind : Predicate → Kind
  | .and _ => .kAnd
  | .or _ => .kOr
  | .not _ => .kNot
  | .symbol _ _ => .kSymbol

/-- The operands of a conjunction or a disjunction. -/
def operands : Predicate → List Predicate
  | .and operands => operands
  | .or operands => operands
  | .not _ => []
  | .symbol _ _ => []

@[elab_as_elim, induction_eliminator]
theorem induct {motive : Predicate → Prop}
    (and : ∀ operands, (∀ op ∈ operands, motive op) → motive (.and operands))
    (or : ∀ operands, (∀ op ∈ operands, motive op) → motive (.or operands))
    (not : ∀ operand, motive operand → motive (.not operand))
    (symbol : ∀ tensor_id must_be_true, motive (.symbol tensor_id must_be_true))
    (pred : Predicate) : motive pred := by
  apply @Predicate.rec motive (fun operands => ∀ op ∈ operands, motive op)
  · exact and
  · exact or
  · exact not
  · exact symbol
  · simp
  · intro head tail atHead atTail op member
    rcases List.mem_cons.mp member with rfl | later
    · exact atHead
    · exact atTail op later

mutual

/-- `operator==`. -/
def beq : Predicate → Predicate → Bool
  | .and left, .and right => beqSequence left right
  | .or left, .or right => beqSequence left right
  | .not left, .not right => beq left right
  | .symbol left leftTrue, .symbol right rightTrue =>
      leftTrue == rightTrue && left == right
  | _, _ => false

/-- `PredicateSequenceEqual`. -/
def beqSequence : List Predicate → List Predicate → Bool
  | [], [] => true
  | left :: lefts, right :: rights => beq left right && beqSequence lefts rights
  | _, _ => false

end

theorem beqSequence_iff {lefts rights : List Predicate}
    (each : ∀ left ∈ lefts, ∀ right, beq left right = true ↔ left = right) :
    beqSequence lefts rights = true ↔ lefts = rights := by
  induction lefts generalizing rights with
  | nil => cases rights <;> simp [beqSequence]
  | cons left lefts ih =>
      cases rights with
      | nil => simp [beqSequence]
      | cons right rights =>
          have atHead := each left (by simp) right
          have atTail : beqSequence lefts rights = true ↔ lefts = rights :=
            ih (fun op member => each op (by simp [member]))
          rw [beqSequence, Bool.and_eq_true, atHead, atTail, List.cons.injEq]

theorem beq_iff (left right : Predicate) : beq left right = true ↔
    left = right := by
  induction left generalizing right with
  | and lefts ih =>
      cases right with
      | and rights => rw [beq, beqSequence_iff ih, Predicate.and.injEq]
      | _ => simp [beq]
  | or lefts ih =>
      cases right with
      | or rights => rw [beq, beqSequence_iff ih, Predicate.or.injEq]
      | _ => simp [beq]
  | not left ih =>
      cases right with
      | not right => rw [beq, ih, Predicate.not.injEq]
      | _ => simp [beq]
  | symbol left leftTrue =>
      cases right with
      | symbol right rightTrue => simp [beq, and_comm]
      | _ => simp [beq]

instance : DecidableEq Predicate :=
  fun left right => decidable_of_iff (beq left right = true)
    (beq_iff left right)

mutual

def toString : Predicate → String
  | .and [] => "#true"
  | .and (op :: operands) =>
      "(" ++ strJoin " & " (toStrings (op :: operands)) ++ ")"
  | .or [] => "#false"
  | .or (op :: operands) =>
      "(" ++ strJoin " | " (toStrings (op :: operands)) ++ ")"
  | .not operand => "~" ++ toString operand
  | .symbol tensor_id _ => tensor_id.toString

def toStrings : List Predicate → List String
  | [] => []
  | op :: operands => toString op :: toStrings operands

end

end Predicate

/-- The hash functions of TensorFlow that a predicate's hash is made of. -/
structure Hasher where
  kind : Kind → Int
  bool : Bool → Int
  tensor_id : TensorId → Int
  combine : Int → Int → Int

mutual

def Predicate.hash (hasher : Hasher) : Predicate → Int
  | .and operands => hashPredicateSequence hasher (hasher.kind .kAnd) operands
  | .or operands => hashPredicateSequence hasher (hasher.kind .kOr) operands
  | .not operand =>
      hasher.combine (hasher.kind .kNot) (Predicate.hash hasher operand)
  | .symbol tensor_id must_be_true =>
      hasher.combine (hasher.bool must_be_true)
        (hasher.combine (hasher.kind .kSymbol) (hasher.tensor_id tensor_id))

def hashPredicateSequence (hasher : Hasher) : Int → List Predicate → Int
  | hash, [] => hash
  | hash, pred :: preds =>
      hashPredicateSequence hasher
        (hasher.combine hash (Predicate.hash hasher pred)) preds

end

namespace PredicateFactory

/-- Insert the operands of an inner conjunction or disjunction. -/
def inlineOperands : List Predicate → List Predicate → List Predicate →
    List Predicate × List Predicate
  | [], simplified_ops_set, simplified_ops =>
      (simplified_ops_set, simplified_ops)
  | subop :: subops, simplified_ops_set, simplified_ops =>
      if subop ∈ simplified_ops_set then
        inlineOperands subops simplified_ops_set simplified_ops
      else
        inlineOperands subops (subop :: simplified_ops_set)
          (simplified_ops ++ [subop])

/-- Simplify `A&A => A` and `A|A => A`, and inline inner operands. -/
def simplify (pred_kind : Kind) : List Predicate → List Predicate →
    List Predicate → List Predicate
  | [], _, simplified_ops => simplified_ops
  | op :: operands, simplified_ops_set, simplified_ops =>
      if op ∈ simplified_ops_set then
        simplify pred_kind operands simplified_ops_set simplified_ops
      else if op.kind = pred_kind then
        let (simplified_ops_set, simplified_ops) :=
          inlineOperands op.operands (op :: simplified_ops_set) simplified_ops
        simplify pred_kind operands simplified_ops_set simplified_ops
      else
        simplify pred_kind operands (op :: simplified_ops_set)
          (simplified_ops ++ [op])

/-- `A&~A` and `A|~A` are there. -/
def clashes (simplified_ops : List Predicate) : Bool :=
  simplified_ops.any fun op => simplified_ops.contains (.not op)

def makeAndOrImpl (hasher : Hasher) (operands : List Predicate)
    (is_and : Bool) : Predicate :=
  let pred_kind := if is_and then Kind.kAnd else Kind.kOr
  let simplified_ops := simplify pred_kind operands [] []
  match simplified_ops with
  | [op] => op
  | simplified_ops =>
      if clashes simplified_ops then
        if is_and then .or [] else .and []
      else
        let sorted := simplified_ops.insertionSort
          (fun a b => a.hash hasher ≤ b.hash hasher)
        if is_and then .and sorted else .or sorted

def makeAndPredicate (hasher : Hasher) (operands : List Predicate) :
    Predicate :=
  makeAndOrImpl hasher operands true

def makeOrPredicate (hasher : Hasher) (operands : List Predicate) : Predicate :=
  makeAndOrImpl hasher operands false

def makeNotPredicate (pred : Predicate) : Predicate := .not pred

def makeSymbolPredicate (tensor_id : TensorId) (must_be_true : Bool) :
    Predicate :=
  .symbol tensor_id must_be_true

def makeTrue (hasher : Hasher) : Predicate := makeAndPredicate hasher []

end PredicateFactory

end NGraphBridge.Deadness
