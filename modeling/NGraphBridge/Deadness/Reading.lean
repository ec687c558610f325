import NGraphBridge.Deadness.Meaning

/-!
# Reading predicate strings

The clustering passes compare predicates by their strings.  A string does not
show whether a symbol has to be true, so two predicates with one string may
differ; in the normal form the analysis produces they are equivalent all the
same.
-/

namespace NGraphBridge.Deadness

open TF Text

/-- What the text of a symbol consists of. -/
def IsSymbolChar (c : Char) : Prop :=
  isNameChar c = true ∨ c = ':' ∨ c = '^' ∨ IsNumeral c

/-- A space or a closing parenthesis ends an operand. -/
def EndsOperand (c : Char) : Prop := c = ' ' ∨ c = ')'

theorem IsSymbolChar.not_special {c : Char} (symbolChar : IsSymbolChar c) :
    c ≠ ' ' ∧ c ≠ ')' ∧ c ≠ '(' ∧ c ≠ '~' ∧ c ≠ '#' := by
  rcases symbolChar with name | rfl | rfl | digit | rfl
  · refine ⟨?_, ?_, ?_, ?_, ?_⟩ <;>
      · rintro rfl
        exact absurd name (by decide)
  · decide
  · decide
  · refine ⟨?_, ?_, ?_, ?_, ?_⟩ <;>
      · rintro rfl
        exact absurd digit (by decide)
  · decide

theorem IsSymbolChar.not_ends {c : Char} (symbolChar : IsSymbolChar c) :
    ¬ EndsOperand c := by
  rintro (rfl | rfl)
  · exact symbolChar.not_special.1 rfl
  · exact symbolChar.not_special.2.1 rfl

namespace TensorId

theorem symbolChars {tensor_id : TensorId} (legal : LegalName tensor_id.name) :
    ∀ c ∈ tensor_id.toString.toList, IsSymbolChar c := by
  intro c member
  rw [TensorId.toString] at member
  split at member
  · rw [String.toList_append, List.mem_append] at member
    rcases member with mark | inName
    · have isMark : c = '^' := by simpa using mark
      exact .inr (.inr (.inl isMark))
    · exact .inl (legal.2 c inName)
  · rw [String.toList_append, String.toList_append, List.mem_append,
      List.mem_append] at member
    rcases member with (inName | colon) | number
    · exact .inl (legal.2 c inName)
    · have isColon : c = ':' := by simpa using colon
      exact .inr (.inl isColon)
    · exact .inr (.inr (.inr (isNumeral_of_mem_intText number)))

theorem text_ne_nil (tensor_id : TensorId) :
    tensor_id.toString.toList ≠ [] := by
  rw [TensorId.toString]
  split <;> simp

theorem toString_control {tensor_id : TensorId}
    (control : tensor_id.index = kControlSlot) :
    tensor_id.toString.toList = '^' :: tensor_id.name.toList := by
  rw [TensorId.toString, if_pos control, String.toList_append]
  rfl

theorem toString_output {tensor_id : TensorId}
    (output : tensor_id.index ≠ kControlSlot) :
    tensor_id.toString.toList =
      tensor_id.name.toList ++ ':' ::
        (ToString.toString tensor_id.index).toList := by
  rw [TensorId.toString, if_neg output, String.toList_append,
    String.toList_append, List.append_assoc]
  rfl

theorem control_ne_output {control output : TensorId}
    (controlSlot : control.index = kControlSlot)
    (outputSlot : output.index ≠ kControlSlot) (legal : LegalName output.name) :
    control.toString.toList ≠ output.toString.toList := by
  intro same
  rw [toString_control controlSlot, toString_output outputSlot] at same
  cases chars : output.name.toList with
  | nil =>
      rw [chars, List.nil_append, List.cons.injEq] at same
      exact absurd same.1 (by decide)
  | cons c rest =>
      rw [chars, List.cons_append, List.cons.injEq] at same
      have nameChar := legal.2 c (by simp [chars])
      rw [← same.1] at nameChar
      exact absurd nameChar (by decide)

theorem toString_injective {left right : TensorId}
    (leftLegal : LegalName left.name) (rightLegal : LegalName right.name)
    (same : left.toString.toList = right.toString.toList) : left = right := by
  obtain ⟨leftName, leftIndex⟩ := left
  obtain ⟨rightName, rightIndex⟩ := right
  by_cases leftControl : leftIndex = kControlSlot
  · by_cases rightControl : rightIndex = kControlSlot
    · rw [toString_control leftControl, toString_control rightControl,
        List.cons.injEq] at same
      have names : leftName = rightName := String.toList_injective same.2
      rw [names, leftControl, rightControl]
    · exact absurd same (control_ne_output leftControl rightControl rightLegal)
  · by_cases rightControl : rightIndex = kControlSlot
    · exact absurd same.symm
        (control_ne_output rightControl leftControl leftLegal)
    · rw [toString_output leftControl, toString_output rightControl] at same
      have plain : ∀ {name : String}, LegalName name →
          ∀ c ∈ name.toList, ¬ c = ':' := by
        rintro name legal c member rfl
        exact absurd (legal.2 _ member) (by decide)
      obtain ⟨names, rest⟩ := split_unique (plain leftLegal) (plain rightLegal)
        (delimited_cons rfl) (delimited_cons rfl) same
      have names : leftName = rightName := String.toList_injective names
      have indices : leftIndex = rightIndex :=
        intText_injective (List.cons.inj rest).2
      rw [names, indices]

end TensorId

namespace Predicate

/-- Forget which symbols have to be true. -/
def erase : Predicate → Predicate
  | .and operands => .and (eraseSequence operands)
  | .or operands => .or (eraseSequence operands)
  | .not operand => .not (erase operand)
  | .symbol tensor_id _ => .symbol tensor_id false
where
  eraseSequence : List Predicate → List Predicate
    | [] => []
    | op :: operands => erase op :: eraseSequence operands

theorem eraseSequence_eq (operands : List Predicate) :
    erase.eraseSequence operands = operands.map erase := by
  induction operands with
  | nil => rfl
  | cons op operands ih => rw [erase.eraseSequence, ih, List.map_cons]

/-- Connectives have no single operand and symbols have legal names. -/
inductive Readable : Predicate → Prop
  | and {operands : List Predicate} (several : operands.length ≠ 1)
      (each : ∀ op ∈ operands, Readable op) : Readable (.and operands)
  | or {operands : List Predicate} (several : operands.length ≠ 1)
      (each : ∀ op ∈ operands, Readable op) : Readable (.or operands)
  | not {operand : Predicate} (inner : Readable operand) :
    Readable (.not operand)
  | symbol {tensor_id : TensorId} {must_be_true : Bool}
      (legal : LegalName tensor_id.name) :
      Readable (.symbol tensor_id must_be_true)

def text (pred : Predicate) : List Char := pred.toString.toList

theorem toStrings_eq (operands : List Predicate) :
    toStrings operands = operands.map toString := by
  induction operands with
  | nil => rfl
  | cons op operands ih => rw [toStrings, ih, List.map_cons]

/-- The text of the operands after the first. -/
def restText (separator : Char) (operands : List Predicate) : List Char :=
  operands.flatMap (fun op => ' ' :: separator :: ' ' :: op.text)

/-- Conjunctions and disjunctions. -/
def connective (isAnd : Bool) (operands : List Predicate) : Predicate :=
  if isAnd then .and operands else .or operands

def separator (isAnd : Bool) : Char :=
  if isAnd then '&' else '|'

theorem text_connective (isAnd : Bool) (op : Predicate)
    (operands : List Predicate) :
    text (connective isAnd (op :: operands)) =
      '(' :: (op.text ++ (restText (separator isAnd) operands ++ [')'])) := by
  cases isAnd with
  | true =>
      rw [connective, if_pos rfl, text, toString, toStrings,
        String.toList_append, String.toList_append, strJoin_cons, toStrings_eq,
        List.flatMap_map, List.append_assoc, List.append_assoc]
      rfl
  | false =>
      rw [connective, if_neg (by simp), text, toString, toStrings,
        String.toList_append, String.toList_append, strJoin_cons, toStrings_eq,
        List.flatMap_map, List.append_assoc, List.append_assoc]
      rfl

theorem text_constant (isAnd : Bool) : text (connective isAnd []) =
    '#' :: (if isAnd then "true" else "false").toList := by
  cases isAnd <;> rfl

theorem text_not (operand : Predicate) :
    text (.not operand) = '~' :: operand.text := by
  rw [text, toString, String.toList_append]
  rfl

/-- A predicate is read back up to its first end, whatever it is compared
with. -/
def Reads (pred : Predicate) : Prop :=
  ∀ other, Readable other → ∀ rest otherRest,
    Delimited EndsOperand rest → Delimited EndsOperand otherRest →
    pred.text ++ rest = other.text ++ otherRest →
    pred.erase = other.erase ∧ rest = otherRest

theorem restText_delimited (separator : Char) (operands : List Predicate)
    (rest : List Char) :
    Delimited EndsOperand (restText separator operands ++ ')' :: rest) := by
  cases operands with
  | nil => exact delimited_cons (.inr rfl)
  | cons op operands => exact delimited_cons (.inl rfl)

theorem restText_cons (separator : Char) (op : Predicate)
    (operands : List Predicate) :
    restText separator (op :: operands) =
      ' ' :: separator :: ' ' :: (op.text ++ restText separator operands) := by
  simp [restText]

theorem restText_unique {separator : Char} {operands others : List Predicate}
    {rest otherRest : List Char} (reads : ∀ op ∈ operands, op.Reads)
    (readable : ∀ op ∈ others, op.Readable)
    (same : restText separator operands ++ ')' :: rest =
      restText separator others ++ ')' :: otherRest) :
    operands.map erase = others.map erase ∧ rest = otherRest := by
  induction operands generalizing others with
  | nil =>
      cases others with
      | nil =>
          simp only [restText, List.flatMap_nil, List.nil_append,
            List.cons.injEq] at same
          exact ⟨rfl, same.2⟩
      | cons other others =>
          rw [restText_cons] at same
          simp [restText] at same
  | cons op operands ih =>
      cases others with
      | nil =>
          rw [restText_cons] at same
          simp [restText] at same
      | cons other others =>
          rw [restText_cons, restText_cons] at same
          simp only [List.cons_append, List.cons.injEq, true_and,
            List.append_assoc] at same
          obtain ⟨sameHead, sameRest⟩ :=
            reads op (by simp) other (readable other (by simp))
              _ _ (restText_delimited _ _ _) (restText_delimited _ _ _) same
          obtain ⟨sameTail, sameEnd⟩ := ih
            (fun op member => reads op (by simp [member]))
            (fun op member => readable op (by simp [member])) sameRest
          exact ⟨by rw [List.map_cons, List.map_cons, sameHead, sameTail],
            sameEnd⟩

/-- The operands of two connectives with the same text are the same, and so
are the connectives. -/
theorem operands_unique {separator otherSeparator : Char}
    {first otherFirst : Predicate} {operands others : List Predicate}
    {rest otherRest : List Char} (several : operands ≠ [])
    (otherSeveral : others ≠ []) (reads : ∀ op ∈ first :: operands, op.Reads)
    (readable : ∀ op ∈ otherFirst :: others, op.Readable)
    (same : first.text ++ (restText separator operands ++ ')' :: rest) =
      otherFirst.text ++ (restText otherSeparator others ++ ')' :: otherRest)) :
    separator = otherSeparator ∧
      (first :: operands).map erase = (otherFirst :: others).map erase ∧
      rest = otherRest := by
  obtain ⟨sameFirst, sameRest⟩ := reads first (by simp) otherFirst
    (readable otherFirst (by simp)) _ _ (restText_delimited _ _ _)
    (restText_delimited _ _ _) same
  have separators : separator = otherSeparator := by
    cases operands with
    | nil => exact absurd rfl several
    | cons op operands =>
        cases others with
        | nil => exact absurd rfl otherSeveral
        | cons other others =>
            rw [restText_cons, restText_cons] at sameRest
            simp only [List.cons_append, List.cons.injEq, true_and] at sameRest
            exact sameRest.1
  subst separators
  obtain ⟨sameOperands, sameEnd⟩ := restText_unique
    (fun op member => reads op (by simp [member]))
    (fun op member => readable op (by simp [member])) sameRest
  exact ⟨rfl, by rw [List.map_cons, List.map_cons, sameFirst, sameOperands],
    sameEnd⟩

/-- The first character of a text tells symbols from the rest. -/
theorem symbol_head {tensor_id : TensorId} (legal : LegalName tensor_id.name)
    {c : Char} {rest tail : List Char} (special : c = '(' ∨ c = '~' ∨ c = '#') :
    tensor_id.toString.toList ++ rest ≠ c :: tail := by
  intro same
  cases chars : tensor_id.toString.toList with
  | nil => exact TensorId.text_ne_nil tensor_id chars
  | cons first chars' =>
      rw [chars, List.cons_append, List.cons.injEq] at same
      have symbolChar : IsSymbolChar c := by
        rw [← same.1]
        exact TensorId.symbolChars legal first (by simp [chars])
      obtain ⟨_, _, notOpen, notTilde, notHash⟩ := symbolChar.not_special
      rcases special with isOpen | isTilde | isHash
      · exact notOpen isOpen
      · exact notTilde isTilde
      · exact notHash isHash

theorem text_symbol (tensor_id : TensorId) (must_be_true : Bool) :
    text (.symbol tensor_id must_be_true) = tensor_id.toString.toList := rfl

theorem separator_injective {isAnd otherAnd : Bool}
    (same : separator isAnd = separator otherAnd) :
    isAnd = otherAnd := by
  cases isAnd <;> cases otherAnd <;> simp_all [separator]

theorem erase_connective (isAnd : Bool) (operands : List Predicate) :
    (connective isAnd operands).erase =
      connective isAnd (operands.map erase) := by
  rw [← eraseSequence_eq]
  cases isAnd <;> rfl

theorem Readable.cases {pred : Predicate} (readable : pred.Readable) :
    (∃ isAnd operands, pred = connective isAnd operands ∧ operands.length ≠ 1 ∧
      ∀ op ∈ operands, op.Readable) ∨
    (∃ operand, pred = .not operand ∧ operand.Readable) ∨
    (∃ tensor_id must_be_true, pred = .symbol tensor_id must_be_true ∧
      LegalName tensor_id.name) := by
  cases readable with
  | and several each => exact .inl ⟨true, _, rfl, several, each⟩
  | or several each => exact .inl ⟨false, _, rfl, several, each⟩
  | not inner => exact .inr (.inl ⟨_, rfl, inner⟩)
  | symbol legal => exact .inr (.inr ⟨_, _, rfl, legal⟩)

theorem text_connective_head (isAnd : Bool) (operands : List Predicate) :
    ∃ c tail, text (connective isAnd operands) = c :: tail ∧
    (c = '(' ∨ c = '#') := by
  cases operands with
  | nil => exact ⟨_, _, text_constant isAnd, .inr rfl⟩
  | cons op operands =>
      exact ⟨_, _, text_connective isAnd op operands, .inl rfl⟩

theorem connectives_unique {isAnd otherAnd : Bool}
    {operands others : List Predicate} {rest otherRest : List Char}
    (several : operands.length ≠ 1) (otherSeveral : others.length ≠ 1)
    (reads : ∀ op ∈ operands, op.Reads) (readable : ∀ op ∈ others, op.Readable)
    (same : (connective isAnd operands).text ++ rest =
      (connective otherAnd others).text ++ otherRest) :
    (connective isAnd operands).erase = (connective otherAnd others).erase ∧
      rest = otherRest := by
  cases operands with
  | nil =>
      rw [text_constant] at same
      cases others with
      | nil =>
          rw [text_constant] at same
          cases isAnd <;> cases otherAnd <;> simp_all
      | cons otherFirst others =>
          rw [text_connective] at same
          simp at same
  | cons first operands =>
      rw [text_connective] at same
      cases others with
      | nil =>
          rw [text_constant] at same
          simp at same
      | cons otherFirst others =>
          rw [text_connective] at same
          simp only [List.cons_append, List.cons.injEq, true_and,
            List.append_assoc, List.nil_append] at same
          obtain ⟨separators, sameOperands, sameEnd⟩ := operands_unique
            (by rintro rfl; exact several rfl)
            (by rintro rfl; exact otherSeveral rfl) reads readable same
          refine ⟨?_, sameEnd⟩
          rw [erase_connective, erase_connective,
            separator_injective separators, sameOperands]

theorem connective_reads {isAnd : Bool} {operands : List Predicate}
    (several : operands.length ≠ 1) (reads : ∀ op ∈ operands, op.Reads) :
    (connective isAnd operands).Reads := by
  intro other otherReadable rest otherRest ends otherEnds same
  obtain ⟨c, tail, isText, first⟩ := text_connective_head isAnd operands
  rcases otherReadable.cases
    with ⟨otherAnd, others, rfl, otherSeveral, otherEach⟩ |
    ⟨operand, rfl, _⟩ | ⟨tensor_id, must_be_true, rfl, legal⟩
  · exact connectives_unique several otherSeveral reads otherEach same
  · rw [isText, text_not, List.cons_append, List.cons_append,
      List.cons.injEq] at same
    rcases first with rfl | rfl <;> simp at same
  · rw [isText, text_symbol, List.cons_append] at same
    exact absurd same.symm (symbol_head legal (first.imp_right .inr))

theorem Readable.reads {pred : Predicate} (readable : pred.Readable) :
    pred.Reads := by
  induction readable with
  | and several each ih => exact @connective_reads true _ several ih
  | or several each ih => exact @connective_reads false _ several ih
  | @not operand inner ih =>
      intro other otherReadable rest otherRest ends otherEnds same
      rw [text_not] at same
      rcases otherReadable.cases with ⟨otherAnd, others, rfl, _, _⟩ |
        ⟨other, rfl, otherInner⟩ | ⟨tensor_id, must_be_true, rfl, legal⟩
      · obtain ⟨c, tail, isText, first⟩ := text_connective_head otherAnd others
        rw [isText, List.cons_append, List.cons_append, List.cons.injEq] at same
        rcases first with rfl | rfl <;> simp at same
      · rw [text_not] at same
        simp only [List.cons_append, List.cons.injEq, true_and] at same
        obtain ⟨sameInner, sameEnd⟩ :=
          ih other otherInner _ _ ends otherEnds same
        exact ⟨by rw [erase, erase, sameInner], sameEnd⟩
      · exact absurd same.symm (symbol_head legal (.inr (.inl rfl)))
  | @symbol tensor_id must_be_true legal =>
      intro other otherReadable rest otherRest ends otherEnds same
      rw [text_symbol] at same
      rcases otherReadable.cases with ⟨otherAnd, others, rfl, _, _⟩ |
        ⟨other, rfl, _⟩ | ⟨otherId, _, rfl, otherLegal⟩
      · obtain ⟨c, tail, isText, first⟩ := text_connective_head otherAnd others
        rw [isText] at same
        exact absurd same (symbol_head legal (first.imp_right .inr))
      · rw [text_not] at same
        exact absurd same (symbol_head legal (.inr (.inl rfl)))
      · rw [text_symbol] at same
        obtain ⟨texts, sameEnd⟩ := split_unique
          (fun c member => (TensorId.symbolChars legal c member).not_ends)
          (fun c member => (TensorId.symbolChars otherLegal c member).not_ends)
          ends otherEnds same
        have ids := TensorId.toString_injective legal otherLegal texts
        exact ⟨by rw [erase, erase, ids], sameEnd⟩

theorem erase_eq_of_toString {pred other : Predicate} (readable : pred.Readable)
    (otherReadable : other.Readable) (same : pred.toString = other.toString) :
    pred.erase = other.erase := by
  have texts : pred.text ++ [] = other.text ++ [] := by
    rw [text, text, same]
  exact (readable.reads other otherReadable []
      [] delimited_nil delimited_nil texts).1

/-- A symbol that has to be true stands next to the symbol that need not. -/
def Paired (operands : List Predicate) (op : Predicate) : Prop :=
  ∃ tensor_id, op = .symbol tensor_id true ∧ .symbol tensor_id false ∈ operands

/-- The predicates of one analysis.  `loose` are the tensors whose symbol may
stand without having to be true; such a symbol has to be true only where it
also stands in the same conjunction without having to. -/
inductive Normal (loose : TensorId → Prop) : Predicate → Prop
  | and {operands : List Predicate} (several : operands.length ≠ 1)
      (distinct : operands.Nodup)
      (flat : ∀ op ∈ operands, op.kind ≠ .kAnd)
      (each : ∀ op ∈ operands, ¬ Paired operands op → Normal loose op) :
      Normal loose (.and operands)
  | or {operands : List Predicate} (several : operands.length ≠ 1)
      (flat : ∀ op ∈ operands, op.kind ≠ .kOr)
      (each : ∀ op ∈ operands, Normal loose op) : Normal loose (.or operands)
  | not {tensor_id : TensorId} (legal : LegalName tensor_id.name) :
      Normal loose (.not (.symbol tensor_id true))
  | strict {tensor_id : TensorId} (legal : LegalName tensor_id.name)
      (isStrict : ¬ loose tensor_id) : Normal loose (.symbol tensor_id true)
  | loose {tensor_id : TensorId} (legal : LegalName tensor_id.name)
      (isLoose : loose tensor_id) : Normal loose (.symbol tensor_id false)

variable {loose : TensorId → Prop}

theorem not_paired_false {operands : List Predicate} {tensor_id : TensorId} :
    ¬ Paired operands (.symbol tensor_id false) := by
  rintro ⟨other, same, _⟩
  simp at same

theorem Normal.flat {pred : Predicate} (normal : Normal loose pred) :
    pred.Flat := by
  cases normal with
  | and several distinct flat each => exact flat
  | or several flat each => exact flat
  | not legal => simp [Flat, Predicate.operands]
  | strict legal isStrict => simp [Flat, Predicate.operands]
  | loose legal isLoose => simp [Flat, Predicate.operands]

theorem Normal.readable {pred : Predicate} (normal : Normal loose pred) :
    pred.Readable := by
  induction normal with
  | @and operands several distinct flat each ih =>
      apply Readable.and several
      intro op member
      by_cases paired : Paired operands op
      · obtain ⟨tensor_id, rfl, partner⟩ := paired
        cases ih _ partner not_paired_false with
        | symbol legal => exact .symbol legal
      · exact ih op member paired
  | or several flat each ih => exact .or several ih
  | not legal => exact .not (.symbol legal)
  | strict legal isStrict => exact .symbol legal
  | loose legal isLoose => exact .symbol legal

theorem erase_getElem {operands others : List Predicate}
    (same : operands.map erase = others.map erase) {other : Predicate}
    (position : Nat) (atPosition : others[position]? = some other) :
    ∃ op, operands[position]? = some op ∧ op.erase = other.erase := by
  have mapped : (operands.map erase)[position]? = some other.erase := by
    rw [same, List.getElem?_map, atPosition, Option.map_some]
  rw [List.getElem?_map, Option.map_eq_some_iff] at mapped
  exact mapped

theorem getElem_injective {operands : List Predicate}
    (distinct : operands.Nodup) {first second : Nat} {op : Predicate}
    (atFirst : operands[first]? = some op)
    (atSecond : operands[second]? = some op) : first = second := by
  obtain ⟨firstIn, atFirst⟩ := List.getElem?_eq_some_iff.mp atFirst
  obtain ⟨secondIn, atSecond⟩ := List.getElem?_eq_some_iff.mp atSecond
  exact (List.Nodup.getElem_inj_iff distinct).mp (atFirst.trans atSecond.symm)

theorem symbol_of_erase {pred : Predicate} {tensor_id : TensorId}
    {must_be_true : Bool}
    (same : pred.erase = (Predicate.symbol tensor_id must_be_true).erase) :
    ∃ flag, pred = .symbol tensor_id flag := by
  cases pred with
  | symbol other flag =>
      simp only [erase, symbol.injEq, and_true] at same
      exact ⟨flag, by rw [same]⟩
  | _ => simp [erase] at same

/-- A conjunction with the same erased operands is at least as strong. -/
theorem conjunction_stronger {s : Assignment} {operands others : List Predicate}
    (distinct : operands.Nodup)
    (ih : ∀ op ∈ operands, ¬ Paired operands op →
      ∀ other ∈ others, ¬ Paired others other →
        op.erase = other.erase → op.eval s = other.eval s)
    (same : operands.map erase = others.map erase)
    (all : ∀ op ∈ operands, op.eval s = true) :
    ∀ other ∈ others, other.eval s = true := by
  intro other member
  obtain ⟨position, atPosition⟩ := List.mem_iff_getElem?.mp member
  obtain ⟨op, opAt, sameErase⟩ := erase_getElem same position atPosition
  have opMember : op ∈ operands := List.mem_iff_getElem?.mpr ⟨position, opAt⟩
  by_cases otherPaired : Paired others other
  · -- the partner of `other` has its own place, and the two erased places
    -- of the left list cannot hold the same symbol
    obtain ⟨tensor_id, rfl, partner⟩ := otherPaired
    obtain ⟨otherPosition, partnerAt⟩ := List.mem_iff_getElem?.mp partner
    obtain ⟨second, secondAt, secondErase⟩ :=
      erase_getElem same otherPosition partnerAt
    obtain ⟨flag, rfl⟩ := symbol_of_erase sameErase
    obtain ⟨secondFlag, rfl⟩ := symbol_of_erase secondErase
    cases flag with
    | true => exact all _ opMember
    | false =>
        cases secondFlag with
        | true =>
            exact all _ (List.mem_iff_getElem?.mpr ⟨otherPosition, secondAt⟩)
        | false =>
            have samePosition := getElem_injective distinct opAt secondAt
            rw [samePosition, partnerAt] at atPosition
            simp at atPosition
  · by_cases opPaired : Paired operands op
    · obtain ⟨tensor_id, rfl, partner⟩ := opPaired
      obtain ⟨flag, rfl⟩ := symbol_of_erase sameErase.symm
      cases flag with
      | true => exact all _ opMember
      | false => exact all _ partner
    · rw [← ih op opMember opPaired other member otherPaired sameErase]
      exact all op opMember

/-- In the normal form, what is erased does not matter. -/
theorem Normal.eval_eq {s : Assignment} {pred other : Predicate}
    (normal : Normal loose pred) (otherNormal : Normal loose other)
    (same : pred.erase = other.erase) : pred.eval s = other.eval s := by
  induction normal generalizing other with
  | @and operands several distinct flat each ih =>
      cases otherNormal with
      | @and others otherSeveral otherDistinct otherFlat otherEach =>
          have sameOperands : operands.map erase = others.map erase := by
            simpa [erase, eraseSequence_eq] using same
          have equal : ∀ op ∈ operands, ¬ Paired operands op →
              ∀ other ∈ others, ¬ Paired others other →
                op.erase = other.erase → op.eval s = other.eval s := by
            intro op member plain other otherMember otherPlain sameErase
            exact ih op member plain
              (otherEach other otherMember otherPlain) sameErase
          rw [Bool.eq_iff_iff, eval_and, eval_and]
          constructor
          · exact conjunction_stronger distinct equal sameOperands
          · apply conjunction_stronger otherDistinct _ sameOperands.symm
            intro other otherMember otherPlain op member plain sameErase
            exact (equal op member plain other otherMember otherPlain
                sameErase.symm).symm
      | _ => simp [erase] at same
  | @or operands several flat each ih =>
      cases otherNormal with
      | @or others otherSeveral otherFlat otherEach =>
          have sameOperands : operands.map erase = others.map erase := by
            simpa [erase, eraseSequence_eq] using same
          rw [Bool.eq_iff_iff, eval_or, eval_or]
          constructor
          · rintro ⟨op, member, isTrue⟩
            obtain ⟨position, opAt⟩ := List.mem_iff_getElem?.mp member
            obtain ⟨other, otherAt, sameErase⟩ :=
              erase_getElem sameOperands.symm position opAt
            have otherMember := List.mem_iff_getElem?.mpr ⟨position, otherAt⟩
            refine ⟨other, otherMember, ?_⟩
            rwa [← ih op member (otherEach other otherMember) sameErase.symm]
          · rintro ⟨other, otherMember, isTrue⟩
            obtain ⟨position, otherAt⟩ := List.mem_iff_getElem?.mp otherMember
            obtain ⟨op, opAt, sameErase⟩ :=
              erase_getElem sameOperands position otherAt
            have member := List.mem_iff_getElem?.mpr ⟨position, opAt⟩
            refine ⟨op, member, ?_⟩
            rwa [ih op member (otherEach other otherMember) sameErase]
      | _ => simp [erase] at same
  | not legal =>
      cases otherNormal with
      | not otherLegal =>
          simp only [erase, not.injEq, symbol.injEq, and_true] at same
          rw [same]
      | _ => simp [erase] at same
  | strict legal isStrict =>
      cases otherNormal with
      | strict otherLegal otherStrict =>
          simp only [erase, symbol.injEq, and_true] at same
          rw [same]
      | loose otherLegal isLoose =>
          simp only [erase, symbol.injEq, and_true] at same
          exact absurd (same ▸ isLoose) isStrict
      | _ => simp [erase] at same
  | loose legal isLoose =>
      cases otherNormal with
      | strict otherLegal otherStrict =>
          simp only [erase, symbol.injEq, and_true] at same
          exact absurd (same ▸ isLoose) otherStrict
      | loose otherLegal otherLoose =>
          simp only [erase, symbol.injEq, and_true] at same
          rw [same]
      | _ => simp [erase] at same

/-- Predicates of one analysis with the same string are equivalent. -/
theorem Normal.eval_eq_of_toString {pred other : Predicate} (s : Assignment)
    (normal : Normal loose pred) (otherNormal : Normal loose other)
    (same : pred.toString = other.toString) : pred.eval s = other.eval s :=
  normal.eval_eq otherNormal
    (erase_eq_of_toString normal.readable otherNormal.readable same)

end Predicate

end NGraphBridge.Deadness
