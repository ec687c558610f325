import NGraphBridge.Deadness.Analysis

/-!
# What predicates mean

The truth of a predicate under an assignment of its symbols, and what the
factory makes of the truth of its operands.
-/

namespace NGraphBridge.Deadness

open TF PredicateFactory

/-- A truth value for every symbol: `s tensor_id must_be_true`. -/
abbrev Assignment := TensorId → Bool → Bool

namespace Predicate

mutual

def eval (s : Assignment) : Predicate → Bool
  | .and operands => evalAll s operands
  | .or operands => evalAny s operands
  | .not operand => !eval s operand
  | .symbol tensor_id must_be_true => s tensor_id must_be_true

def evalAll (s : Assignment) : List Predicate → Bool
  | [] => true
  | op :: operands => eval s op && evalAll s operands

def evalAny (s : Assignment) : List Predicate → Bool
  | [] => false
  | op :: operands => eval s op || evalAny s operands

end

variable {s : Assignment}

@[simp] theorem eval_and (operands : List Predicate) :
    eval s (.and operands) = true ↔ ∀ op ∈ operands, eval s op = true := by
  rw [eval]
  induction operands with
  | nil => simp [evalAll]
  | cons op operands ih => simp [evalAll, ih]

@[simp] theorem eval_or (operands : List Predicate) :
    eval s (.or operands) = true ↔ ∃ op ∈ operands, eval s op = true := by
  rw [eval]
  induction operands with
  | nil => simp [evalAny]
  | cons op operands ih => simp [evalAny, ih]

@[simp] theorem eval_not (operand : Predicate) :
    eval s (.not operand) = !eval s operand := by
  rw [eval]

@[simp] theorem eval_symbol (tensor_id : TensorId) (must_be_true : Bool) :
    eval s (.symbol tensor_id must_be_true) = s tensor_id must_be_true := by
  rw [eval]

/-- The operands a predicate adds to a conjunction or a disjunction. -/
def parts (pred_kind : Kind) (op : Predicate) : List Predicate :=
  if op.kind = pred_kind then op.operands else [op]

theorem parts_of_kind_ne {op : Predicate} {pred_kind : Kind}
    (different : op.kind ≠ pred_kind) :
    op.parts pred_kind = [op] := if_neg different

theorem eq_of_mem_parts {op part : Predicate} {pred_kind : Kind}
    (different : op.kind ≠ pred_kind) (member : part ∈ op.parts pred_kind) :
    part = op := by
  rw [parts_of_kind_ne different] at member
  exact List.mem_singleton.mp member

/-- No conjunction is an operand of a conjunction, and no disjunction of a
disjunction. -/
def Flat (op : Predicate) : Prop := ∀ subop ∈ op.operands, subop.kind ≠ op.kind

theorem Flat.parts {op : Predicate} (flat : op.Flat) {pred_kind : Kind}
    {part : Predicate} (member : part ∈ op.parts pred_kind) :
    part.kind ≠ pred_kind := by
  rw [Predicate.parts] at member
  split at member
  · rename_i same
    rw [← same]
    exact flat part member
  · rename_i different
    rw [List.mem_singleton] at member
    rwa [member]

end Predicate

section Factory

variable {pred_kind : Kind}

/-- What holds of the set and of the list while operands are simplified. -/
structure Simplified (pred_kind : Kind) (simplified_ops_set simplified_ops :
    List Predicate) : Prop where
  distinct : simplified_ops.Nodup
  inSet : ∀ op ∈ simplified_ops, op ∈ simplified_ops_set
  inList : ∀ op ∈ simplified_ops_set, ∀ part ∈ op.parts pred_kind,
    part ∈ simplified_ops

theorem inlineOperands_spec
    {subops simplified_ops_set simplified_ops : List Predicate}
    (distinct : simplified_ops.Nodup)
    (inSet : ∀ op ∈ simplified_ops, op ∈ simplified_ops_set)
    (known : ∀ op ∈ simplified_ops_set, op.kind ≠ pred_kind →
      op ∈ simplified_ops)
    (other : ∀ subop ∈ subops, subop.kind ≠ pred_kind) :
    (inlineOperands subops simplified_ops_set simplified_ops).2.Nodup ∧
      (∀ op, op ∈ (inlineOperands subops simplified_ops_set simplified_ops).2 ↔
        op ∈ simplified_ops ∨ op ∈ subops) ∧
      ∀ op, op ∈ (inlineOperands subops simplified_ops_set simplified_ops).1 ↔
        op ∈ simplified_ops_set ∨ op ∈ subops := by
  induction subops generalizing simplified_ops_set simplified_ops with
  | nil => simpa [inlineOperands] using distinct
  | cons subop subops ih =>
      have headOther := other subop (by simp)
      have restOther : ∀ op ∈ subops, op.kind ≠ pred_kind :=
        fun op member => other op (by simp [member])
      unfold inlineOperands
      by_cases seen : subop ∈ simplified_ops_set
      · rw [if_pos seen]
        obtain ⟨ihDistinct, ihList, ihSet⟩ := ih distinct inSet known restOther
        refine ⟨ihDistinct, ?_, ?_⟩
        · intro op
          rw [ihList, List.mem_cons]
          constructor
          · rintro (old | later)
            · exact .inl old
            · exact .inr (.inr later)
          · rintro (old | rfl | later)
            · exact .inl old
            · exact .inl (known _ seen headOther)
            · exact .inr later
        · intro op
          rw [ihSet, List.mem_cons]
          constructor
          · rintro (old | later)
            · exact .inl old
            · exact .inr (.inr later)
          · rintro (old | rfl | later)
            · exact .inl old
            · exact .inl seen
            · exact .inr later
      · rw [if_neg seen]
        have new : subop ∉ simplified_ops :=
          fun member => seen (inSet subop member)
        obtain ⟨ihDistinct, ihList, ihSet⟩ :=
          @ih (subop :: simplified_ops_set) (simplified_ops ++ [subop])
            (by
              refine List.Nodup.append distinct (List.nodup_singleton _) ?_
              simpa using new)
            (by
              intro op member
              rcases List.mem_append.mp member with old | same
              · exact List.mem_cons_of_mem _ (inSet op old)
              · rw [List.mem_singleton] at same
                simp [same])
            (by
              intro op member different
              rcases List.mem_cons.mp member with rfl | old
              · simp
              · simp [known op old different])
            restOther
        refine ⟨ihDistinct, ?_, ?_⟩
        · intro op
          rw [ihList]
          simp only [List.mem_append, List.mem_cons, List.not_mem_nil, or_false]
          exact or_assoc
        · intro op
          rw [ihSet]
          simp only [List.mem_cons]
          constructor
          · rintro ((same | old) | later)
            · exact .inr (.inl same)
            · exact .inl old
            · exact .inr (.inr later)
          · rintro (old | same | later)
            · exact .inl (.inr old)
            · exact .inl (.inl same)
            · exact .inr later

theorem Simplified.known {simplified_ops_set simplified_ops : List Predicate}
    (inv : Simplified pred_kind simplified_ops_set simplified_ops)
    {op : Predicate} (member : op ∈ simplified_ops_set)
    (different : op.kind ≠ pred_kind) : op ∈ simplified_ops := by
  apply inv.inList op member
  simp [Predicate.parts_of_kind_ne different]

/-- The operands of a connective of the same kind take its place. -/
theorem Simplified.inlined {simplified_ops_set simplified_ops : List Predicate}
    (inv : Simplified pred_kind simplified_ops_set simplified_ops)
    {op : Predicate} (flat : op.Flat) (same : op.kind = pred_kind) :
    Simplified pred_kind
        (inlineOperands op.operands (op :: simplified_ops_set) simplified_ops).1
        (inlineOperands op.operands (op :: simplified_ops_set)
          simplified_ops).2 ∧
      ∀ part, part ∈
        (inlineOperands op.operands (op :: simplified_ops_set)
          simplified_ops).2 ↔
        part ∈ simplified_ops ∨ part ∈ op.parts pred_kind := by
  have opParts : op.parts pred_kind = op.operands := if_pos same
  have other : ∀ subop ∈ op.operands, subop.kind ≠ pred_kind := by
    intro subop member
    rw [← same]
    exact flat subop member
  have known : ∀ known ∈ op :: simplified_ops_set, known.kind ≠ pred_kind →
      known ∈ simplified_ops := by
    intro known member different
    rcases List.mem_cons.mp member with rfl | old
    · exact absurd same different
    · exact inv.known old different
  obtain ⟨distinct, inlineList, inlineSet⟩ := inlineOperands_spec inv.distinct
    (fun op member => List.mem_cons_of_mem _ (inv.inSet op member)) known other
  rw [opParts]
  refine ⟨⟨distinct, ?_, ?_⟩, inlineList⟩
  · intro candidate member
    rcases (inlineList candidate).mp member with old | new
    · exact (inlineSet candidate).mpr
        (.inl (List.mem_cons_of_mem _ (inv.inSet candidate old)))
    · exact (inlineSet candidate).mpr (.inr new)
  · intro candidate member part isPart
    apply (inlineList part).mpr
    rcases (inlineSet candidate).mp member with old | new
    · rcases List.mem_cons.mp old with rfl | older
      · exact .inr (opParts ▸ isPart)
      · exact .inl (inv.inList candidate older part isPart)
    · obtain rfl := Predicate.eq_of_mem_parts (other candidate new) isPart
      exact .inr new

/-- Any other operand comes last. -/
theorem Simplified.added {simplified_ops_set simplified_ops : List Predicate}
    (inv : Simplified pred_kind simplified_ops_set simplified_ops)
    {op : Predicate} (different : op.kind ≠ pred_kind)
    (new : op ∉ simplified_ops_set) :
    Simplified pred_kind (op :: simplified_ops_set)
      (simplified_ops ++ [op]) where
  distinct := by
    apply List.Nodup.append inv.distinct (List.nodup_singleton _)
    intro candidate member isOp
    rw [List.mem_singleton] at isOp
    subst isOp
    exact new (inv.inSet _ member)
  inSet := by
    intro candidate member
    rcases List.mem_append.mp member with old | isOp
    · exact List.mem_cons_of_mem _ (inv.inSet candidate old)
    · rw [List.mem_singleton] at isOp
      simp [isOp]
  inList := by
    intro candidate member part isPart
    rcases List.mem_cons.mp member with rfl | old
    · rw [Predicate.eq_of_mem_parts different isPart]
      simp
    · have inOld := inv.inList candidate old part isPart
      simp [inOld]

theorem simplify_spec
    {operands simplified_ops_set simplified_ops : List Predicate}
    (inv : Simplified pred_kind simplified_ops_set simplified_ops)
    (flat : ∀ op ∈ operands, op.Flat) :
    (simplify pred_kind operands simplified_ops_set simplified_ops).Nodup ∧
      ∀ part, part ∈ simplify pred_kind operands simplified_ops_set
        simplified_ops ↔
        part ∈ simplified_ops ∨ ∃ op ∈ operands, part ∈ op.parts pred_kind := by
  induction operands generalizing simplified_ops_set simplified_ops with
  | nil => simpa [simplify] using inv.distinct
  | cons op operands ih =>
      have restFlat : ∀ op ∈ operands, op.Flat :=
        fun op member => flat op (by simp [member])
      unfold simplify
      by_cases seen : op ∈ simplified_ops_set
      · rw [if_pos seen]
        obtain ⟨distinct, members⟩ := ih inv restFlat
        refine ⟨distinct, fun part => ?_⟩
        rw [members, List.exists_mem_cons_iff]
        constructor
        · rintro (old | later)
          · exact .inl old
          · exact .inr (.inr later)
        · rintro (old | isPart | later)
          · exact .inl old
          · exact .inl (inv.inList _ seen part isPart)
          · exact .inr later
      · rw [if_neg seen]
        by_cases same : op.kind = pred_kind
        · rw [if_pos same]
          obtain ⟨newInv, inlined⟩ := inv.inlined (flat op (by simp)) same
          generalize inlineOperands op.operands (op :: simplified_ops_set)
            simplified_ops = inlinedOps at newInv inlined
          obtain ⟨newSet, newList⟩ := inlinedOps
          obtain ⟨distinct, members⟩ := ih newInv restFlat
          refine ⟨distinct, fun part => ?_⟩
          rw [members, inlined, List.exists_mem_cons_iff, or_assoc]
        · rw [if_neg same]
          obtain ⟨distinct, members⟩ := ih (inv.added same seen) restFlat
          refine ⟨distinct, fun part => ?_⟩
          rw [members, List.mem_append, List.exists_mem_cons_iff, or_assoc,
            Predicate.parts_of_kind_ne same]

/-- What the factory makes of its operands: the one part they have, the other
connective's constant when two parts clash, or the parts in some order. -/
inductive Makes (is_and : Bool) (operands : List Predicate) : Predicate → Prop
  | single {part : Predicate}
      (members : ∀ candidate, candidate = part ↔
        ∃ op ∈ operands,
        candidate ∈ op.parts (if is_and then .kAnd else .kOr)) :
      Makes is_and operands part
  | clash {part : Predicate}
      (plain : ∃ op ∈ operands,
        part ∈ op.parts (if is_and then .kAnd else .kOr))
      (negated : ∃ op ∈ operands,
        .not part ∈ op.parts (if is_and then .kAnd else .kOr)) :
      Makes is_and operands (if is_and then .or [] else .and [])
  | parts {sorted : List Predicate} (distinct : sorted.Nodup)
      (several : sorted.length ≠ 1)
      (members : ∀ candidate, candidate ∈ sorted ↔
        ∃ op ∈ operands,
        candidate ∈ op.parts (if is_and then .kAnd else .kOr)) :
      Makes is_and operands (if is_and then .and sorted else .or sorted)

theorem makeAndOrImpl_makes (hasher : Hasher) {operands : List Predicate}
    (is_and : Bool) (flat : ∀ op ∈ operands, op.Flat) :
    Makes is_and operands (makeAndOrImpl hasher operands is_and) := by
  have empty : Simplified (if is_and then .kAnd else .kOr) [] [] :=
    ⟨List.nodup_nil, by simp, by simp⟩
  obtain ⟨distinct, members⟩ := simplify_spec empty flat
  simp only [List.not_mem_nil, false_or] at members
  unfold makeAndOrImpl
  dsimp only
  generalize simplify (if is_and then .kAnd else .kOr) operands [] [] =
    simplified_ops at distinct members
  have general : simplified_ops.length ≠ 1 →
      Makes is_and operands
        (if clashes simplified_ops then if is_and then .or [] else .and []
        else if is_and then
          .and
            (simplified_ops.insertionSort
              (fun a b => a.hash hasher ≤ b.hash hasher))
        else
          .or (simplified_ops.insertionSort
            (fun a b => a.hash hasher ≤ b.hash hasher))) := by
    intro several
    by_cases clash : clashes simplified_ops = true
    · rw [if_pos clash]
      simp only [clashes, List.any_eq_true, List.contains_iff_mem] at clash
      obtain ⟨part, plain, negated⟩ := clash
      exact .clash ((members part).mp plain) ((members _).mp negated)
    · rw [if_neg clash]
      apply Makes.parts
      · exact (List.perm_insertionSort _ _).nodup_iff.mpr distinct
      · rwa [List.length_insertionSort]
      · intro candidate
        rw [List.mem_insertionSort, members]
  cases simplified_ops with
  | nil => exact general (by simp)
  | cons first rest =>
      cases rest with
      | nil =>
          apply Makes.single
          intro candidate
          rw [← members, List.mem_singleton]
      | cons second rest => exact general (by simp)

theorem makeAndPredicate_cases (hasher : Hasher) {operands : List Predicate}
    (flat : ∀ op ∈ operands, op.Flat) :
    (∀ part, part = makeAndPredicate hasher operands ↔
      ∃ op ∈ operands, part ∈ op.parts .kAnd) ∨
    (makeAndPredicate hasher operands = .or [] ∧ ∃ part,
      (∃ op ∈ operands, part ∈ op.parts .kAnd) ∧
      ∃ op ∈ operands, .not part ∈ op.parts .kAnd) ∨
    ∃ sorted, makeAndPredicate hasher operands = .and sorted ∧ sorted.Nodup ∧
      sorted.length ≠ 1 ∧
      ∀ part, part ∈ sorted ↔ ∃ op ∈ operands, part ∈ op.parts .kAnd := by
  rw [makeAndPredicate]
  have makes := makeAndOrImpl_makes hasher true flat
  generalize makeAndOrImpl hasher operands true = made at makes
  cases makes with
  | single members => exact .inl members
  | clash plain negated => exact .inr (.inl ⟨rfl, _, plain, negated⟩)
  | parts distinct several members =>
      exact .inr (.inr ⟨_, rfl, distinct, several, members⟩)

theorem makeOrPredicate_cases (hasher : Hasher) {operands : List Predicate}
    (flat : ∀ op ∈ operands, op.Flat) :
    (∀ part, part = makeOrPredicate hasher operands ↔
      ∃ op ∈ operands, part ∈ op.parts .kOr) ∨
    (makeOrPredicate hasher operands = .and [] ∧ ∃ part,
      (∃ op ∈ operands, part ∈ op.parts .kOr) ∧
      ∃ op ∈ operands, .not part ∈ op.parts .kOr) ∨
    ∃ sorted, makeOrPredicate hasher operands = .or sorted ∧ sorted.Nodup ∧
      sorted.length ≠ 1 ∧
      ∀ part, part ∈ sorted ↔ ∃ op ∈ operands, part ∈ op.parts .kOr := by
  rw [makeOrPredicate]
  have makes := makeAndOrImpl_makes hasher false flat
  generalize makeAndOrImpl hasher operands false = made at makes
  cases makes with
  | single members => exact .inl members
  | clash plain negated => exact .inr (.inl ⟨rfl, _, plain, negated⟩)
  | parts distinct several members =>
      exact .inr (.inr ⟨_, rfl, distinct, several, members⟩)

variable {s : Assignment}

theorem Predicate.eval_parts_and {op : Predicate} :
    (∀ part ∈ op.parts .kAnd, part.eval s = true) ↔ op.eval s = true := by
  cases op with
  | and operands => simp [parts, kind, Predicate.operands]
  | _ => simp [parts, kind]

theorem Predicate.eval_parts_or {op : Predicate} :
    (∃ part ∈ op.parts .kOr, part.eval s = true) ↔ op.eval s = true := by
  cases op with
  | or operands => simp [parts, kind, Predicate.operands]
  | _ => simp [parts, kind]

/-- A conjunction is true when all its operands are. -/
theorem eval_makeAndPredicate (hasher : Hasher) {operands : List Predicate}
    (flat : ∀ op ∈ operands, op.Flat) :
    (makeAndPredicate hasher operands).eval s = true ↔
      ∀ op ∈ operands, op.eval s = true := by
  have split : (∀ op ∈ operands, op.eval s = true) ↔
      ∀ part, (∃ op ∈ operands, part ∈ op.parts .kAnd) →
      part.eval s = true := by
    constructor
    · rintro all part ⟨op, member, isPart⟩
      exact Predicate.eval_parts_and.mpr (all op member) part isPart
    · intro all op member
      apply Predicate.eval_parts_and.mp
      intro part isPart
      exact all part ⟨op, member, isPart⟩
  rw [split]
  rcases makeAndPredicate_cases hasher flat
    with members | ⟨made, part, plain, negated⟩ |
    ⟨sorted, made, _, _, members⟩
  · simp only [← members, forall_eq]
  · simp only [made, Predicate.eval_or, List.not_mem_nil, false_and,
      exists_false, false_iff]
    intro all
    have partTrue := all part plain
    have partFalse := all _ negated
    rw [Predicate.eval_not, partTrue] at partFalse
    exact absurd partFalse (by simp)
  · simp only [made, Predicate.eval_and, members]

/-- A disjunction is true when one of its operands is. -/
theorem eval_makeOrPredicate (hasher : Hasher) {operands : List Predicate}
    (flat : ∀ op ∈ operands, op.Flat) :
    (makeOrPredicate hasher operands).eval s = true ↔
      ∃ op ∈ operands, op.eval s = true := by
  have split : (∃ op ∈ operands, op.eval s = true) ↔
      ∃ part, (∃ op ∈ operands, part ∈ op.parts .kOr) ∧ part.eval s = true := by
    constructor
    · rintro ⟨op, member, isTrue⟩
      obtain ⟨part, isPart, partTrue⟩ := Predicate.eval_parts_or.mpr isTrue
      exact ⟨part, ⟨op, member, isPart⟩, partTrue⟩
    · rintro ⟨part, ⟨op, member, isPart⟩, partTrue⟩
      exact ⟨op, member, Predicate.eval_parts_or.mp ⟨part, isPart, partTrue⟩⟩
  rw [split]
  rcases makeOrPredicate_cases hasher flat
    with members | ⟨made, part, plain, negated⟩ |
    ⟨sorted, made, _, _, members⟩
  · simp only [← members, exists_eq_left]
  · simp only [made, Predicate.eval_and, List.not_mem_nil, false_implies,
      implies_true, true_iff]
    cases truth : part.eval s with
    | true => exact ⟨part, plain, truth⟩
    | false => exact ⟨_, negated, by rw [Predicate.eval_not, truth]; rfl⟩
  · simp only [made, Predicate.eval_or, members]

end Factory

end NGraphBridge.Deadness
