import Mathlib.Logic.Function.Basic
import Mathlib.Data.List.Basic

/-!
# Straight-line programs

Each statement gives a value to its own target, from the targets of statements
before it.  Running the statements in order is the only solution of the
equations that they state.
-/

namespace NGraphBridge.StraightLine

variable {Statement Target Value : Type*} [DecidableEq Target]

/-- What a statement writes, what it reads, and what it computes. -/
structure Meaning (Statement Target Value : Type*) where
  target : Statement → Target
  reads : Statement → List Target
  value : Statement → (Target → Value) → Value

variable (meaning : Meaning Statement Target Value)

def run : List Statement → (Target → Value) → Target → Value
  | [], env => env
  | statement :: rest, env =>
      run rest (Function.update env (meaning.target statement)
          (meaning.value statement env))

/-- Nothing is written twice or read before it is written. -/
def Ordered : List Target → List Statement → Prop
  | _, [] => True
  | known, statement :: rest =>
      meaning.target statement ∉ known ∧
        (∀ read ∈ meaning.reads statement, read ∈ known) ∧
        Ordered (meaning.target statement :: known) rest

instance Ordered.decidable :
    (known : List Target) → (program : List Statement) →
    Decidable (Ordered meaning known program)
  | _, [] => inferInstanceAs (Decidable True)
  | known, statement :: rest =>
      have := Ordered.decidable (meaning.target statement :: known) rest
      inferInstanceAs (Decidable (_ ∧ _ ∧ _))

/-- A statement sees nothing but what it reads. -/
def Local : Prop :=
  ∀ statement (left right : Target → Value),
    (∀ read ∈ meaning.reads statement, left read = right read) →
    meaning.value statement left = meaning.value statement right

def Solves (program : List Statement) (env : Target → Value) : Prop :=
  ∀ statement ∈ program, env (meaning.target statement) =
    meaning.value statement env

variable {meaning} {known : List Target} {program : List Statement}

omit [DecidableEq Target] in
theorem Ordered.target_not_mem (ordered : Ordered meaning known program)
    {statement : Statement} (member : statement ∈ program) :
    meaning.target statement ∉ known := by
  induction program generalizing known with
  | nil => simp at member
  | cons head rest ih =>
      cases List.mem_cons.mp member with
      | inl same => exact same ▸ ordered.1
      | inr later =>
          intro inKnown
          exact ih ordered.2.2 later (List.mem_cons_of_mem _ inKnown)

omit [DecidableEq Target] in
theorem Ordered.nodup (ordered : Ordered meaning known program) :
    (program.map meaning.target).Nodup := by
  induction program generalizing known with
  | nil => exact List.nodup_nil
  | cons head rest ih =>
      apply List.nodup_cons.mpr
      refine ⟨?_, ih ordered.2.2⟩
      intro again
      obtain ⟨statement, member, same⟩ := List.mem_map.mp again
      exact ordered.2.2.target_not_mem member
        (by rw [same]; exact List.mem_cons_self)

omit [DecidableEq Target] in
theorem Ordered.read_mem (ordered : Ordered meaning known program)
    {statement : Statement} (member : statement ∈ program) {read : Target}
    (isRead : read ∈ meaning.reads statement) :
    read ∈ known ∨ ∃ source ∈ program, meaning.target source = read := by
  induction program generalizing known with
  | nil => simp at member
  | cons head rest ih =>
      cases List.mem_cons.mp member with
      | inl same => exact .inl (ordered.2.1 read (same ▸ isRead))
      | inr later =>
          cases ih ordered.2.2 later with
          | inr found =>
              obtain ⟨source, inRest, same⟩ := found
              exact .inr ⟨source, List.mem_cons_of_mem _ inRest, same⟩
          | inl isKnown =>
              cases List.mem_cons.mp isKnown with
              | inl same => exact .inr ⟨head, List.mem_cons_self, same.symm⟩
              | inr before => exact .inl before

omit [DecidableEq Target] in
/-- Statements that nothing reads can be left out. -/
theorem Ordered.filter (ordered : Ordered meaning known program)
    {keep : Statement → Bool} {kept : List Target}
    (subset : ∀ target ∈ kept, target ∈ known)
    (needed : ∀ target ∈ known, ∀ statement ∈ program,
      target ∈ meaning.reads statement →
      target ∈ kept)
    (unread : ∀ statement ∈ program, keep statement = false →
      ∀ reader ∈ program,
      meaning.target statement ∉ meaning.reads reader) :
    Ordered meaning kept (program.filter keep) := by
  induction program generalizing known kept with
  | nil => trivial
  | cons head rest ih =>
      have later : ∀ statement ∈ rest, statement ∈ head :: rest :=
        fun _ member => List.mem_cons_of_mem _ member
      have restUnread : ∀ statement ∈ rest, keep statement = false →
          ∀ reader ∈ rest, meaning.target statement ∉ meaning.reads reader :=
        fun statement member gone reader inRest =>
          unread statement (later _ member) gone reader (later _ inRest)
      by_cases keepHead : keep head = true
      · rw [List.filter_cons_of_pos keepHead]
        refine ⟨fun isKept => ordered.1 (subset _ isKept), fun read isRead =>
          needed read (ordered.2.1 read isRead) head List.mem_cons_self isRead,
            ?_⟩
        apply ih ordered.2.2 _ _ restUnread
        · intro target isKept
          cases List.mem_cons.mp isKept with
          | inl same => exact same ▸ List.mem_cons_self
          | inr before => exact List.mem_cons_of_mem _ (subset target before)
        · intro target isKnown statement member isRead
          cases List.mem_cons.mp isKnown with
          | inl same => exact same ▸ List.mem_cons_self
          | inr before =>
              exact List.mem_cons_of_mem
                _ (needed target before statement (later _ member) isRead)
      · rw [List.filter_cons_of_neg keepHead]
        apply ih ordered.2.2 _ _ restUnread
        · exact fun target isKept =>
            List.mem_cons_of_mem _ (subset target isKept)
        · intro target isKnown statement member isRead
          cases List.mem_cons.mp isKnown with
          | inl same =>
              exact absurd (same ▸ isRead)
                (unread head List.mem_cons_self (by simpa using keepHead)
                statement (later _ member))
          | inr before =>
              exact needed target before statement (later _ member) isRead

omit [DecidableEq Target] in
theorem Ordered.congr {Other : Type*} {other : Meaning Statement Target Other}
    (ordered : Ordered meaning known program)
    (target : ∀ statement, other.target statement = meaning.target statement)
    (reads : ∀ statement, other.reads statement = meaning.reads statement) :
    Ordered other known program := by
  induction program generalizing known with
  | nil => trivial
  | cons head rest ih =>
      refine ⟨?_, ?_, ?_⟩
      · rw [target]
        exact ordered.1
      · rw [reads]
        exact ordered.2.1
      · rw [target]
        exact ih ordered.2.2

omit [DecidableEq Target] in
/-- Targets can be renamed as long as they stay apart. -/
theorem Ordered.map (ordered : Ordered meaning known program)
    {other : Meaning Statement Target Value} {rename : Target → Target}
    {change : Statement → Statement} (target : ∀ statement ∈ program,
      other.target (change statement) = rename (meaning.target statement))
    (reads : ∀ statement ∈ program, ∀ read ∈ other.reads (change statement),
      ∃ old ∈ meaning.reads statement, rename old = read)
    (apart : ∀ statement ∈ program, ∀ old,
      (old ∈ known ∨ ∃ earlier ∈ program, meaning.target earlier = old) →
      rename (meaning.target statement) = rename old →
      meaning.target statement = old) :
    Ordered other (known.map rename) (program.map change) := by
  induction program generalizing known with
  | nil => trivial
  | cons head rest ih =>
      have later : ∀ statement ∈ rest, statement ∈ head :: rest :=
        fun _ member => List.mem_cons_of_mem _ member
      refine ⟨?_, ?_, ?_⟩
      · rw [target head List.mem_cons_self]
        intro again
        obtain ⟨old, isKnown, same⟩ := List.mem_map.mp again
        have equal := apart head List.mem_cons_self old (.inl isKnown) same.symm
        exact ordered.1 (equal ▸ isKnown)
      · intro read isRead
        obtain ⟨old, isOld, rfl⟩ := reads head List.mem_cons_self read isRead
        exact List.mem_map_of_mem (ordered.2.1 old isOld)
      · rw [target head List.mem_cons_self]
        apply ih ordered.2.2
          (fun statement member => target statement (later _ member))
          (fun statement member => reads statement (later _ member))
        intro statement member old isOld
        apply apart statement (later _ member) old
        cases isOld with
        | inr found =>
            obtain ⟨earlier, inRest, same⟩ := found
            exact .inr ⟨earlier, later _ inRest, same⟩
        | inl isKnown =>
            cases List.mem_cons.mp isKnown with
            | inl same => exact .inr ⟨head, List.mem_cons_self, same.symm⟩
            | inr before => exact .inl before

theorem run_map {other : Meaning Statement Target Value}
    {change : Statement → Statement}
    (target : ∀ statement, other.target (change statement) =
      meaning.target statement)
    (value : ∀ statement, other.value (change statement) =
      meaning.value statement)
    (env : Target → Value) :
    run other (program.map change) env = run meaning program env := by
  induction program generalizing env with
  | nil => rfl
  | cons head rest ih =>
      rw [List.map_cons, run, run, target, value]
      exact ih _

theorem run_known (ordered : Ordered meaning known program)
    {env : Target → Value} {target : Target} (isKnown : target ∈ known) :
    run meaning program env target = env target := by
  induction program generalizing known env with
  | nil => rfl
  | cons head rest ih =>
      rw [run, ih ordered.2.2 (List.mem_cons_of_mem _ isKnown)]
      apply Function.update_of_ne
      intro same
      exact ordered.1 (same ▸ isKnown)

theorem run_solves (isLocal : Local meaning)
    (ordered : Ordered meaning known program) (env : Target → Value) :
    Solves meaning program (run meaning program env) := by
  induction program generalizing known env with
  | nil => simp [Solves]
  | cons head rest ih =>
      intro statement member
      cases List.mem_cons.mp member with
      | inr later => exact ih ordered.2.2 _ statement later
      | inl same =>
          rw [same, run, run_known ordered.2.2 List.mem_cons_self,
            Function.update_self]
          apply isLocal
          intro read isRead
          have isKnown := ordered.2.1 read isRead
          rw [run_known ordered.2.2 (List.mem_cons_of_mem _ isKnown),
            Function.update_of_ne]
          intro again
          exact ordered.1 (again ▸ isKnown)

/-- A solution that starts like the run is the run. -/
theorem run_unique (isLocal : Local meaning)
    (ordered : Ordered meaning known program) {env other : Target → Value}
    (solves : Solves meaning program other)
    (start : ∀ target ∈ known, other target = env target) :
    ∀ statement ∈ program,
      other (meaning.target statement) = run meaning program env
        (meaning.target statement) := by
  induction program generalizing known env with
  | nil => simp
  | cons head rest ih =>
      have here : other (meaning.target head) = meaning.value head env := by
        rw [solves head List.mem_cons_self]
        apply isLocal
        intro read isRead
        exact start read (ordered.2.1 read isRead)
      have restStart : ∀ target ∈ meaning.target head :: known,
          other target =
            Function.update env (meaning.target head) (meaning.value head env)
              target := by
        intro target isKnown
        by_cases same : target = meaning.target head
        · rw [same, here, Function.update_self]
        · rw [Function.update_of_ne same]
          exact start target ((List.mem_cons.mp isKnown).resolve_left same)
      intro statement member
      cases List.mem_cons.mp member with
      | inl same =>
          rw [same, run, run_known ordered.2.2 List.mem_cons_self,
            Function.update_self, here]
      | inr later =>
          exact ih ordered.2.2
            (fun statement member =>
              solves statement (List.mem_cons_of_mem _ member))
            restStart statement later

/-- What every statement passes on holds of all that is computed. -/
theorem run_induction (ordered : Ordered meaning known program)
    (env : Target → Value) {holds : Target → Value → Prop}
    (start : ∀ target ∈ known, holds target (env target))
    (step : ∀ statement ∈ program, ∀ values : Target → Value,
      (∀ read ∈ meaning.reads statement, holds read (values read)) →
      holds (meaning.target statement) (meaning.value statement values)) :
    ∀ statement ∈ program,
      holds (meaning.target statement)
        (run meaning program env (meaning.target statement)) := by
  induction program generalizing known env with
  | nil => simp
  | cons head rest ih =>
      have here := step head List.mem_cons_self env
        (fun read isRead => start read (ordered.2.1 read isRead))
      intro statement member
      cases List.mem_cons.mp member with
      | inl same =>
          rw [same, run, run_known ordered.2.2 List.mem_cons_self,
            Function.update_self]
          exact here
      | inr later =>
          apply ih ordered.2.2 _ _ (fun statement member => step statement
            (List.mem_cons_of_mem _ member)) statement later
          intro target isKnown
          by_cases same : target = meaning.target head
          · rw [same, Function.update_self]
            exact here
          · rw [Function.update_of_ne same]
            exact start target ((List.mem_cons.mp isKnown).resolve_left same)

end NGraphBridge.StraightLine
