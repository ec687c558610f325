import Mathlib.Logic.Basic

/-!
# Machines and their runs

A machine takes a state and an input to the next state and an output.  A run
over a list of inputs records every step with the states around it.
-/

namespace NGraphBridge

structure Machine (State Input Output : Type*) where
  step : State → Input → State × Output

namespace Machine

variable {State Input Output : Type*}

/-- One step of a run. -/
structure Entry (State Input Output : Type*) where
  before : State
  input : Input
  output : Output
  after : State

variable (machine : Machine State Input Output)

/-- The steps of a run, in order. -/
def trace (state : State) : List Input → List (Entry State Input Output)
  | [] => []
  | input :: inputs =>
      let next := machine.step state input
      ⟨state, input, next.2, next.1⟩ :: trace next.1 inputs

/-- The state a run ends in. -/
def final (state : State) : List Input → State
  | [] => state
  | input :: inputs => final (machine.step state input).1 inputs

/-- `invariant` survives every step. -/
def Preserves (invariant : State → Prop) : Prop :=
  ∀ state input, invariant state → invariant (machine.step state input).1

variable {machine}

theorem trace_step {state : State} {inputs : List Input}
    {entry : Entry State Input Output}
    (member : entry ∈ machine.trace state inputs) :
    machine.step entry.before entry.input = (entry.after, entry.output) := by
  induction inputs generalizing state with
  | nil => simp [trace] at member
  | cons input inputs ih =>
      rcases List.mem_cons.mp member with rfl | later
      · rfl
      · exact ih later

theorem input_mem {state : State} {inputs : List Input}
    {entry : Entry State Input Output}
    (member : entry ∈ machine.trace state inputs) : entry.input ∈ inputs := by
  induction inputs generalizing state with
  | nil => simp [trace] at member
  | cons input inputs ih =>
      rcases List.mem_cons.mp member with rfl | later
      · exact List.mem_cons_self
      · exact List.mem_cons_of_mem _ (ih later)

theorem before_of {invariant : State → Prop} {state : State}
    (initial : invariant state) {inputs : List Input}
    (keeps : ∀ state, ∀ input ∈ inputs, invariant state →
      invariant (machine.step state input).1)
    {entry : Entry State Input Output}
    (member : entry ∈ machine.trace state inputs) :
    invariant entry.before := by
  induction inputs generalizing state with
  | nil => simp [trace] at member
  | cons input inputs ih =>
      rcases List.mem_cons.mp member with rfl | later
      · exact initial
      · exact ih (keeps state input List.mem_cons_self initial)
          (fun state other isOther =>
            keeps state other (List.mem_cons_of_mem _ isOther)) later

theorem Preserves.before {invariant : State → Prop}
    (preserves : machine.Preserves invariant) {state : State}
    (initial : invariant state) {inputs : List Input}
    {entry : Entry State Input Output}
    (member : entry ∈ machine.trace state inputs) :
    invariant entry.before :=
  before_of initial (fun state input _ => preserves state input) member

/-- What the steps keep of a state and the steps before it holds at every step
of a run. -/
theorem history {invariant : List (Entry State Input Output) → State → Prop}
    (step : ∀ past state input, invariant past state →
      invariant (past ++ [⟨state, input, (machine.step state input).2,
        (machine.step state input).1⟩]) (machine.step state input).1)
    {past : List (Entry State Input Output)} {state : State}
    (initial : invariant past state) {inputs : List Input}
    {earlier later : List (Entry State Input Output)}
    {entry : Entry State Input Output}
    (split : machine.trace state inputs = earlier ++ entry :: later) :
    invariant (past ++ earlier) entry.before := by
  induction inputs generalizing state past earlier with
  | nil => simp [trace] at split
  | cons input inputs ih =>
      cases earlier with
      | nil =>
          obtain ⟨first, _⟩ := List.cons.inj split
          rw [← first, List.append_nil]
          exact initial
      | cons first earlier =>
          obtain ⟨isFirst, rest⟩ := List.cons.inj split
          have later := ih (step past state input initial) rest
          rw [isFirst, List.append_assoc] at later
          exact later

end Machine

end NGraphBridge
