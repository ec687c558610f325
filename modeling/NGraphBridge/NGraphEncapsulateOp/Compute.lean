import Mathlib.Data.List.ReduceOption
import NGraphBridge.NGraphBuilder.TranslateGraph
import NGraphBridge.NGraphEncapsulateOp.Signature

/-!
# Running a kernel

`Compute` gets an executable for its input tensors, from the cache or by
translating the graph of the cluster, checks the types and runs it. A cached
executable was made for other tensors; it is the right one if the signature
determines what the translation looks at.
-/

namespace NGraphBridge.NGraphEncapsulateOp

open TF
open NGraph (Shape ElementType)
open NGraphBuilder (tfDataTypeToNGraphElementType)

/-- The members that the constructor sets, and the types that TensorFlow knows
of the node. -/
structure Members where
  m_cluster_id : Int
  m_name : String
  m_input_is_static : List Bool
  expected_output_dtypes : List DataType

/-- A result of an executable; a dynamic one has no shape. -/
structure ResultInfo where
  element_type : ElementType
  shape : Option Shape

/-- What `TranslateGraph`, the backend and the executables make of what they are
given. An exception of an executable has a text if it is a standard one; what
the passes of `TranslateGraph` throw has no status. -/
structure Tools (Func Exec : Type) where
  translateGraph : List Shape → List (Option TF.Tensor) →
    Except (Option Error) Func
  compile : Func → Except String Exec
  getResults : Exec → List ResultInfo
  call : Exec → List TF.Tensor → Except (Option String) (List TF.Tensor)

/-- A call of `Compute`, with the value of
`NGRAPH_TF_FUNCTION_CACHE_ITEM_DEPTH`. -/
structure Request where
  tf_input_tensors : List TF.Tensor
  cache_depth_specified : Option Int32

/-- `undefined` is an access out of the bounds of a vector or of the outputs, or
an exception that nothing catches. -/
inductive ComputeOutcome where
  | computed (outputs : List TF.Tensor)
  | failed (error : Error)
  | undefined

/-- The static inputs are given with their elements, the others are null. -/
def staticInputMap (m_input_is_static : List Bool) (tensors : List TF.Tensor) :
    List (Option TF.Tensor) :=
  List.zipWith (fun is_static tensor => if is_static then some tensor else none)
    m_input_is_static tensors

def kernelInputs (m_input_is_static : List Bool) (dtypes : List DataType) :
    List KernelInput :=
  List.zipWith KernelInput.mk dtypes m_input_is_static

section Compute

variable {Func Exec : Type} (members : Members) (tools : Tools Func Exec)

def translated (request : Request) : Except (Option Error) Func :=
  tools.translateGraph (request.tf_input_tensors.map TF.Tensor.shape)
    (staticInputMap members.m_input_is_static request.tf_input_tensors)

/-- The translation of the graph ends with an exception. -/
def throws (request : Request) : Bool :=
  match translated members tools request with
  | .error none => true
  | _ => false

/-- What `GetExecutable` finds. -/
def callOf (request : Request) : Call Exec where
  signature := signature (kernelInputs members.m_input_is_static
    (request.tf_input_tensors.map TF.Tensor.dtype)) request.tf_input_tensors
  cache_depth_specified := request.cache_depth_specified
  translated :=
    match translated members tools request with
    | .ok _ => .ok ()
    | .error error => .error (error.getD (errors.internal ""))
  compiled :=
    match translated members tools request with
    | .ok ng_function => tools.compile ng_function
    | .error _ => .error ""

/-- `GetExecutable`; `m_input_is_static` is read at every input until one cannot
be written. -/
def getExecutable (cache : Cache Exec) (request : Request) :
    Cache Exec × Outcome Exec :=
  match (callOf members tools request).signature with
  | .error error => (cache, .failed error)
  | .ok signature =>
      if members.m_input_is_static.length < request.tf_input_tensors.length then
        (cache, .undefined)
      else if cache.m_ng_exec_map.lookup signature = none ∧
        throws members tools request then
        (cache, .undefined)
      else cache.GetExecutable (callOf members tools request)

def inputTypes : List TF.Tensor → StatusOr (List ElementType)
  | [] => .ok []
  | tensor :: tensors => do
      let ng_element_type ← tfDataTypeToNGraphElementType tensor.dtype
      let rest ← inputTypes tensors
      .ok (ng_element_type :: rest)

/-- The output of a result that is not dynamic is allocated, if the types
agree. -/
def allocateOutput (expected_output_dtype : Option DataType)
    (result : ResultInfo) : Except (Option Error) Unit :=
  match result.shape, expected_output_dtype with
  | none, _ => .ok ()
  | some _, none => .error none
  | some _, some dtype =>
      match tfDataTypeToNGraphElementType dtype with
      | .error error => .error (some error)
      | .ok expected_elem_type =>
          if result.element_type = expected_elem_type then .ok ()
          else
            .error
              (some
                (errors.internal
                  ("Element type inferred by nGraph does not match " ++
                    "the element type expected by TensorFlow")))

def allocateOutputs : List DataType → List ResultInfo →
    Except (Option Error) Unit
  | _, [] => .ok ()
  | expected_output_dtypes, result :: results => do
      allocateOutput expected_output_dtypes.head? result
      allocateOutputs expected_output_dtypes.tail results

/-- What is done with an executable. -/
def execute (ng_exec : Exec) (request : Request) : ComputeOutcome :=
  match inputTypes request.tf_input_tensors with
  | .error error => .failed error
  | .ok _ =>
      match allocateOutputs members.expected_output_dtypes
        (tools.getResults ng_exec) with
      | .error none => .undefined
      | .error (some error) => .failed error
      | .ok () =>
          match tools.call ng_exec request.tf_input_tensors with
          | .error (some what) => .failed (errors.internal (
              "Caught exception while executing cluster " ++
              toString members.m_cluster_id ++ ": " ++
              what))
          | .error none => .failed (errors.internal (
              "Caught exception while executing cluster " ++
              toString members.m_cluster_id))
          | .ok outputs =>
              -- the outputs of dynamic results are set at last
              if members.expected_output_dtypes.length <
                (tools.getResults ng_exec).length then
                .undefined
              else .computed outputs

def compute (cache : Cache Exec) (request : Request) :
    Cache Exec × ComputeOutcome :=
  match getExecutable members tools cache request with
  | (cache, .failed error) => (cache, .failed error)
  | (cache, .undefined) => (cache, .undefined)
  | (cache, .returned ng_exec) => (cache, execute members tools ng_exec request)

def op : Machine (Cache Exec) Request ComputeOutcome where
  step := compute members tools

/-- The executable that is made for a request if nothing is cached. -/
def built (request : Request) : Except (Option Error) Exec :=
  match translated members tools request with
  | .error error => .error error
  | .ok ng_function =>
      match tools.compile ng_function with
      | .error what =>
          .error (some (errors.internal ("Failed to compile function " ++
          members.m_name ++ ": " ++ what)))
      | .ok ng_exec => .ok ng_exec

end Compute

section Sources

variable {Exec : Type} {cache after : Cache Exec} {call : Call Exec}
  {output : Outcome Exec}

/-- An executable was in the cache before the call, or it was compiled for
it. -/
def Source (cache : Cache Exec) (call : Call Exec) (signature : String)
    (ng_exec : Exec) : Prop :=
  cache.m_ng_exec_map.lookup signature = some ng_exec ∨
    (call.signature = .ok signature ∧ call.translated = .ok () ∧
      call.compiled = .ok ng_exec)

theorem lookup_of_filter {map : List (String × Exec)} {signature gone : String}
    {ng_exec : Exec}
    (found : (map.filter (·.1 ≠ gone)).lookup signature = some ng_exec) :
    map.lookup signature = some ng_exec := by
  by_cases same : signature = gone
  · subst same
    have missing : (map.filter (·.1 ≠ signature)).lookup signature = none := by
      apply lookup_eq_none.mpr
      rw [filter_keys]
      simp
    rw [missing] at found
    exact absurd found (by simp)
  · rwa [lookup_filter same] at found

theorem lookup_makeRoom {roomy : Cache Exec}
    (room : cache.makeRoom = some roomy) {signature : String} {ng_exec : Exec}
    (found : roomy.m_ng_exec_map.lookup signature = some ng_exec) :
    cache.m_ng_exec_map.lookup signature = some ng_exec := by
  unfold Cache.makeRoom at room
  split at room
  case isTrue =>
    unfold Cache.evict at room
    split at room
    case h_1 => exact absurd room (by simp)
    case h_2 =>
      obtain rfl := Option.some.inj room
      exact lookup_of_filter found
  case isFalse =>
    obtain rfl := Option.some.inj room
    exact found

/-- Where what a call leaves and what it returns come from. -/
theorem getExecutable_sources
    (step : cache.GetExecutable call = (after, output)) :
    (∀ signature ng_exec, after.m_ng_exec_map.lookup signature = some ng_exec →
      Source cache call signature ng_exec) ∧
    ∀ ng_exec, output = .returned ng_exec →
      ∃ signature, call.signature = .ok signature ∧
      Source cache call signature ng_exec := by
  have kept : ∀ left : Cache Exec, left.m_ng_exec_map = cache.m_ng_exec_map →
      ∀ signature ng_exec, left.m_ng_exec_map.lookup signature = some ng_exec →
        Source cache call signature ng_exec := by
    intro left same signature ng_exec found
    rw [same] at found
    exact .inl found
  unfold Cache.GetExecutable at step
  split at step
  case h_1 =>
    obtain ⟨rfl, rfl⟩ := Prod.mk.inj step
    exact ⟨kept _ rfl, fun _ returned => absurd returned (by simp)⟩
  case h_2 signature isSignature =>
    split at step
    case h_2 ng_exec found =>
      have source : Source cache call signature ng_exec := .inl found
      unfold Cache.hit at step
      split at step
      case h_1 =>
        obtain ⟨rfl, rfl⟩ := Prod.mk.inj step
        exact ⟨kept _ rfl, fun _ returned => absurd returned (by simp)⟩
      case h_2 =>
        have returns : ∀ left, (left, Outcome.returned ng_exec) =
            (after, output) →
            ∀ other, output = .returned other →
            ∃ signature, call.signature = .ok signature ∧
              Source cache call signature other := by
          intro left same other returned
          obtain ⟨_, rfl⟩ := Prod.mk.inj same
          obtain rfl := Outcome.returned.inj returned
          exact ⟨signature, isSignature, source⟩
        split at step
        case isTrue =>
          exact ⟨kept _ (by rw [← (Prod.mk.inj step).1]), returns _ step⟩
        case isFalse =>
          exact ⟨kept _ (by rw [← (Prod.mk.inj step).1]), returns _ step⟩
    case h_1 missing =>
      unfold Cache.miss at step
      split at step
      case h_1 =>
        obtain ⟨rfl, rfl⟩ := Prod.mk.inj step
        exact ⟨kept _ rfl, fun _ returned => absurd returned (by simp)⟩
      case h_2 isTranslated =>
        dsimp only at step
        split at step
        case h_1 =>
          obtain ⟨rfl, rfl⟩ := Prod.mk.inj step
          exact ⟨kept _ rfl, fun _ returned => absurd returned (by simp)⟩
        case h_2 roomy room =>
          have roomKept : ∀ other ng_exec,
              roomy.m_ng_exec_map.lookup other = some ng_exec →
              Source cache call other ng_exec :=
            fun other ng_exec found => .inl (lookup_makeRoom room found)
          split at step
          case h_1 =>
            obtain ⟨rfl, rfl⟩ := Prod.mk.inj step
            exact ⟨roomKept, fun _ returned => absurd returned (by simp)⟩
          case h_2 ng_exec isCompiled =>
            have source : Source cache call signature ng_exec :=
              .inr ⟨isSignature, isTranslated, isCompiled⟩
            obtain ⟨rfl, rfl⟩ := Prod.mk.inj step
            constructor
            · intro other otherExec found
              by_cases same : other = signature
              · subst same
                rw [Cache.store, List.lookup_cons_self] at found
                obtain rfl := Option.some.inj found
                exact source
              · have apart : (other == signature) = false :=
                  beq_false_of_ne same
                rw [Cache.store] at found
                dsimp only at found
                rw [List.lookup_cons, apart] at found
                exact roomKept other otherExec (lookup_of_filter found)
            · intro other returned
              obtain rfl := Outcome.returned.inj returned
              exact ⟨signature, isSignature, source⟩

end Sources

section Built

variable {Func Exec : Type} {members : Members} {tools : Tools Func Exec}
  {request : Request}

theorem built_iff {ng_exec : Exec} : built members tools request = .ok ng_exec ↔
    (callOf members tools request).translated = .ok () ∧
      (callOf members tools request).compiled = .ok ng_exec := by
  rw [built, callOf]
  dsimp only
  cases translated members tools request with
  | error error => simp
  | ok ng_function =>
      dsimp only
      cases tools.compile ng_function with
      | error what => simp
      | ok other => simp

/-- The tensors have these types. -/
def HasTypes (types : List DataType) (request : Request) : Prop :=
  request.tf_input_tensors.map TF.Tensor.dtype = types

/-- Every executable in the cache was built for a request with its signature. -/
def Fresh (members : Members) (tools : Tools Func Exec) (types : List DataType)
    (cache : Cache Exec) : Prop :=
  ∀ signature ng_exec, cache.m_ng_exec_map.lookup signature = some ng_exec →
    ∃ request, HasTypes types request ∧
      (callOf members tools request).signature = .ok signature ∧
      built members tools request = .ok ng_exec

variable {types : List DataType} {cache after : Cache Exec}
  {output : Outcome Exec}

theorem Fresh.source (fresh : Fresh members tools types cache)
    (typed : HasTypes types request) {signature : String} {ng_exec : Exec}
    (source : Source cache (callOf members tools request) signature ng_exec) :
    ∃ other, HasTypes types other ∧
      (callOf members tools other).signature = .ok signature ∧
      built members tools other = .ok ng_exec := by
  cases source with
  | inl found => exact fresh signature ng_exec found
  | inr compiled =>
      obtain ⟨isSignature, isTranslated, isCompiled⟩ := compiled
      exact ⟨request, typed, isSignature,
        built_iff.mpr ⟨isTranslated, isCompiled⟩⟩

theorem Fresh.getExecutable (fresh : Fresh members tools types cache)
    (typed : HasTypes types request)
    (step : getExecutable members tools cache request = (after, output)) :
    Fresh members tools types after ∧
    ∀ ng_exec, output = .returned ng_exec → ∃ other, HasTypes types other ∧
      (∃ signature, (callOf members tools request).signature = .ok signature ∧
        (callOf members tools other).signature = .ok signature) ∧
      built members tools other = .ok ng_exec := by
  unfold NGraphEncapsulateOp.getExecutable at step
  split at step
  case h_1 =>
    obtain ⟨rfl, rfl⟩ := Prod.mk.inj step
    exact ⟨fresh, fun _ returned => absurd returned (by simp)⟩
  case h_2 =>
    split at step
    case isTrue =>
      obtain ⟨rfl, rfl⟩ := Prod.mk.inj step
      exact ⟨fresh, fun _ returned => absurd returned (by simp)⟩
    case isFalse =>
      split at step
      case isTrue =>
        obtain ⟨rfl, rfl⟩ := Prod.mk.inj step
        exact ⟨fresh, fun _ returned => absurd returned (by simp)⟩
      case isFalse =>
        obtain ⟨left, returns⟩ := getExecutable_sources step
        constructor
        · exact fun signature ng_exec found =>
            fresh.source typed (left signature ng_exec found)
        · intro ng_exec returned
          obtain ⟨signature, isSignature, source⟩ := returns ng_exec returned
          obtain ⟨other, otherTyped, otherSignature, isBuilt⟩ :=
            fresh.source typed source
          exact ⟨other, otherTyped, ⟨signature, isSignature, otherSignature⟩,
            isBuilt⟩

/-- The three ways in which a call of `Compute` goes on. -/
theorem compute_cases (members : Members) (tools : Tools Func Exec)
    (cache : Cache Exec) (request : Request) : ∃ after output,
      getExecutable members tools cache request = (after, output) ∧
      (compute members tools cache request).1 = after ∧
      ∀ outputs, (compute members tools cache request).2 = .computed outputs →
        ∃ ng_exec, output = .returned ng_exec ∧
          execute members tools ng_exec request = .computed outputs := by
  unfold compute
  cases found : getExecutable members tools cache request with
  | mk after output =>
      refine ⟨after, output, rfl, ?_⟩
      cases output with
      | returned ng_exec =>
          exact ⟨rfl, fun outputs computed => ⟨ng_exec, rfl, computed⟩⟩
      | failed error =>
          exact ⟨rfl, fun outputs computed => absurd computed (by simp)⟩
      | undefined =>
          exact ⟨rfl, fun outputs computed => absurd computed (by simp)⟩

theorem Fresh.compute (fresh : Fresh members tools types cache)
    (typed : HasTypes types request) :
    Fresh members tools types (compute members tools cache request).1 := by
  obtain ⟨after, output, step, same, _⟩ :=
    compute_cases members tools cache request
  rw [same]
  exact (fresh.getExecutable typed step).1

end Built

section Agreement

variable {m_input_is_static : List Bool} {types : List DataType}
  {left right : List TF.Tensor}

end Agreement

section Determined

variable {Func Exec : Type} {members : Members} {tools : Tools Func Exec}
  {types : List DataType} {request other : Request}

end Determined

end NGraphBridge.NGraphEncapsulateOp
