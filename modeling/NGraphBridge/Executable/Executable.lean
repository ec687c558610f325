import NGraphBridge.Lib.Fallible
import NGraphBridge.NGraph.Function

/-!
# Executables

The constructor splits functions into trivial ones, which a call computes
itself, and networks for the Inference Engine.
-/

namespace NGraphBridge

open NGraph

namespace IETensor

/-- The element types with a precision. -/
def hasPrecision : ElementType → Bool
  | .f32 | .u8 | .i8 | .u16 | .i16 | .i32 | .u64 | .i64 | .boolean => true
  | _ => false

/-- A tensor with memory of its own.  Nothing reads it before it is written. -/
def allocate (element_type : ElementType) (shape : Shape) :
    Except String NGraph.Tensor :=
  if hasPrecision element_type then
    .ok (.fill element_type shape 0)
  else
    .error ("Can't convert type " ++ element_type.get_type_name ++
      " to IE precision!")

/-- `IETensor::write`.  The code does not check that the bytes fit; the error is
the write past the end of the blob. -/
def write (tensor : NGraph.Tensor) (bytes : List UInt8) :
    Except String NGraph.Tensor :=
  if fits : bytes.length ≤ tensor.data.length then
    .ok { tensor with
      data := bytes ++ tensor.data.drop bytes.length
      full := by
        have full := tensor.full
        simp only [List.length_append, List.length_drop]
        omega }
  else
    .error "write past the end of the blob"

theorem write_whole {tensor other : NGraph.Tensor}
    (type : tensor.element_type = other.element_type)
    (shape : tensor.shape = other.shape) :
    write tensor other.data = .ok other := by
  have sameLength : other.data.length = tensor.data.length := by
    rw [other.full, tensor.full, type, shape]
  have fits : other.data.length ≤ tensor.data.length := by omega
  have nothingLeft : tensor.data.drop other.data.length = [] := by
    rw [sameLength, List.drop_length]
  rw [write, dif_pos fits]
  apply congrArg Except.ok
  apply NGraph.Tensor.ext_data
  · exact type
  · exact shape
  · exact (congrArg (other.data ++ ·) nothingLeft).trans (List.append_nil _)

end IETensor

/-- The buffers that a call knows: its input and output tensors, the hoisted
parameters, and those of an infer request from before the call. -/
inductive Blob where
  | input (i : Nat)
  | hoisted (k : Nat)
  | output (i : Nat)
  | earlier (k : Nat)
  deriving DecidableEq, Repr

/-- What the code uses of the operation set and of the Inference Engine. -/
structure InferenceEngine where
  contains_op_type : Node → Bool
  LoadNetwork : Function → String → Except String Unit
  getInputsInfo : Function → List String
  getOutputsInfo : Function → List String
  Infer : Function → (String → Blob) → (Blob → NGraph.Tensor) → Blob →
    NGraph.Tensor

structure Executable where
  m_device : String
  m_trivial_fn : Option Function
  m_function : Function
  m_network : Option Function
  m_hoisted_params : List (String × NGraph.Tensor)
  m_skipped_inputs : List Nat

namespace Executable

def isUnused (func : Function) (param : Node) : Bool :=
  (func.get_users param).isEmpty

def skipped_inputs (func : Function) : List Nat :=
  (func.parameters.zipIdx.filter fun entry => isUnused func entry.1).map
    Prod.snd

def used_parameters (func : Function) : List Node :=
  func.parameters.filter fun param => !isUnused func param

/-- The function again, without the unused parameters. -/
def withUsedParameters (func : Function) : Function where
  ops := func.ops.filter fun node => !(node.is_parameter && isUnused func node)
  results := func.results
  parameters := used_parameters func

def parent (func : Function) (result : Node) : Node :=
  func.node (result.input_value 0).node

def hasZeroDim (result : Node) : Bool :=
  match (result.get_output_type 0).partial_shape with
  | .dynamic => false
  | .static shape => shape.contains 0

def isTrivialResult (func : Function) (result : Node) : Bool :=
  (parent func result).is_parameter ||
    (parent func result).as_constant.isSome ||
    hasZeroDim result

def trivial_fn (func : Function) : Bool :=
  func.results.all (isTrivialResult func)

/-- A constant that can become a parameter. -/
def hoistable (node : Node) : Option NGraph.Tensor :=
  match node.as_constant with
  | some value =>
      if node.input_values.isEmpty &&
        !(value.element_type == .i64 || value.element_type == .u64) then
        some value
      else
        none
  | none => none

/-- The parameter that takes the place of a constant. -/
def hoistedParam (func : Function) (constant : Node) (value : NGraph.Tensor) :
    Node where
  id := func.nextId
  friendly_name := constant.friendly_name
  op := .Parameter
  input_values := []
  outputs := [⟨value.element_type, .static value.shape⟩]

def hoistNode (func : Function) (constant : Node) (value : NGraph.Tensor)
    (node : Node) : Node :=
  if node.id == constant.id then
    hoistedParam func constant value
  else
    node.redirect constant.id func.nextId

def hoist (func : Function) (constant : Node) (value : NGraph.Tensor) :
    Function where
  ops := func.ops.map (hoistNode func constant value)
  results := func.results.map (hoistNode func constant value)
  parameters := [hoistedParam func constant value]

/-- The first constant that can be hoisted, in the order of the nodes. -/
def firstHoistable : List Node → Option (Node × NGraph.Tensor)
  | [] => none
  | node :: rest =>
      match hoistable node with
      | some value => some (node, value)
      | none => firstHoistable rest

def hoistParams (func : Function) :
    Except String (Function × List (String × NGraph.Tensor)) :=
  if func.parameters.isEmpty then
    match firstHoistable func.ops with
    | none =>
        .error "Unable to add a parameter to a function with no parameterss"
    | some (constant, value) => do
        let ie_tensor ← IETensor.allocate value.element_type value.shape
        let ie_tensor ← IETensor.write ie_tensor value.data
        return (hoist func constant value,
            [(constant.friendly_name, ie_tensor)])
  else
    .ok (func, [])

/-- The constructor. -/
def construct (ie : InferenceEngine) (func : Function) (device : String) :
    Except String Executable :=
  match func.ops.find? fun node => !ie.contains_op_type node with
  | some node =>
      .error ("Detected op " ++ node.get_name ++ " not belonging to opset5!")
  | none =>
      let m_skipped_inputs := skipped_inputs func
      let used :=
        if func.parameters.length != (used_parameters func).length then
          withUsedParameters func
        else
          func
      if trivial_fn used then
        .ok ⟨device, some used, func, none, [], m_skipped_inputs⟩
      else do
        let (network, m_hoisted_params) ← hoistParams used
        ie.LoadNetwork network device
        return ⟨device, none, network, some network, m_hoisted_params,
          m_skipped_inputs⟩

/-- The given output, or a new one. -/
def outputOr (output : Option NGraph.Tensor) (element_type : ElementType)
    (shape : Shape) : Except String NGraph.Tensor :=
  match output with
  | none => IETensor.allocate element_type shape
  | some output => .ok output

/-- One round of the loop of `CallTrivial`. -/
def trivialOutput (func : Function) (inputs : List NGraph.Tensor)
    (result : Node) (output : Option NGraph.Tensor) :
    Except String NGraph.Tensor :=
  match (result.get_output_type 0).partial_shape with
  | .dynamic =>
      .error "get_shape was called on a descriptor::Tensor with dynamic shape"
  | .static shape =>
      if shape.contains 0 then
        outputOr output (result.get_output_type 0).element_type shape
      else
        match (parent func result).op with
        | .Parameter =>
            match func.get_parameter_index (parent func result) with
            | none =>
                .error ("Input parameter " ++
                    (parent func result).friendly_name ++
                    " not found in trivial function")
            | some index =>
                match inputs[index]? with
                | none => .error "inputs[index] is past the end"
                | some input => do
                    let output ← outputOr output input.element_type input.shape
                    IETensor.write output input.data
        | .Constant value => do
            let output ← outputOr output value.element_type value.shape
            IETensor.write output value.data
        | _ =>
            .error
              "Expected constant or parameter feeding to a result in trivial function"

def trivialOutputs (func : Function) (inputs : List NGraph.Tensor) :
    List Node → List (Option NGraph.Tensor) →
    Except String (List (Option NGraph.Tensor))
  | [], outputs => .ok outputs
  | _ :: _, [] => .error "outputs[i] is past the end"
  | result :: results, output :: outputs => do
      let written ← trivialOutput func inputs result output
      let rest ← trivialOutputs func inputs results outputs
      return some written :: rest

def CallTrivial (func : Function) (inputs : List NGraph.Tensor)
    (outputs : List (Option NGraph.Tensor)) :
    Except String (List (Option NGraph.Tensor)) :=
  let outputs :=
    if outputs.isEmpty && !func.results.isEmpty then
      List.replicate func.results.length none
    else
      outputs
  trivialOutputs func inputs func.results outputs

/-- The name under which the Inference Engine knows the output that feeds a
result. -/
def get_output_name (func : Function) (result : Node) : String :=
  if (parent func result).outputs.length > 1 then
    (parent func result).friendly_name ++ "." ++
      toString (result.input_value 0).index
  else
    (parent func result).friendly_name

/-- The loop over the inputs from the `i`-th on, with the parameters that are
still to come. -/
def inputBlobs (input_info : List String) (m_skipped_inputs : List Nat) :
    Nat → List NGraph.Tensor → List Node → Except String (List (String × Blob))
  | _, [], _ => .ok []
  | i, _ :: inputs, parameters =>
      if m_skipped_inputs.contains i then
        inputBlobs input_info m_skipped_inputs (i + 1) inputs parameters
      else
        match parameters with
        | [] => .error "parameters[j] is past the end"
        | parameter :: parameters =>
            if input_info.contains parameter.friendly_name then do
              let rest ← inputBlobs input_info m_skipped_inputs
                  (i + 1) inputs parameters
              return (parameter.friendly_name, .input i) :: rest
            else
              inputBlobs input_info m_skipped_inputs (i + 1) inputs parameters

def hoistedBlobs (input_info : List String)
    (m_hoisted_params : List (String × NGraph.Tensor)) : List (String × Blob) :=
  (m_hoisted_params.zipIdx.filter fun entry =>
      input_info.contains entry.1.1).map
    fun entry => (entry.1.1, .hoisted entry.2)

def outputBlobs (func : Function) :
    Nat → List Node → List (Option NGraph.Tensor) →
    Except String (List (String × Blob))
  | _, [], _ => .ok []
  | _, _ :: _, [] => .error "outputs[i] is past the end"
  | i, _ :: results, none :: outputs => outputBlobs func (i + 1) results outputs
  | i, result :: results, some _ :: outputs => do
      let rest ← outputBlobs func (i + 1) results outputs
      return (get_output_name func result, .output i) :: rest

/-- The calls of `SetBlob`, in order. -/
def setBlobs (ie : InferenceEngine) (exec : Executable) (func : Function)
    (inputs : List NGraph.Tensor) (outputs : List (Option NGraph.Tensor)) :
    Except String (List (String × Blob)) := do
  let input_info := ie.getInputsInfo func
  let fromInputs ← inputBlobs input_info exec.m_skipped_inputs 0 inputs
      func.parameters
  let fromOutputs ← outputBlobs func 0 func.results outputs
  return fromInputs ++ hoistedBlobs input_info exec.m_hoisted_params ++
    fromOutputs

/-- The state of the infer request between calls. -/
structure Request where
  blobs : String → Nat
  memory : Nat → NGraph.Tensor

/-- `SetBlob` replaces what was bound to the name. -/
def bind (blobs : String → Blob) (binding : String × Blob) : String → Blob :=
  fun name => if name = binding.1 then binding.2 else blobs name

def memory (exec : Executable) (request : Request) (inputs : List NGraph.Tensor)
    (outputs : List (Option NGraph.Tensor)) : Blob → NGraph.Tensor
  | .input i => inputs.getD i default
  | .hoisted k => ((exec.m_hoisted_params[k]?).map Prod.snd).getD default
  | .output i => ((outputs[i]?).join).getD default
  | .earlier k => request.memory k

/-- What the outputs are after `Infer`: their own blobs, or those of the request
for the dynamic ones. -/
def collect (func : Function) (blobs : String → Blob)
    (memory : Blob → NGraph.Tensor) :
    Nat → List Node → List (Option NGraph.Tensor) → List (Option NGraph.Tensor)
  | i, _ :: results, some _ :: outputs =>
      some (memory (.output i)) :: collect func blobs memory
        (i + 1) results outputs
  | i, result :: results, none :: outputs =>
      some (memory (blobs (get_output_name func result))) ::
        collect func blobs memory (i + 1) results outputs
  | _, _, outputs => outputs

def CallNetwork (ie : InferenceEngine) (exec : Executable) (func : Function)
    (request : Request) (inputs : List NGraph.Tensor)
    (outputs : List (Option NGraph.Tensor)) :
    Except String (List (Option NGraph.Tensor)) :=
  let input_info := ie.getInputsInfo func
  let given := inputs.length + exec.m_hoisted_params.length
  if input_info.length > given then
    .error ("Function inputs (" ++ toString input_info.length ++
      ") number greater than number of given inputs (" ++ toString given ++ ")")
  else
    let output_info := ie.getOutputsInfo func
    let outputs :=
      if outputs.isEmpty && !output_info.isEmpty then
        List.replicate output_info.length none
      else
        outputs
    do
      let bindings ← setBlobs ie exec func inputs outputs
      let blobs := bindings.foldl bind fun name => .earlier (request.blobs name)
      let after := ie.Infer func blobs (memory exec request inputs outputs)
      return collect func blobs after 0 func.results outputs

def Call (ie : InferenceEngine) (exec : Executable) (request : Request)
    (inputs : List NGraph.Tensor) (outputs : List (Option NGraph.Tensor)) :
    Except String (List (Option NGraph.Tensor)) :=
  match exec.m_trivial_fn, exec.m_network with
  | some func, _ => CallTrivial func inputs outputs
  | none, some network => CallNetwork ie exec network request inputs outputs
  | none, none => .error "CNNNetwork was not initialized."

end Executable

end NGraphBridge
