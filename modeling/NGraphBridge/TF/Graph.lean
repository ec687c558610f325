import Mathlib.Data.List.Nodup
import Mathlib.Logic.Function.Basic
import NGraphBridge.Lib.Fallible

/-!
# TensorFlow graphs

The part of `tensorflow::Graph` that the bridge reads and rewrites.  A node is
known by its id; ids 0 and 1 are the source and the sink, and an edge names
its two ends by id.  A control edge uses slot -1 at both ends.
-/

namespace NGraphBridge.TF

/-- The codes of `tensorflow::Status` the bridge returns.  `check` is a failed
`CHECK`, which ends the process. -/
inductive Code where
  | internal
  | unimplemented
  | invalidArgument
  | notFound
  | outOfRange
  | check
  deriving DecidableEq, Repr

structure Error where
  code : Code
  message : String
  deriving DecidableEq, Repr

abbrev StatusOr (α : Type) := Except Error α

namespace errors

def internal (message : String) : Error := ⟨.internal, message⟩
def unimplemented (message : String) : Error := ⟨.unimplemented, message⟩
def invalidArgument (message : String) : Error := ⟨.invalidArgument, message⟩
def notFound (message : String) : Error := ⟨.notFound, message⟩
def outOfRange (message : String) : Error := ⟨.outOfRange, message⟩
def check (message : String) : Error := ⟨.check, message⟩

end errors

inductive DataType where
  | DT_FLOAT | DT_DOUBLE | DT_INT32 | DT_UINT8 | DT_INT16 | DT_INT8
  | DT_STRING | DT_COMPLEX64 | DT_INT64 | DT_BOOL | DT_QINT8 | DT_QUINT8
  | DT_QINT32 | DT_BFLOAT16 | DT_QINT16 | DT_QUINT16 | DT_UINT16
  | DT_COMPLEX128 | DT_HALF | DT_RESOURCE | DT_VARIANT | DT_UINT32 | DT_UINT64
  deriving DecidableEq, Repr

inductive AttrValue where
  | b (value : Bool)
  | i (value : Int)
  | s (value : String)
  | type (value : DataType)
  | listI (values : List Int)
  | listType (values : List DataType)
  deriving DecidableEq, Repr

abbrev AttrMap := List (String × AttrValue)

namespace AttrMap

def find (attrs : AttrMap) (name : String) : Option AttrValue :=
  attrs.lookup name

def clear (attrs : AttrMap) (name : String) : AttrMap :=
  attrs.filter (fun entry => entry.1 != name)

/-- Set an attribute, replacing a value it already had. -/
def set (attrs : AttrMap) (name : String) (value : AttrValue) : AttrMap :=
  (name, value) :: attrs.clear name

@[simp] theorem find_clear_self (attrs : AttrMap) (name : String) :
    (attrs.clear name).find name = none := by
  induction attrs with
  | nil => rfl
  | cons entry attrs ih =>
      obtain ⟨key, value⟩ := entry
      by_cases same : key = name
      · simpa [clear, find, same] using ih
      · have different : (name == key) = false := by
          simpa using Ne.symm same
        simpa [clear, find, same, List.lookup_cons, different] using ih

theorem find_clear_of_ne (attrs : AttrMap) {name other : String}
    (different : other ≠ name) :
    (attrs.clear name).find other = attrs.find other := by
  induction attrs with
  | nil => rfl
  | cons entry attrs ih =>
      obtain ⟨key, value⟩ := entry
      by_cases same : key = name
      · subst same
        have skipped : (other == key) = false := by simpa using different
        simpa [clear, find, List.lookup_cons, skipped] using ih
      · have kept : clear ((key, value) :: attrs) name =
            (key, value) :: clear attrs name := by
          simp [clear, same]
        rw [kept]
        simp only [find, List.lookup_cons] at ih ⊢
        rw [ih]

@[simp] theorem find_set_self (attrs : AttrMap) (name : String)
    (value : AttrValue) : (attrs.set name value).find name = some value := by
  simp [set, find]

theorem find_set_of_ne (attrs : AttrMap) {name other : String}
    (value : AttrValue) (different : other ≠ name) :
    (attrs.set name value).find other = attrs.find other := by
  have skipped : (other == name) = false := by simpa using different
  have step : (attrs.set name value).find other =
      (attrs.clear name).find other := by
    simp [set, find, List.lookup_cons, skipped]
  rw [step, find_clear_of_ne attrs different]

end AttrMap

structure Node where
  id : Nat
  name : String
  type_string : String
  attrs : AttrMap
  input_types : List DataType
  output_types : List DataType
  assigned_device_name : String
  requested_inputs : List String
  deriving DecidableEq, Repr

namespace Node

def num_inputs (node : Node) : Nat := node.input_types.length
def num_outputs (node : Node) : Nat := node.output_types.length

def isSource (node : Node) : Bool := node.id == 0
def isSink (node : Node) : Bool := node.id == 1
def isOp (node : Node) : Bool := !node.isSource && !node.isSink

def isSwitch (node : Node) : Bool :=
  ["Switch", "RefSwitch"].contains node.type_string
def isMerge (node : Node) : Bool :=
  ["Merge", "RefMerge"].contains node.type_string
def isEnter (node : Node) : Bool :=
  ["Enter", "RefEnter"].contains node.type_string
def isExit (node : Node) : Bool :=
  ["Exit", "RefExit"].contains node.type_string
def isNextIteration (node : Node) : Bool :=
  ["NextIteration", "RefNextIteration"].contains node.type_string
def isControlTrigger (node : Node) : Bool :=
  node.type_string == "ControlTrigger"
def isRecv (node : Node) : Bool := node.type_string == "_Recv"
def isHostRecv (node : Node) : Bool := node.type_string == "_HostRecv"

def isControlFlow (node : Node) : Bool :=
  node.isSwitch || node.isMerge || node.isEnter || node.isExit ||
    node.isNextIteration

def addAttr (node : Node) (name : String) (value : AttrValue) : Node :=
  { node with attrs := node.attrs.set name value }

def clearAttr (node : Node) (name : String) : Node :=
  { node with attrs := node.attrs.clear name }

end Node

section GetNodeAttr

private def attrError (name : String) : Option AttrValue → Error
  | none => errors.notFound s!"No attr named '{name}' in NodeDef"
  | some _ => errors.invalidArgument s!"AttrValue of '{name}' has another type"

def getNodeAttrBool (attrs : AttrMap) (name : String) : StatusOr Bool :=
  match attrs.find name with
  | some (.b value) => .ok value
  | other => .error (attrError name other)

def getNodeAttrInt (attrs : AttrMap) (name : String) : StatusOr Int :=
  match attrs.find name with
  | some (.i value) => .ok value
  | other => .error (attrError name other)

def getNodeAttrString (attrs : AttrMap) (name : String) : StatusOr String :=
  match attrs.find name with
  | some (.s value) => .ok value
  | other => .error (attrError name other)

def getNodeAttrType (attrs : AttrMap) (name : String) : StatusOr DataType :=
  match attrs.find name with
  | some (.type value) => .ok value
  | other => .error (attrError name other)

def getNodeAttrInts (attrs : AttrMap) (name : String) : StatusOr (List Int) :=
  match attrs.find name with
  | some (.listI values) => .ok values
  | other => .error (attrError name other)

end GetNodeAttr

/-- `Graph::kControlSlot`. -/
def kControlSlot : Int := -1

structure Edge where
  id : Nat
  src : Nat
  src_output : Int
  dst : Nat
  dst_input : Int
  deriving DecidableEq, Repr

namespace Edge

def isControlEdge (edge : Edge) : Bool := edge.src_output == kControlSlot

end Edge

namespace Node

/-- Put the data edges into their slots. -/
def fillSlots (node : Node) : List Edge → (Nat → Option Edge) →
    StatusOr (Nat → Option Edge)
  | [], slots => .ok slots
  | edge :: in_edges, slots =>
      if edge.isControlEdge then node.fillSlots in_edges slots
      else if edge.dst_input < 0 ∨ (node.num_inputs : Int) ≤ edge.dst_input then
        .error (errors.internal s!"Invalid edge input number {edge.dst_input}")
      else if (slots edge.dst_input.toNat).isSome then
        .error
          (errors.internal s!"Duplicate edge input number: {edge.dst_input}")
      else node.fillSlots in_edges
        (Function.update slots edge.dst_input.toNat (some edge))

def readSlots (slots : Nat → Option Edge) : List Nat → StatusOr (List Edge)
  | [] => .ok []
  | position :: positions =>
      match slots position with
      | none =>
          .error
            (errors.invalidArgument s!"Missing edge input number: {position}")
      | some edge => do
          let edges ← readSlots slots positions
          return edge :: edges

/-- The data edges into a node, in the order of its inputs. -/
def input_edges (node : Node) (in_edges : List Edge) :
    StatusOr (List Edge) := do
  let slots ← node.fillSlots in_edges (fun _ => none)
  readSlots slots (List.range node.num_inputs)

theorem fillSlots_ok {node : Node} {in_edges : List Edge}
    {slots filled : Nat → Option Edge}
    (success : node.fillSlots in_edges slots = .ok filled) :
    (∀ position edge, slots position = some edge →
      filled position = some edge) ∧
      (∀ edge ∈ in_edges, edge.isControlEdge = false →
        ∃ position : Nat, position < node.num_inputs ∧
          edge.dst_input = position ∧
          filled position = some edge) ∧
      ∀ position edge, filled position = some edge →
        slots position = some edge ∨
        (edge ∈ in_edges ∧ edge.isControlEdge = false ∧
          edge.dst_input = position) := by
  induction in_edges generalizing slots with
  | nil =>
      obtain rfl := Except.ok.inj success
      exact ⟨fun _ _ found => found, by simp, fun _ _ found => .inl found⟩
  | cons head in_edges ih =>
      unfold fillSlots at success
      by_cases control : head.isControlEdge = true
      · rw [if_pos control] at success
        obtain ⟨old, covered, only⟩ := ih success
        refine ⟨old, ?_, ?_⟩
        · intro edge member data
          rcases List.mem_cons.mp member with rfl | later
          · rw [control] at data
            exact absurd data (by simp)
          · exact covered edge later data
        · intro position edge found
          rcases only position edge found with old | ⟨later, rest⟩
          · exact .inl old
          · exact .inr ⟨by simp [later], rest⟩
      · rw [if_neg control] at success
        split_ifs at success with outside taken
        obtain ⟨old, covered, only⟩ := ih success
        have dataHead : head.isControlEdge = false := by simpa using control
        have position : (head.dst_input.toNat : Int) = head.dst_input :=
          Int.toNat_of_nonneg (by omega)
        refine ⟨?_, ?_, ?_⟩
        · intro slot edge found
          apply old
          by_cases same : slot = head.dst_input.toNat
          · rw [same] at found
            simp [found] at taken
          · rwa [Function.update_of_ne same]
        · intro edge member data
          rcases List.mem_cons.mp member with rfl | later
          · exact ⟨edge.dst_input.toNat, by omega, position.symm,
              old _ _ (Function.update_self _ _ _)⟩
          · exact covered edge later data
        · intro slot edge found
          rcases only slot edge found with atSlot | ⟨later, rest⟩
          · by_cases same : slot = head.dst_input.toNat
            · subst same
              rw [Function.update_self, Option.some.injEq] at atSlot
              subst atSlot
              exact .inr ⟨by simp, dataHead, position.symm⟩
            · rw [Function.update_of_ne same] at atSlot
              exact .inl atSlot
          · exact .inr ⟨by simp [later], rest⟩

theorem readSlots_ok {slots : Nat → Option Edge} {positions : List Nat}
    {edges : List Edge} (success : readSlots slots positions = .ok edges) :
    edges.map some = positions.map slots := by
  induction positions generalizing edges with
  | nil =>
      obtain rfl := Except.ok.inj success
      rfl
  | cons position positions ih =>
      unfold readSlots at success
      cases found : slots position with
      | none => simp [found] at success
      | some edge =>
          rw [found] at success
          obtain ⟨rest, atRest, success⟩ := bind_ok success
          obtain rfl := Except.ok.inj success
          rw [List.map_cons, List.map_cons, found, ih atRest]

/-- `input_edges` has every data edge at the place of its input, and nothing
else. -/
theorem input_edges_ok {node : Node} {in_edges edges : List Edge}
    (success : node.input_edges in_edges = .ok edges) :
    (∀ edge ∈ in_edges, edge.isControlEdge = false →
      ∃ position : Nat, edge.dst_input = position ∧
      edges[position]? = some edge) ∧
    ∀ (position : Nat) edge, edges[position]? = some edge →
      edge ∈ in_edges ∧ edge.isControlEdge = false ∧
      edge.dst_input = position := by
  obtain ⟨slots, filled, read⟩ := bind_ok success
  obtain ⟨_, covered, only⟩ := fillSlots_ok filled
  have mapped := readSlots_ok read
  have atPosition : ∀ position : Nat, position < node.num_inputs →
      edges[position]? = slots position := by
    intro position inside
    have entries : (edges.map some)[position]? =
        ((List.range node.num_inputs).map slots)[position]? := by
      rw [mapped]
    rw [List.getElem?_map, List.getElem?_map, List.getElem?_range inside,
      Option.map_some] at entries
    cases found : edges[position]? with
    | none => simp [found] at entries
    | some edge =>
        rw [found] at entries
        simpa using entries
  constructor
  · intro edge member data
    obtain ⟨position, inside, same, found⟩ := covered edge member data
    exact ⟨position, same, by rw [atPosition position inside, found]⟩
  · intro position edge found
    have inside : position < node.num_inputs := by
      have inEdges := (List.getElem?_eq_some_iff.mp found).1
      have lengths := congrArg List.length mapped
      simp only [List.length_map, List.length_range] at lengths
      omega
    rw [atPosition position inside] at found
    rcases only position edge found with old | new
    · simp at old
    · exact new

theorem input_edges_full {node : Node} {in_edges edges : List Edge}
    (success : node.input_edges in_edges = .ok edges) :
    edges.length = node.num_inputs := by
  obtain ⟨slots, _, read⟩ := bind_ok success
  have lengths := congrArg List.length (readSlots_ok read)
  simpa using lengths

/-- The edge into one input of a node. -/
def input_edge (node : Node) (in_edges : List Edge) (idx : Int) :
    StatusOr Edge :=
  if idx < 0 ∨ (node.num_inputs : Int) ≤ idx then
    .error (errors.invalidArgument
      s!"Invalid input_edge index: {idx}, Node {node.name}")
  else
    match in_edges.find? (fun edge => edge.dst_input == idx) with
    | some edge => .ok edge
    | none =>
        .error (errors.notFound
          s!"Could not find input edge {idx} for {node.name}")

theorem input_edge_ok {node : Node} {in_edges : List Edge} {idx : Int}
    {edge : Edge} (success : node.input_edge in_edges idx = .ok edge) :
    edge ∈ in_edges ∧ edge.dst_input = idx := by
  unfold input_edge at success
  split at success
  · simp at success
  · cases found : in_edges.find? (fun edge => edge.dst_input == idx) with
    | none => simp [found] at success
    | some other =>
        rw [found] at success
        obtain rfl := Except.ok.inj success
        exact ⟨List.mem_of_find?_eq_some found,
          by simpa using List.find?_some found⟩

end Node

def isNameChar (c : Char) : Bool :=
  c.isAlphanum || c == '_' || c == '.' || c == '-' || c == '/' || c == '>'

/-- The names that `IsValidNodeName` lets through are not empty and consist of
such characters. -/
def LegalName (name : String) : Prop :=
  name ≠ "" ∧ ∀ c ∈ name.toList, isNameChar c = true

instance (name : String) : Decidable (LegalName name) :=
  @instDecidableAnd _ _ inferInstance
    (List.decidableBAll (isNameChar · = true) name.toList)

structure Graph where
  nodes : List Node
  edges : List Edge
  deriving DecidableEq, Repr

namespace Graph

/-- The node an id stands for.  Every pointer the code follows is to a node of
the graph, so the default is never read. -/
def node (graph : Graph) (id : Nat) : Node :=
  (graph.nodes.find? (fun candidate => candidate.id == id)).getD
    ⟨id, "", "", [], [], [], "", []⟩

def op_nodes (graph : Graph) : List Node :=
  graph.nodes.filter Node.isOp

def out_edges (graph : Graph) (id : Nat) : List Edge :=
  graph.edges.filter (fun edge => edge.src == id)

def in_edges (graph : Graph) (id : Nat) : List Edge :=
  graph.edges.filter (fun edge => edge.dst == id)

def HasNode (graph : Graph) (id : Nat) : Prop :=
  ∃ node ∈ graph.nodes, node.id = id

instance (graph : Graph) (id : Nat) : Decidable (graph.HasNode id) :=
  inferInstanceAs (Decidable (∃ node ∈ graph.nodes, node.id = id))

/-- Apply an update to one node. -/
def updateNode (graph : Graph) (id : Nat) (update : Node → Node) : Graph :=
  { graph with
    nodes := graph.nodes.map
      (fun node => if node.id == id then update node else node) }

/-- What holds of every `tensorflow::Graph`: ids and names are unique, the
source and the sink are there, edges join nodes of the graph and lead out of
the source and into the sink, control edges use the control slot at both ends,
and data edges join an output of an op node to an input that no other edge leads
to. -/
structure WF (graph : Graph) : Prop where
  ids : (graph.nodes.map Node.id).Nodup
  names : (graph.nodes.map Node.name).Nodup
  source : graph.HasNode 0
  sink : graph.HasNode 1
  edgeIds : (graph.edges.map Edge.id).Nodup
  src : ∀ edge ∈ graph.edges, graph.HasNode edge.src
  dst : ∀ edge ∈ graph.edges, graph.HasNode edge.dst
  outOfSource : ∀ edge ∈ graph.edges, edge.dst ≠ 0
  intoSink : ∀ edge ∈ graph.edges, edge.src ≠ 1
  control : ∀ edge ∈ graph.edges, edge.isControlEdge = true →
    edge.dst_input = kControlSlot
  opEnds : ∀ edge ∈ graph.edges, edge.isControlEdge = false →
    (graph.node edge.src).isOp = true ∧ (graph.node edge.dst).isOp = true
  slots : ∀ edge ∈ graph.edges, edge.isControlEdge = false →
    (0 ≤ edge.src_output ∧
      edge.src_output < (graph.node edge.src).num_outputs) ∧
      0 ≤ edge.dst_input ∧ edge.dst_input < (graph.node edge.dst).num_inputs
  single : ∀ left ∈ graph.edges, ∀ right ∈ graph.edges,
    left.isControlEdge = false →
    right.isControlEdge = false → left.dst = right.dst →
    left.dst_input = right.dst_input → left = right

/-- The orders in which a graph is gone through: edge sets are unordered, sets
of node pointers are ordered by address, and `rpo` is what
`GetReversePostOrder` returns. -/
structure Enumeration (graph : Graph) where
  edges : List Edge
  in_edges : Nat → List Edge
  out_edges : Nat → List Edge
  pointers : List Nat
  rpo : List Node
  edgesPerm : edges.Perm graph.edges
  inEdgesPerm : ∀ id, (in_edges id).Perm (graph.in_edges id)
  outEdgesPerm : ∀ id, (out_edges id).Perm (graph.out_edges id)
  pointersPerm : pointers.Perm (graph.nodes.map Node.id)
  rpoInside : ∀ node ∈ rpo, node ∈ graph.nodes

/-- The order in which the graph was built, the sink last. -/
def byInsertion (graph : Graph) : Enumeration graph where
  edges := graph.edges
  in_edges := graph.in_edges
  out_edges := graph.out_edges
  pointers := graph.nodes.map Node.id
  rpo := graph.nodes.filter (!·.isSink) ++ graph.nodes.filter Node.isSink
  edgesPerm := .refl _
  inEdgesPerm := fun _ => .refl _
  outEdgesPerm := fun _ => .refl _
  pointersPerm := .refl _
  rpoInside := by
    intro node member
    rcases List.mem_append.mp member with early | last
    · exact (List.mem_filter.mp early).1
    · exact (List.mem_filter.mp last).1

variable {graph : Graph}

theorem Enumeration.mem_edges (order : Enumeration graph) (edge : Edge) :
    edge ∈ order.edges ↔ edge ∈ graph.edges :=
  order.edgesPerm.mem_iff

theorem Enumeration.mem_in_edges (order : Enumeration graph) (id : Nat)
    (edge : Edge) : edge ∈ order.in_edges id ↔ edge ∈ graph.edges ∧
    edge.dst = id := by
  rw [(order.inEdgesPerm id).mem_iff, Graph.in_edges, List.mem_filter]
  simp

theorem Enumeration.mem_out_edges (order : Enumeration graph) (id : Nat)
    (edge : Edge) : edge ∈ order.out_edges id ↔ edge ∈ graph.edges ∧
    edge.src = id := by
  rw [(order.outEdgesPerm id).mem_iff, Graph.out_edges, List.mem_filter]
  simp

/-- An id finds the node that has it. -/
theorem node_of_mem (ids : (graph.nodes.map Node.id).Nodup) {node : Node}
    (member : node ∈ graph.nodes) : graph.node node.id = node := by
  have found : graph.nodes.find? (fun candidate => candidate.id == node.id) =
      some node := by
    generalize graph.nodes = nodes at member ids
    induction nodes with
    | nil => simp at member
    | cons head tail ih =>
        simp only [List.map_cons, List.nodup_cons] at ids
        rcases List.mem_cons.mp member with rfl | later
        · simp
        · have different : (head.id == node.id) = false := by
            rw [beq_eq_false_iff_ne]
            intro same
            exact ids.1 (same ▸ List.mem_map_of_mem later)
          rw [List.find?_cons, different]
          exact ih later ids.2
  rw [Graph.node, found, Option.getD_some]

theorem WF.node_eq (wf : graph.WF) {node : Node} (member : node ∈ graph.nodes) :
    graph.node node.id = node :=
  node_of_mem wf.ids member

theorem node_id (id : Nat) : (graph.node id).id = id := by
  cases found : graph.nodes.find? (fun candidate => candidate.id == id) with
  | none => simp [Graph.node, found]
  | some node =>
      rw [Graph.node, found, Option.getD_some]
      simpa using List.find?_some found

theorem node_map {id : Nat} (idNode : graph.HasNode id) {update : Node → Node}
    (keepsId : ∀ node, (update node).id = node.id) :
    ({ graph with nodes := graph.nodes.map update } : Graph).node id =
      update (graph.node id) := by
  obtain ⟨node, member, sameId⟩ := idNode
  have there :
      (graph.nodes.find? (fun candidate => candidate.id == id)).isSome := by
    rw [List.find?_isSome]
    exact ⟨node, member, by simpa using sameId⟩
  obtain ⟨found, atId⟩ := Option.isSome_iff_exists.mp there
  have test : (fun candidate : Node => candidate.id == id) ∘ update =
      fun candidate => candidate.id == id := by
    funext candidate
    simp [keepsId]
  simp only [Graph.node, List.find?_map, test, atId, Option.map_some,
    Option.getD_some]

theorem WF.node_mem (wf : graph.WF) {id : Nat} (member : graph.HasNode id) :
    graph.node id ∈ graph.nodes ∧ (graph.node id).id = id := by
  obtain ⟨node, inNodes, rfl⟩ := member
  rw [wf.node_eq inNodes]
  exact ⟨inNodes, rfl⟩

theorem WF.name_injective (wf : graph.WF) {left right : Node}
    (leftIn : left ∈ graph.nodes) (rightIn : right ∈ graph.nodes)
    (same : left.name = right.name) : left = right :=
  List.inj_on_of_nodup_map wf.names leftIn rightIn same

theorem WF.id_injective (wf : graph.WF) {left right : Node}
    (leftIn : left ∈ graph.nodes) (rightIn : right ∈ graph.nodes)
    (same : left.id = right.id) : left = right :=
  List.inj_on_of_nodup_map wf.ids leftIn rightIn same

/-- An update that keeps what edges and look-ups depend on. -/
structure Relabels (update : Node → Node) : Prop where
  id : ∀ node, (update node).id = node.id
  name : ∀ node, (update node).name = node.name
  type : ∀ node, (update node).type_string = node.type_string
  inputs : ∀ node, (update node).num_inputs = node.num_inputs
  outputs : ∀ node, (update node).num_outputs = node.num_outputs

theorem Relabels.comp {first second : Node → Node} (outer : Relabels second)
    (inner : Relabels first) : Relabels (second ∘ first) where
  id := fun node => (outer.id _).trans (inner.id node)
  name := fun node => (outer.name _).trans (inner.name node)
  type := fun node => (outer.type _).trans (inner.type node)
  inputs := fun node => (outer.inputs _).trans (inner.inputs node)
  outputs := fun node => (outer.outputs _).trans (inner.outputs node)

def mapNodes (graph : Graph) (update : Node → Node) : Graph :=
  { graph with nodes := graph.nodes.map update }

section MapNodes

variable {update : Node → Node} (relabels : Relabels update)

include relabels

theorem Relabels.isOp (node : Node) : (update node).isOp = node.isOp := by
  simp [Node.isOp, Node.isSource, Node.isSink, relabels.id]

theorem Relabels.hasNode {id : Nat} : (graph.mapNodes update).HasNode id ↔
    graph.HasNode id := by
  simp [HasNode, mapNodes, relabels.id]

theorem Relabels.node {id : Nat} (idNode : graph.HasNode id) :
    (graph.mapNodes update).node id = update (graph.node id) :=
  node_map idNode relabels.id

theorem WF.mapNodes (wf : graph.WF) : (graph.mapNodes update).WF := by
  have ids : (graph.mapNodes update).nodes.map Node.id =
      graph.nodes.map Node.id := by
    simp [Graph.mapNodes, relabels.id]
  have names : (graph.mapNodes update).nodes.map Node.name =
      graph.nodes.map Node.name := by
    simp [Graph.mapNodes, relabels.name]
  constructor
  case ids => exact ids ▸ wf.ids
  case names => exact names ▸ wf.names
  case source => exact relabels.hasNode.mpr wf.source
  case sink => exact relabels.hasNode.mpr wf.sink
  case edgeIds => exact wf.edgeIds
  case src => exact fun edge member => relabels.hasNode.mpr (wf.src edge member)
  case dst => exact fun edge member => relabels.hasNode.mpr (wf.dst edge member)
  case outOfSource => exact wf.outOfSource
  case intoSink => exact wf.intoSink
  case control => exact wf.control
  case opEnds =>
    intro edge member data
    rw [relabels.node (wf.src edge member), relabels.node (wf.dst edge member),
      relabels.isOp, relabels.isOp]
    exact wf.opEnds edge member data
  case slots =>
    intro edge member data
    rw [relabels.node (wf.src edge member), relabels.node (wf.dst edge member),
      relabels.outputs, relabels.inputs]
    exact wf.slots edge member data
  case single => exact wf.single

theorem Relabels.op_nodes {node : Node} :
    node ∈ (graph.mapNodes update).op_nodes ↔
    ∃ old ∈ graph.op_nodes, node = update old := by
  simp only [Graph.op_nodes, Graph.mapNodes, List.mem_filter, List.mem_map]
  constructor
  · rintro ⟨⟨old, member, rfl⟩, isOp⟩
    exact ⟨old, ⟨member, relabels.isOp old ▸ isOp⟩, rfl⟩
  · rintro ⟨old, ⟨member, isOp⟩, rfl⟩
    exact ⟨⟨old, member, rfl⟩, (relabels.isOp old).symm ▸ isOp⟩

end MapNodes

end Graph

end NGraphBridge.TF
