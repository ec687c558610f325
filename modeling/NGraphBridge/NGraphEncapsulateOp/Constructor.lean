import NGraphBridge.EncapsulateClusters.Pass
import NGraphBridge.NGraphEncapsulateOp.Compute

/-!
# Making a kernel

The constructor takes the graph of the cluster out of the `ClusterManager`, or
out of the function library, and finds out which arguments drive static inputs.
-/

namespace NGraphBridge.NGraphEncapsulateOp

open TF MarkForClustering EncapsulateClusters

/-- The `_Arg` nodes with the largest of their indices. -/
def collectArgs : List Node → List Node → Int → StatusOr (List Node × Int)
  | [], arg_nodes, max_arg_index => .ok (arg_nodes, max_arg_index)
  | node :: nodes, arg_nodes, max_arg_index =>
      if node.type_string == "_Arg" then do
        let index ← getNodeAttrInt node.attrs "index"
        collectArgs nodes (arg_nodes ++ [node]) (max index max_arg_index)
      else collectArgs nodes arg_nodes max_arg_index

/-- An error is none if an entry is written that is out of range. -/
def markArgs {graph : Graph} (order : graph.Enumeration) :
    List Node → List Bool → Except (Option Error) (List Bool)
  | [], m_input_is_static => .ok m_input_is_static
  | node :: arg_nodes, m_input_is_static =>
      match getNodeAttrInt node.attrs "index" with
      | .error error => .error (some error)
      | .ok index =>
          if 0 ≤ index ∧ index < m_input_is_static.length then
            markArgs order arg_nodes
              (m_input_is_static.set index.toNat (argIsStatic order node))
          else .error none

/-- `m_input_is_static`. -/
def inputIsStaticVector {graph : Graph} (order : graph.Enumeration) :
    Except (Option Error) (List Bool) :=
  match collectArgs graph.nodes [] (-1) with
  | .error error => .error (some error)
  | .ok (arg_nodes, max_arg_index) =>
      markArgs order arg_nodes (List.replicate (max_arg_index + 1).toNat false)

/-- The graphs of the functions in the function library: none if there is no
function of this name, and nothing in it if it has no body. -/
abbrev FunctionLibrary := String → Option (Option Graph)

/-- `undefined` is a null pointer that is read, or an access out of the bounds
of a vector. -/
inductive ConstructOutcome where
  | constructed (m_graph : Graph) (members : Members)
  | failed (error : Error)
  | undefined

def clusterGraph (library : EncapsulateClusters.Library)
    (manager : ClusterManager) (flib : FunctionLibrary) (m_cluster_id : Int) :
    Except (Option Error) Graph :=
  match manager.getClusterGraph m_cluster_id with
  | some graph_def =>
      match library.convertGraphDefToGraph graph_def with
      | .error error => .error (some error)
      | .ok m_graph => .ok m_graph
  | none =>
      let flib_key := "ngraph_cluster_" ++ toString m_cluster_id
      match flib flib_key with
      | none =>
          .error
            (some
              (errors.internal
                ("Did not find graphdef for encapsulate " ++ flib_key ++
                  " in ClusterManager or function library")))
      | some none => .error none
      | some (some graph) => .ok graph

/-- `NGraphEncapsulateOp::NGraphEncapsulateOp` for a node. -/
def construct (library : EncapsulateClusters.Library) (manager : ClusterManager)
    (flib : FunctionLibrary) (node : Node) : ConstructOutcome :=
  match getNodeAttrInt node.attrs "ngraph_cluster" with
  | .error error => .failed error
  | .ok m_cluster_id =>
      match clusterGraph library manager flib m_cluster_id with
      | .error none => .undefined
      | .error (some error) => .failed error
      | .ok m_graph =>
          match inputIsStaticVector (library.orders m_graph) with
          | .error none => .undefined
          | .error (some error) => .failed error
          | .ok m_input_is_static =>
              .constructed m_graph
                ⟨m_cluster_id, node.name, m_input_is_static, node.output_types⟩

section StaticVector

variable {graph : Graph} {order : graph.Enumeration}

/-- The argument of this index. -/
def IsArgAt (graph : Graph) (node : Node) (k : Nat) : Prop :=
  node ∈ graph.nodes ∧ node.type_string = "_Arg" ∧
    getNodeAttrInt node.attrs "index" = .ok (k : Int)

/-- The arguments are numbered by their indices. -/
structure ArgsNumbered (graph : Graph) (count : Nat) : Prop where
  inside : ∀ node ∈ graph.nodes, node.type_string = "_Arg" →
    ∃ k < count, IsArgAt graph node k
  each : ∀ k < count, ∃ node, IsArgAt graph node k
  unique : ∀ {left right : Node} {k : Nat}, IsArgAt graph left k →
    IsArgAt graph right k →
    left = right

/-- The nodes that are collected, with a bound for their indices that one of
them has. -/
theorem collectArgs_ok {nodes arg_nodes : List Node} {max_arg_index : Int}
    {index : Node → Nat} (indexed : ∀ node ∈ nodes, node.type_string = "_Arg" →
      getNodeAttrInt node.attrs "index" = .ok (index node : Int)) :
    collectArgs nodes arg_nodes max_arg_index =
      .ok (arg_nodes ++ nodes.filter (·.type_string == "_Arg"),
        (nodes.filter (·.type_string == "_Arg")).foldl
          (fun largest node => max (index node : Int) largest)
          max_arg_index) := by
  induction nodes generalizing arg_nodes max_arg_index with
  | nil => simp [collectArgs]
  | cons node nodes ih =>
      have rest := fun other member =>
        indexed other (List.mem_cons_of_mem node member)
      rw [collectArgs]
      cases isArg : node.type_string == "_Arg" with
      | true =>
          have kept : (node :: nodes).filter (·.type_string == "_Arg") =
              node :: nodes.filter (·.type_string == "_Arg") :=
            List.filter_cons_of_pos isArg
          rw [if_pos rfl,
            indexed node List.mem_cons_self (by simpa using isArg), kept,
            List.foldl_cons]
          change collectArgs nodes (arg_nodes ++ [node]) _ = _
          rw [ih rest, List.append_assoc, List.singleton_append]
      | false =>
          have dropped : (node :: nodes).filter (·.type_string == "_Arg") =
              nodes.filter (·.type_string == "_Arg") :=
            List.filter_cons_of_neg (by simp [isArg])
          rw [if_neg Bool.false_ne_true, dropped]
          exact ih rest

theorem largest_eq {nodes : List Node} {index : Node → Nat} {bound start : Int}
    (below : ∀ node ∈ nodes, (index node : Int) ≤ bound)
    (startBelow : start ≤ bound)
    (attained : start = bound ∨ ∃ node ∈ nodes, (index node : Int) = bound) :
    nodes.foldl (fun largest node => max (index node : Int) largest) start =
      bound := by
  induction nodes generalizing start with
  | nil =>
      cases attained with
      | inl same => exact same
      | inr found =>
          obtain ⟨_, member, _⟩ := found
          exact absurd member List.not_mem_nil
  | cons node nodes ih =>
      have here := below node List.mem_cons_self
      rw [List.foldl_cons]
      apply ih (fun other member => below other (List.mem_cons_of_mem _ member))
        (by omega)
      cases attained with
      | inl same => exact .inl (by omega)
      | inr found =>
          obtain ⟨other, member, same⟩ := found
          cases List.mem_cons.mp member with
          | inl first =>
              subst first
              exact .inl (by omega)
          | inr later => exact .inr ⟨other, later, same⟩

/-- Every entry is written by the arguments of its index, or it is left as it
is. -/
theorem markArgs_ok (order : graph.Enumeration) {arg_nodes : List Node}
    (flags : List Bool) {index : Node → Nat}
    (indexed : ∀ node ∈ arg_nodes, getNodeAttrInt node.attrs "index" =
      .ok (index node : Int))
    (inside : ∀ node ∈ arg_nodes, index node < flags.length) :
    ∃ m_input_is_static, markArgs order arg_nodes flags =
      .ok m_input_is_static ∧
      m_input_is_static.length = flags.length ∧
      ∀ (k : Nat) (value : Bool),
        (∀ node ∈ arg_nodes, index node = k → argIsStatic order node = value) →
        (flags[k]? = some value ∨ (∃ node ∈ arg_nodes, index node = k)) →
        m_input_is_static[k]? = some value := by
  induction arg_nodes generalizing flags with
  | nil =>
      refine ⟨flags, rfl, rfl, ?_⟩
      intro k value _ source
      cases source with
      | inl left => exact left
      | inr found =>
          obtain ⟨_, member, _⟩ := found
          exact absurd member List.not_mem_nil
  | cons node arg_nodes ih =>
      have here := inside node List.mem_cons_self
      obtain ⟨m_input_is_static, marked, length, entries⟩ :=
        ih (flags.set (index node) (argIsStatic order node))
          (fun other member => indexed other (List.mem_cons_of_mem _ member))
          (fun other member => by
            rw [List.length_set]
            exact inside other (List.mem_cons_of_mem _ member))
      refine ⟨m_input_is_static, ?_, by rw [length, List.length_set], ?_⟩
      · rw [markArgs, indexed node List.mem_cons_self]
        dsimp only
        rw [if_pos ⟨Int.natCast_nonneg _, Int.ofNat_lt.mpr here⟩,
          Int.toNat_natCast]
        exact marked
      · intro k value agree source
        apply entries k value fun other member =>
          agree other (List.mem_cons_of_mem _ member)
        by_cases same : index node = k
        · refine .inl ?_
          rw [← same, List.getElem?_set_self here,
            agree node List.mem_cons_self same]
        · rw [List.getElem?_set_ne same]
          cases source with
          | inl left => exact .inl left
          | inr found =>
              obtain ⟨other, member, atK⟩ := found
              cases List.mem_cons.mp member with
              | inl first => exact absurd (first ▸ atK) same
              | inr later => exact .inr ⟨other, later, atK⟩

/-- The vector has an entry for each argument, which says whether it drives a
static input. -/
theorem inputIsStaticVector_ok {count : Nat}
    (numbered : ArgsNumbered graph count) {isStatic : Nat → Bool}
    (static : ∀ node k, IsArgAt graph node k →
      argIsStatic order node = isStatic k) :
    inputIsStaticVector order = .ok ((List.range count).map isStatic) := by
  let index (node : Node) : Nat :=
    ((getNodeAttrInt node.attrs "index").toOption.getD 0).toNat
  have indexOf : ∀ {node k}, IsArgAt graph node k → index node = k := by
    intro node k isArg
    simp only [index, isArg.2.2, Except.toOption, Option.getD_some,
      Int.toNat_natCast]
  have args : ∀ node ∈ graph.nodes, node.type_string = "_Arg" →
      IsArgAt graph node (index node) ∧ index node < count := by
    intro node member isArg
    obtain ⟨k, inside, atK⟩ := numbered.inside node member isArg
    rw [indexOf atK]
    exact ⟨atK, inside⟩
  let arg_nodes := graph.nodes.filter (·.type_string == "_Arg")
  have collected : ∀ node ∈ arg_nodes, IsArgAt graph node (index node) ∧
      index node < count := by
    intro node member
    obtain ⟨inGraph, isArg⟩ := List.mem_filter.mp member
    exact args node inGraph (by simpa using isArg)
  have memArgs : ∀ {node k}, IsArgAt graph node k → node ∈ arg_nodes :=
    fun isArg =>
    List.mem_filter.mpr ⟨isArg.1, by simpa using isArg.2.1⟩
  have largest :
      arg_nodes.foldl (fun largest node => max (index node : Int) largest)
        (-1) =
      (count : Int) - 1 := by
    apply largest_eq
    · intro node member
      have inside := (collected node member).2
      omega
    · omega
    · cases count with
      | zero => exact .inl (by omega)
      | succ count =>
          obtain ⟨node, isArg⟩ := numbered.each count (Nat.lt_succ_self count)
          refine .inr ⟨node, memArgs isArg, ?_⟩
          rw [indexOf isArg]
          omega
  obtain ⟨m_input_is_static, marked, length, entries⟩ :=
    markArgs_ok order (List.replicate count false)
      (fun node member => (collected node member).1.2.2)
      (fun node member => by
        rw [List.length_replicate]
        exact (collected node member).2)
  rw [inputIsStaticVector,
    collectArgs_ok fun node member isArg => (args node member isArg).1.2.2]
  dsimp only
  rw [List.nil_append, largest, Int.sub_add_cancel, Int.toNat_natCast, marked]
  congr 1
  apply List.ext_getElem?
  intro k
  by_cases inside : k < count
  · obtain ⟨node, isArg⟩ := numbered.each k inside
    rw [List.getElem?_map, List.getElem?_range inside, Option.map_some]
    apply entries k
    · intro other member atK
      exact static other k (atK ▸ (collected other member).1)
    · exact .inr ⟨node, memArgs isArg, indexOf isArg⟩
  · rw [List.getElem?_eq_none (by rw [length, List.length_replicate]; omega),
      List.getElem?_eq_none (by rw [List.length_map, List.length_range]; omega)]

/-- The indices of the static arguments. -/
theorem getGraphStaticInputs_iff {nodes : List Node}
    {static_input_indexes : List Int}
    (success : getGraphStaticInputs order nodes = .ok static_input_indexes)
    {index : Int} :
    index ∈ static_input_indexes ↔ ∃ node ∈ nodes, node.type_string = "_Arg" ∧
      getNodeAttrInt node.attrs "index" = .ok index ∧
      argIsStatic order node = true := by
  induction nodes generalizing static_input_indexes with
  | nil =>
      obtain rfl := Except.ok.inj success
      simp
  | cons head nodes ih =>
      rw [List.exists_mem_cons_iff]
      unfold getGraphStaticInputs at success
      split at success
      case isTrue headArg =>
        split at success
        case h_1 => simp at success
        case h_2 headIndex atIndex =>
          obtain ⟨rest, atRest, success⟩ := bind_ok success
          obtain rfl := Except.ok.inj success
          have isArg : head.type_string = "_Arg" := by simpa using headArg
          rw [← ih atRest, atIndex]
          cases isStatic : argIsStatic order head with
          | true => simp [isArg, eq_comm]
          | false => simp
      case isFalse notArg =>
        have other : head.type_string ≠ "_Arg" := by simpa using notArg
        rw [ih success]
        simp [other]

end StaticVector

end NGraphBridge.NGraphEncapsulateOp
