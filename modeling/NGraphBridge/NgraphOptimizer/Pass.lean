import NGraphBridge.EncapsulateClusters.Rewrite
import NGraphBridge.Lib.OrderedSet

/-!
# The grappler pass

Before clustering, every fetched node gets an `IdentityN` node behind it, which
takes over its name, so that the fetched node itself can be clustered.
-/

namespace NGraphBridge.NgraphOptimizer

open TF EncapsulateClusters

/-- `GrapplerItem`, with its graph converted. `ref_output` says which outputs of
a node have a ref type; `output_types` are the types referred to. -/
structure GrapplerItem where
  graph : Graph
  ref_output : Nat → Nat → Bool
  feed : List String
  fetch : List String
  keep_ops : List String
  init_ops : List String

section AddIdentityN

variable (ref_output : Nat → Nat → Bool) (newName : Nat → String → String)

/-- The graph while nodes are added to it, and the number of the next new
name. -/
structure Rewriting where
  graph : Graph
  name_counter : Nat

def hasRefType (node : Node) : Bool :=
  (List.range node.num_outputs).any (ref_output node.id)

/-- The node that takes over the outputs and the name of another. -/
def identityNode (id : Nat) (node : Node) : Node where
  id := id
  name := node.name
  type_string := "IdentityN"
  attrs := [("T", .listType node.output_types)]
  input_types := node.output_types
  output_types := node.output_types
  assigned_device_name := node.assigned_device_name
  requested_inputs := []

/-- Every output of a node. -/
def outputsOf (node : Node) : List (Nat × Int × DataType) :=
  node.output_types.zipIdx.map fun entry => (node.id, (entry.2 : Int), entry.1)

def setName (new_name : String) (node : Node) : Node :=
  { node with name := new_name }

/-- The body of the loop, for a node that gets an `IdentityN`. -/
def addIdentity (node : Node) (rewriting : Rewriting) : Rewriting :=
  let id := rewriting.graph.nextNodeId
  let graph := addInputs id (outputsOf node) 0
    (rewriting.graph.addNode (identityNode id node))
  let new_name := newName rewriting.name_counter (node.name ++ "_ngraph")
  { graph := graph.updateNode node.id (setName new_name)
    name_counter := rewriting.name_counter + 1 }

/-- Only a node with outputs, none of them of a ref type, can have one. -/
def addIdentityNLoop (skip_these_nodes : OrderedSet String) :
    List Node → Rewriting → Rewriting
  | [], rewriting => rewriting
  | node :: nodes, rewriting =>
      if node.name ∈ skip_these_nodes then
        if node.num_outputs != 0 then
          if hasRefType ref_output node then
            addIdentityNLoop skip_these_nodes nodes rewriting
          else addIdentityNLoop skip_these_nodes nodes
            (addIdentity newName node rewriting)
        else addIdentityNLoop skip_these_nodes nodes rewriting
      else addIdentityNLoop skip_these_nodes nodes rewriting

/-- `AddIdentityN`. The loop goes over the nodes that are there at its start. -/
def addIdentityN (graph : Graph) (name_counter : Nat)
    (skip_these_nodes : OrderedSet String) : Graph :=
  (addIdentityNLoop ref_output newName skip_these_nodes graph.op_nodes
    ⟨graph, name_counter⟩).graph

end AddIdentityN

/-- The name before the colon. -/
def fetchName (f : String) : String :=
  String.ofList (f.toList.takeWhile (· != ':'))

def disabledNodes (graph : Graph) (disabled_ops_set : OrderedSet String) :
    OrderedSet String :=
  .ofList ((graph.nodes.filter (·.type_string ∈ disabled_ops_set)).map
      Node.name)

def fetchNodes (item : GrapplerItem) : OrderedSet String :=
  .ofList (item.fetch.map fetchName)

/-- Fetch nodes that are not of a disabled type. -/
def nodesToAddIdentityTo (item : GrapplerItem)
    (disabled_ops_set : OrderedSet String) : OrderedSet String :=
  .ofList ((fetchNodes item).elems.filter
      (· ∉ disabledNodes item.graph disabled_ops_set))

/-- What the clustering is given. -/
structure Prepared where
  graph : Graph
  skip_these_nodes : OrderedSet String

/-- `Optimize` up to the clustering. -/
def optimize (newName : Nat → String → String)
    (disabled_ops_set : OrderedSet String) (name_counter : Nat)
    (item : GrapplerItem) : Prepared where
  graph := addIdentityN item.ref_output newName item.graph name_counter
    (nodesToAddIdentityTo item disabled_ops_set)
  skip_these_nodes := .ofList (item.feed ++ item.keep_ops ++ item.init_ops ++
    (nodesToAddIdentityTo item disabled_ops_set).elems)

section Added

variable {graph : Graph} {ref_output : Nat → Nat → Bool}
  {newName : Nat → String → String} {skip_these_nodes : OrderedSet String}

/-- The test that the loop makes. -/
def GetsIdentity (ref_output : Nat → Nat → Bool)
    (skip_these_nodes : OrderedSet String) (node : Node) : Prop :=
  node.name ∈ skip_these_nodes ∧ node.num_outputs ≠ 0 ∧
    hasRefType ref_output node = false

instance (node : Node) :
    Decidable (GetsIdentity ref_output skip_these_nodes node) :=
  inferInstanceAs (Decidable (_ ∧ _ ∧ _))

/-- New names are not names of the graph. -/
def Fresh (graph : Graph) (newName : Nat → String → String) : Prop :=
  ∀ counter base, ∀ node ∈ graph.nodes, node.name ≠ newName counter base

/-- `copy` takes a node to its identity node, `name` to its name. -/
structure Added (graph : Graph) (gets : Node → Prop) (copy : Nat → Option Nat)
    (name : Nat → String) (next : Graph) : Prop where
  nodes : ∀ node, node ∈ next.nodes ↔
    (∃ old ∈ graph.nodes, node = setName (name old.id) old) ∨
      ∃ old ∈ graph.nodes, ∃ id, copy old.id = some id ∧
      node = identityNode id old
  copied : ∀ old ∈ graph.nodes, (copy old.id).isSome = true ↔ gets old
  new : ∀ old ∈ graph.nodes, ∀ id, copy old.id = some id → ¬ graph.HasNode id
  injective : ∀ old ∈ graph.nodes, ∀ other ∈ graph.nodes, ∀ id,
    copy old.id = some id →
    copy other.id = some id → old = other
  kept : ∀ old ∈ graph.nodes, copy old.id = none → name old.id = old.name
  renamed : ∀ old ∈ graph.nodes, (copy old.id).isSome = true →
    ∀ other ∈ graph.nodes, other.name ≠ name old.id
  feeds : ∀ u a v b, next.Feeds u a v b ↔ graph.Feeds u a v b ∨
    ∃ old ∈ graph.nodes, copy old.id = some v ∧ u = old.id ∧ a = b ∧
      ∃ k : Nat, b = k ∧ k < old.num_outputs

theorem added_init (wf : graph.WF) {gets : Node → Prop}
    (none_ : ∀ old ∈ graph.nodes, ¬ gets old) :
    Added graph gets (fun _ => none) (fun id => (graph.node id).name)
      graph := by
  constructor
  case nodes =>
    intro node
    constructor
    · intro member
      exact .inl ⟨node, member, by rw [wf.node_eq member, setName]⟩
    · intro made
      cases made with
      | inl isOld =>
          obtain ⟨old, member, rfl⟩ := isOld
          rwa [wf.node_eq member, setName]
      | inr isNew =>
          obtain ⟨_, _, _, found, _⟩ := isNew
          exact absurd found (by simp)
  case copied =>
    intro old member
    simpa using none_ old member
  case new => simp
  case injective => simp
  case kept =>
    intro old member _
    rw [wf.node_eq member]
  case renamed => simp
  case feeds => simp

theorem outputsOf_getElem? {node : Node} {k u : Nat} {a : Int} :
    ((outputsOf node).map (fun input => (input.1, input.2.1)))[k]? =
      some (u, a) ↔
      u = node.id ∧ a = k ∧ k < node.num_outputs := by
  simp only [outputsOf, List.map_map, List.getElem?_map, List.getElem?_zipIdx,
    Option.map_eq_some_iff, Function.comp_apply, Prod.mk.injEq,
    Node.num_outputs]
  constructor
  · rintro ⟨_, ⟨dt, found, rfl⟩, rfl, rfl⟩
    exact ⟨rfl, by simp, (List.getElem?_eq_some_iff.mp found).1⟩
  · rintro ⟨rfl, rfl, inside⟩
    exact ⟨_, ⟨_, List.getElem?_eq_getElem inside, rfl⟩, rfl, by simp⟩

theorem outputsOf_data (node : Node) : ∀ input ∈ outputsOf node,
    input.2.1 ≠ kControlSlot := by
  intro input member
  obtain ⟨entry, _, rfl⟩ := List.mem_map.mp member
  dsimp only [kControlSlot]
  omega

section Step

variable {gets : Node → Prop} {copy : Nat → Option Nat} {name : Nat → String}
  {rewriting : Rewriting} {node : Node}

/-- `copy'` and `name'` are `copy` and `name` with the entries of one more
node. -/
structure Entered (graph : Graph) (node : Node) (newId : Nat)
    (new_name : String) (copy copy' : Nat → Option Nat)
    (name name' : Nat → String) : Prop where
  noCopy : copy node.id = none
  copySelf : copy' node.id = some newId
  nameSelf : name' node.id = new_name
  copyAt : ∀ old ∈ graph.nodes, old ≠ node → copy' old.id = copy old.id
  nameAt : ∀ old ∈ graph.nodes, old ≠ node → name' old.id = name old.id

variable {newId : Nat} {new_name : String} {copy' : Nat → Option Nat}
  {name' : Nat → String} {next : Graph}

theorem entered_update (wf : graph.WF) (member : node ∈ graph.nodes)
    (noCopy : copy node.id = none) :
    Entered graph node newId new_name copy
      (Function.update copy node.id (some newId)) name
      (Function.update name node.id new_name) where
  noCopy := noCopy
  copySelf := Function.update_self _ _ _
  nameSelf := Function.update_self _ _ _
  copyAt := fun _ oldIn different =>
    Function.update_of_ne
      (fun same => different (wf.id_injective oldIn member same)) _ _
  nameAt := fun _ oldIn different =>
    Function.update_of_ne
      (fun same => different (wf.id_injective oldIn member same)) _ _

theorem Added.id_lt (added : Added graph gets copy name next) {old : Node}
    (oldIn : old ∈ graph.nodes) : old.id < next.nextNodeId :=
  @Graph.lt_nextNodeId _ (setName (name old.id) old)
    ((added.nodes _).mpr (.inl ⟨old, oldIn, rfl⟩))

theorem Added.copy_lt (added : Added graph gets copy name next) {old : Node}
    (oldIn : old ∈ graph.nodes) {id : Nat} (found : copy old.id = some id) :
    id < next.nextNodeId :=
  @Graph.lt_nextNodeId _ (identityNode id old)
    ((added.nodes _).mpr (.inr ⟨old, oldIn, id, found, rfl⟩))

/-- Nodes are those from before, one of them renamed, and the new one. -/
theorem Added.nodes_addIdentity (added : Added graph gets copy name next)
    (wf : graph.WF) (member : node ∈ graph.nodes) (above : node.id < newId)
    (entered : Entered graph node newId new_name copy copy' name name')
    {made : Node} :
    made ∈ ((addInputs newId (outputsOf node) 0
        (next.addNode (identityNode newId node))).updateNode node.id
      (setName new_name)).nodes ↔
      (∃ old ∈ graph.nodes, made = setName (name' old.id) old) ∨
        ∃ old ∈ graph.nodes, ∃ id, copy' old.id = some id ∧
        made = identityNode id old := by
  have listed : made ∈ ((addInputs newId (outputsOf node) 0
      (next.addNode (identityNode newId node))).updateNode node.id
      (setName new_name)).nodes ↔
      ∃ before, (before ∈ next.nodes ∨ before = identityNode newId node) ∧
        made = if before.id = node.id then setName new_name before
          else before := by
    simp only [Graph.updateNode, addInputs_nodes, Graph.addNode, List.mem_map,
      List.mem_append, List.mem_singleton, beq_iff_eq]
    constructor
    · rintro ⟨before, there, rfl⟩
      exact ⟨before, there, rfl⟩
    · rintro ⟨before, there, rfl⟩
      exact ⟨before, there, rfl⟩
  have idApart : ∀ old ∈ graph.nodes, old ≠ node → old.id ≠ node.id :=
    fun old oldIn different same =>
      different (wf.id_injective oldIn member same)
  have copyApart : ∀ old ∈ graph.nodes, ∀ id, copy old.id = some id →
      id ≠ node.id := by
    rintro old oldIn _ found rfl
    exact added.new old oldIn _ found ⟨node, member, rfl⟩
  rw [listed]
  constructor
  · rintro ⟨before, there, rfl⟩
    cases there with
    | inr isNew =>
        subst isNew
        exact .inr ⟨node, member, newId, entered.copySelf,
          if_neg (Nat.ne_of_gt above)⟩
    | inl isBefore =>
        cases (added.nodes before).mp isBefore with
        | inl isOld =>
            obtain ⟨old, oldIn, rfl⟩ := isOld
            refine .inl ⟨old, oldIn, ?_⟩
            by_cases same : old = node
            · rw [same, entered.nameSelf]
              exact if_pos rfl
            · rw [entered.nameAt old oldIn same]
              exact if_neg (idApart old oldIn same)
        | inr isCopy =>
            obtain ⟨old, oldIn, id, found, rfl⟩ := isCopy
            have different : old ≠ node := by
              rintro rfl
              simp [entered.noCopy] at found
            exact .inr ⟨old, oldIn, id,
              (entered.copyAt old oldIn different).trans found,
              if_neg (copyApart old oldIn id found)⟩
  · intro isMade
    cases isMade with
    | inl isOld =>
        obtain ⟨old, oldIn, rfl⟩ := isOld
        refine ⟨setName (name old.id) old,
          .inl ((added.nodes _).mpr (.inl ⟨old, oldIn, rfl⟩)), ?_⟩
        by_cases same : old = node
        · rw [same, entered.nameSelf]
          exact (if_pos rfl).symm
        · rw [entered.nameAt old oldIn same]
          exact (if_neg (idApart old oldIn same)).symm
    | inr isCopy =>
        obtain ⟨old, oldIn, id, found, rfl⟩ := isCopy
        by_cases same : old = node
        · subst same
          rw [entered.copySelf, Option.some.injEq] at found
          subst found
          exact ⟨_, .inr rfl, (if_neg (Nat.ne_of_gt above)).symm⟩
        · rw [entered.copyAt old oldIn same] at found
          exact ⟨_, .inl
            ((added.nodes _).mpr (.inr ⟨old, oldIn, id, found, rfl⟩)),
            (if_neg (copyApart old oldIn id found)).symm⟩

/-- The new node is fed by all outputs of the renamed one. -/
theorem Added.feeds_addIdentity (added : Added graph gets copy name next)
    (member : node ∈ graph.nodes)
    (entered : Entered graph node newId new_name copy copy' name name')
    {u v : Nat} {a b : Int} :
    ((addInputs newId (outputsOf node) 0
        (next.addNode (identityNode newId node))).updateNode node.id
          (setName new_name)).Feeds u a v b ↔
      graph.Feeds u a v b ∨ ∃ old ∈ graph.nodes, copy' old.id = some v ∧
        u = old.id ∧ a = b ∧
        ∃ k : Nat, b = k ∧ k < old.num_outputs := by
  refine (feeds_addInputs (outputsOf_data node) u a v b).trans ?_
  rw [Graph.feeds_addNode, added.feeds, or_assoc]
  apply or_congr_right
  constructor
  · intro feeds
    cases feeds with
    | inl before =>
        obtain ⟨old, oldIn, found, rest⟩ := before
        have different : old ≠ node := by
          rintro rfl
          simp [entered.noCopy] at found
        exact ⟨old, oldIn, (entered.copyAt old oldIn different).trans found,
          rest⟩
    | inr made =>
        obtain ⟨rfl, k, atB, atK⟩ := made
        obtain ⟨rfl, rfl, inside⟩ := outputsOf_getElem?.mp atK
        exact ⟨node, member, entered.copySelf, rfl, by simpa using atB.symm, k,
          by simpa using atB, inside⟩
  · rintro ⟨old, oldIn, found, rfl, rfl, k, rfl, inside⟩
    by_cases same : old = node
    · subst same
      rw [entered.copySelf, Option.some.injEq] at found
      exact .inr ⟨found.symm, k, by simp,
        outputsOf_getElem?.mpr ⟨rfl, rfl, inside⟩⟩
    · rw [entered.copyAt old oldIn same] at found
      exact .inl ⟨old, oldIn, found, rfl, rfl, k, rfl, inside⟩

/-- One more node gets its identity node, under a number that is new. -/
theorem Added.addIdentity (added : Added graph gets copy name rewriting.graph)
    (wf : graph.WF) (fresh : Fresh graph newName) (member : node ∈ graph.nodes)
    (notYet : ¬ gets node) :
    ∃ copy name, Added graph (fun old => gets old ∨ old = node) copy name
      (addIdentity newName node rewriting).graph := by
  have noCopy : copy node.id = none := by
    rw [← Option.not_isSome_iff_eq_none, added.copied node member]
    exact notYet
  have oldBelow : ∀ old ∈ graph.nodes, old.id < rewriting.graph.nextNodeId :=
    fun old oldIn => added.id_lt oldIn
  have copyBelow : ∀ old ∈ graph.nodes, ∀ id, copy old.id = some id →
      id < rewriting.graph.nextNodeId :=
    fun old oldIn id found => added.copy_lt oldIn found
  generalize madeId : rewriting.graph.nextNodeId = newId at oldBelow copyBelow
  generalize madeName :
      newName rewriting.name_counter (node.name ++ "_ngraph") = new_name
  have freshName : ∀ other ∈ graph.nodes, other.name ≠ new_name :=
    madeName ▸ fresh rewriting.name_counter (node.name ++ "_ngraph")
  refine ⟨Function.update copy node.id (some newId),
    Function.update name node.id new_name, ?_⟩
  have entered :=
    @entered_update _ copy name node newId new_name wf member noCopy
  have unfolded : (NgraphOptimizer.addIdentity newName node rewriting).graph =
      (addInputs newId (outputsOf node) 0
        (rewriting.graph.addNode (identityNode newId node))).updateNode node.id
          (setName new_name) := by
    rw [← madeId, ← madeName]
    rfl
  rw [unfolded]
  generalize Function.update copy node.id (some newId) = copy' at entered ⊢
  generalize Function.update name node.id new_name = name' at entered ⊢
  constructor
  case nodes => exact fun made =>
    added.nodes_addIdentity wf member (oldBelow node member) entered
  case copied =>
    intro old oldIn
    by_cases same : old = node
    · rw [same, entered.copySelf]
      exact iff_of_true rfl (.inr rfl)
    · rw [entered.copyAt old oldIn same, added.copied old oldIn,
        or_iff_left same]
  case new =>
    rintro old oldIn id found ⟨other, otherIn, rfl⟩
    by_cases same : old = node
    · subst same
      rw [entered.copySelf, Option.some.injEq] at found
      exact absurd found (Nat.ne_of_gt (oldBelow other otherIn))
    · rw [entered.copyAt old oldIn same] at found
      exact added.new old oldIn _ found ⟨other, otherIn, rfl⟩
  case injective =>
    intro old oldIn other otherIn id found otherFound
    by_cases same : old = node
    · by_cases otherSame : other = node
      · rw [same, otherSame]
      · subst same
        rw [entered.copySelf, Option.some.injEq] at found
        rw [entered.copyAt other otherIn otherSame] at otherFound
        exact absurd found
          (Nat.ne_of_gt (copyBelow other otherIn id otherFound))
    · rw [entered.copyAt old oldIn same] at found
      by_cases otherSame : other = node
      · subst otherSame
        rw [entered.copySelf, Option.some.injEq] at otherFound
        exact absurd otherFound (Nat.ne_of_gt (copyBelow old oldIn id found))
      · rw [entered.copyAt other otherIn otherSame] at otherFound
        exact added.injective old oldIn other otherIn id found otherFound
  case kept =>
    intro old oldIn none_
    by_cases same : old = node
    · rw [same, entered.copySelf] at none_
      exact absurd none_ (by simp)
    · rw [entered.copyAt old oldIn same] at none_
      rw [entered.nameAt old oldIn same]
      exact added.kept old oldIn none_
  case renamed =>
    intro old oldIn some_
    by_cases same : old = node
    · rw [same, entered.nameSelf]
      exact freshName
    · rw [entered.copyAt old oldIn same] at some_
      rw [entered.nameAt old oldIn same]
      exact added.renamed old oldIn some_
  case feeds => exact fun u a v b => added.feeds_addIdentity member entered

theorem Added.congr {next : Graph} {other : Node → Prop}
    (added : Added graph gets copy name next)
    (same : ∀ old ∈ graph.nodes, gets old ↔ other old) :
    Added graph other copy name next where
  nodes := added.nodes
  copied := fun old member => (added.copied old member).trans (same old member)
  new := added.new
  injective := added.injective
  kept := added.kept
  renamed := added.renamed
  feeds := added.feeds

theorem addIdentityNLoop_added {nodes : List Node} (wf : graph.WF)
    (fresh : Fresh graph newName) (inside : ∀ node ∈ nodes, node ∈ graph.nodes)
    (distinct : nodes.Nodup) (notYet : ∀ node ∈ nodes, ¬ gets node)
    (added : Added graph gets copy name rewriting.graph) :
    ∃ copy name, Added graph
      (fun old => gets old ∨
        (old ∈ nodes ∧ GetsIdentity ref_output skip_these_nodes old))
      copy name
      (addIdentityNLoop ref_output newName skip_these_nodes nodes
        rewriting).graph := by
  induction nodes generalizing gets copy name rewriting with
  | nil => exact ⟨copy, name, added.congr (by simp)⟩
  | cons node nodes ih =>
      obtain ⟨notLater, distinct⟩ := List.nodup_cons.mp distinct
      have insideRest :=
        fun other otherIn => inside other (List.mem_cons_of_mem _ otherIn)
      have notYetRest :=
        fun other otherIn => notYet other (List.mem_cons_of_mem _ otherIn)
      have skipped : ¬ GetsIdentity ref_output skip_these_nodes node →
          ∃ copy name, Added graph (fun old => gets old ∨
            (old ∈ node :: nodes ∧
              GetsIdentity ref_output skip_these_nodes old)) copy name
          (addIdentityNLoop ref_output newName skip_these_nodes nodes
            rewriting).graph := by
        intro notNode
        obtain ⟨copy, name, result⟩ := ih insideRest distinct notYetRest added
        refine ⟨copy, name, result.congr fun old _ => ?_⟩
        rw [List.mem_cons]
        constructor
        · exact Or.imp_right fun later => ⟨.inr later.1, later.2⟩
        · rintro (before | ⟨same | later, isGiven⟩)
          · exact .inl before
          · exact absurd (same ▸ isGiven) notNode
          · exact .inr ⟨later, isGiven⟩
      unfold addIdentityNLoop
      by_cases listed : node.name ∈ skip_these_nodes
      · rw [if_pos listed]
        by_cases outputs : node.num_outputs = 0
        · rw [if_neg (by simp [outputs])]
          exact skipped (fun isGiven => isGiven.2.1 outputs)
        · rw [if_pos (by simpa using outputs)]
          cases ref : hasRefType ref_output node with
          | true =>
              rw [if_pos rfl]
              exact skipped (fun isGiven => by simp [isGiven.2.2] at ref)
          | false =>
              rw [if_neg (by simp)]
              obtain ⟨copy, name, step⟩ :=
                added.addIdentity wf fresh (inside node (by simp))
                  (notYet node (by simp))
              have notGiven : ∀ other ∈ nodes,
                  ¬ (gets other ∨ other = node) := by
                rintro other otherIn (before | rfl)
                · exact notYetRest other otherIn before
                · exact notLater otherIn
              obtain ⟨copy, name, result⟩ :=
                ih insideRest distinct notGiven step
              refine ⟨copy, name, result.congr fun old _ => ?_⟩
              rw [List.mem_cons]
              constructor
              · rintro ((before | same) | ⟨later, isGiven⟩)
                · exact .inl before
                · exact .inr ⟨.inl same, same ▸ ⟨listed, outputs, ref⟩⟩
                · exact .inr ⟨.inr later, isGiven⟩
              · rintro (before | ⟨same | later, isGiven⟩)
                · exact .inl (.inl before)
                · exact .inl (.inr same)
                · exact .inr ⟨later, isGiven⟩
      · rw [if_neg listed]
        exact skipped (fun isGiven => listed isGiven.1)

end Step

/-- Every op node that passes the test gets its identity node, and no other. -/
theorem addIdentityN_added (wf : graph.WF) (fresh : Fresh graph newName)
    (name_counter : Nat) :
    ∃ copy name, Added graph
      (fun old => old ∈ graph.op_nodes ∧
        GetsIdentity ref_output skip_these_nodes old) copy name
      (addIdentityN ref_output newName graph name_counter
        skip_these_nodes) := by
  have start : Added graph (fun _ => False) (fun _ => none)
      (fun id => (graph.node id).name)
      graph := added_init wf (by simp)
  have distinct : graph.op_nodes.Nodup := wf.ids.of_map.filter _
  obtain ⟨copy, name, result⟩ :=
    @addIdentityNLoop_added _ ref_output _ skip_these_nodes _ _ _
      ⟨graph, name_counter⟩ _ wf fresh
      (fun node member => (List.mem_filter.mp member).1) distinct
      (by simp) start
  exact ⟨copy, name, result.congr (by simp [Graph.op_nodes])⟩

end Added

end NGraphBridge.NgraphOptimizer
